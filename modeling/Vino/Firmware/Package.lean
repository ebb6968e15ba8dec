import Mathlib

/-!
# Docks and Their Firmware Packages

A dock says in a vendor descriptor which platform it is and which firmware it runs; a package says
in its tags which platform it is for and which version it installs.
-/

namespace Vino.Firmware

/-! ### Versions and families -/

/-- A three-part firmware version. -/
structure Version where
  major : UInt8
  minor : UInt8
  patch : UInt8
  deriving DecidableEq, Repr

/-- Versions are ordered major-minor-patch. -/
def Version.le (a b : Version) : Bool :=
  a.major < b.major || a.major == b.major &&
    (a.minor < b.minor || a.minor == b.minor && a.patch ≤ b.patch)

inductive Family where
  | ella
  | ridge
  | navarro
  | firefly
  deriving DecidableEq, Repr

namespace Family

/-- From the name in the identity descriptor: "NavaDock", "Ridge" or "RidgeDoc", "Ella" or
"EllaDock", and "Firefly" or "FflyMoni". -/
def fromIdentity (name : List UInt8) : Option Family :=
  if name = [0x4e, 0x61, 0x76, 0x61, 0x44, 0x6f, 0x63, 0x6b] then some navarro
  else if name = [0x52, 0x69, 0x64, 0x67, 0x65] ∨
      name = [0x52, 0x69, 0x64, 0x67, 0x65, 0x44, 0x6f, 0x63] then some ridge
  else if name = [0x45, 0x6c, 0x6c, 0x61] ∨
      name = [0x45, 0x6c, 0x6c, 0x61, 0x44, 0x6f, 0x63, 0x6b] then some ella
  else if name = [0x46, 0x69, 0x72, 0x65, 0x66, 0x6c, 0x79] ∨
      name = [0x46, 0x66, 0x6c, 0x79, 0x4d, 0x6f, 0x6e, 0x69] then some firefly
  else none

/-- The file that carries the firmware of a family. -/
def firmwareName : Family → String
  | navarro => "vino/navarro-dock-release.spkg"
  | ridge => "vino/ridge-dock-release.spkg"
  | ella => "vino/ella-dock-release.spkg"
  | firefly => "vino/firefly-monitor-release.spkg"

/-- From the `RD` tag of a package. -/
def fromPackage (rd : List UInt8) : Option Family := fromIdentity rd

end Family

/-! ### The identity of a dock -/

def identityName : ℕ := 8

/-- The platform name of a dock, padded, and the firmware it runs. -/
structure Identity where
  version : Version
  name : List.Vector UInt8 identityName

namespace Identity

variable (id : Identity)

/-- The name without its padding. -/
def platform : List UInt8 := id.name.toList.takeWhile fun c => c ≠ 0 && c ≠ 0x20

def family : Option Family := Family.fromIdentity id.platform

def firmwareName : Option String := id.family.map Family.firmwareName

end Identity

/-! ### Packages -/

/-- The value of so many bytes behind the first place a tag stands at. -/
def findTag (tag : List UInt8) (n : ℕ) : List UInt8 → Option (List UInt8)
  | [] => none
  | b :: image =>
      if tag.length + n ≤ (b :: image).length ∧ (b :: image).take tag.length = tag then
        some (((b :: image).drop tag.length).take n)
      else findTag tag n image

/-- The family a package is for, from its `RD` tag. -/
def packageFamily (image : List UInt8) : Option Family :=
  (findTag [0x52, 0x44, 8, 0] 8 image).bind fun name =>
    Family.fromPackage (name.takeWhile fun c => c ≠ 0)

/-- The version a package installs, from its `VE` tag. -/
def packageVersion (image : List UInt8) : Option Version :=
  match findTag [0x56, 0x45, 3, 0] 3 image with
  | some [major, minor, patch] => some ⟨major, minor, patch⟩
  | _ => none

/-- The container begins with "ELLA". -/
def isPackage (image : List UInt8) : Bool :=
  8 < image.length && image.take 4 == [0x45, 0x4c, 0x4c, 0x41]

end Vino.Firmware
