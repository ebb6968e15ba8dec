import Vino.Color
import Vino.Damage
import Vino.Kms.Shadow

/-!
# Pixel Sources

What the scanout worker encodes: a snapshot of a framebuffer with the rotation of its plane, the
colour transform and the depths it is read under.  Upright strips are compared by a hash of the raw
words they show, and what a strip encodes to follows from these words, the colour transform and the
two depths.

* `encodeStrip_congr`: two upright sources of one setting that show the same words in a strip
  encode it alike.
-/

namespace Vino.Kms.Sources

open Vino.Haar.Transform (Depth)
open Vino.Haar.Strip (Geometry colourStripAt)
open Vino.Color Vino.Scanout Vino.Damage Vino.Lib.Bits
open Vino.Kms.Shadow (Rotation)

/-! ### Rotations -/

def upright : Rotation := ⟨.rotate0, false, false⟩

/-- The size of the framebuffer behind an output, or of the output before a framebuffer. -/
def srcDims (r : Rotation) (ow oh : ℕ) : ℕ × ℕ :=
  match r.angle with
  | .rotate90 | .rotate270 => (oh, ow)
  | .rotate0 | .rotate180 => (ow, oh)

/-- The framebuffer's pixel at a pixel of the output. -/
def rotSrc (r : Rotation) (dx dy sw sh : ℕ) : ℕ × ℕ :=
  let xmax := sw - 1
  let ymax := sh - 1
  let p := match r.angle with
    | .rotate90 => (dy, ymax - dx)
    | .rotate180 => (xmax - dx, ymax - dy)
    | .rotate270 => (xmax - dy, dx)
    | .rotate0 => (dx, dy)
  (if r.reflectX then xmax - p.1 else p.1, if r.reflectY then ymax - p.2 else p.2)

/-! ### Sources -/

/-- A framebuffer as it was copied, four bytes a pixel. -/
structure Snapshot where
  w : ℕ
  h : ℕ
  pixels : ℕ → ℕ → UInt32

structure PixelSource where
  snapshot : Snapshot
  rotation : Rotation
  color : Option ColorPipeline
  /-- The depth of the link when the source was built. -/
  depth : Depth
  /-- The depth the snapshot's words are read at. -/
  sourceDepth : Depth

def widen8To10 (v : UInt16) : UInt16 := v <<< 2 ||| v >>> 6

namespace PixelSource

variable (src : PixelSource)

def outputW : ℕ := (srcDims src.rotation src.snapshot.w src.snapshot.h).1

def outputH : ℕ := (srcDims src.rotation src.snapshot.w src.snapshot.h).2

/-- Split a packed pixel into its channels. -/
def unpackSource (p : UInt32) : UInt16 × UInt16 × UInt16 :=
  match src.sourceDepth with
  | .eight => (((p >>> 16) &&& 0xff).toUInt16, ((p >>> 8) &&& 0xff).toUInt16, (p &&& 0xff).toUInt16)
  | .ten =>
      (((p >>> 20) &&& 0x3ff).toUInt16, ((p >>> 10) &&& 0x3ff).toUInt16, (p &&& 0x3ff).toUInt16)

/-- Widen a sample of the framebuffer to the depth of the link. -/
def widen (c : UInt16 × UInt16 × UInt16) : UInt16 × UInt16 × UInt16 :=
  match src.sourceDepth, src.depth with
  | .eight, .ten => (widen8To10 c.1, widen8To10 c.2.1, widen8To10 c.2.2)
  | _, _ => c

def unpack (p : UInt32) : UInt16 × UInt16 × UInt16 := src.widen (src.unpackSource p)

/-- The colour transform, whose tables have eight bits. -/
def corrected (c : UInt16 × UInt16 × UInt16) : UInt16 × UInt16 × UInt16 :=
  match src.color with
  | none => c
  | some pipeline =>
      match src.depth with
      | .eight =>
          let v := (pipeline.apply c.1.toUInt8 c.2.1.toUInt8 c.2.2.toUInt8).getD (0, 0, 0)
          (v.1.toUInt16, v.2.1.toUInt16, v.2.2.toUInt16)
      | .ten =>
          let v := (pipeline.apply (c.1 >>> 2).toUInt8 (c.2.1 >>> 2).toUInt8
            (c.2.2 >>> 2).toUInt8).getD (0, 0, 0)
          (widen8To10 v.1.toUInt16, widen8To10 v.2.1.toUInt16, widen8To10 v.2.2.toUInt16)

/-- A pixel of the framebuffer. -/
def sourcePx (sx sy : ℕ) : UInt16 × UInt16 × UInt16 :=
  if sx < src.snapshot.w ∧ sy < src.snapshot.h then
    src.corrected (src.unpack (src.snapshot.pixels sx sy))
  else (0, 0, 0)

/-- Whether the pixels of the output are those of the framebuffer, uncorrected. -/
def direct : Bool := src.color.isNone && src.rotation.identity

/-- A pixel of the output; the padding of the last strips is black. -/
def px : Vino.Haar.Strip.PixelSource := fun dx dy =>
  if src.direct then
    if dx < src.snapshot.w ∧ dy < src.snapshot.h then src.unpack (src.snapshot.pixels dx dy)
    else (0, 0, 0)
  else if dx < src.outputW ∧ dy < src.outputH then
    let p := rotSrc src.rotation dx dy src.snapshot.w src.snapshot.h
    src.sourcePx p.1 p.2
  else (0, 0, 0)

/-- An upright source shows its framebuffer. -/
theorem px_identity (hid : src.rotation.identity = true) (x y : ℕ) :
    src.px x y = if x < src.snapshot.w ∧ y < src.snapshot.h then
      src.corrected (src.unpack (src.snapshot.pixels x y)) else (0, 0, 0) := by
  have hupright : src.rotation = upright := Rotation.eq_of_identity hid (by decide)
  unfold px direct
  cases hcolor : src.color with
  | none => simp [hid, corrected, hcolor]
  | some pipeline =>
      simp only [Option.isNone_some, Bool.false_and, Bool.false_eq_true, if_false, outputW, outputH,
        hupright, srcDims, upright, rotSrc, sourcePx]
      split_ifs <;> rfl

end PixelSource

/-! ### Strips -/

/-- A length rounded up to whole strips. -/
def padded (step len : ℕ) : ℕ := (len + step - 1) / step * step

theorem dvd_padded (step len : ℕ) : step ∣ padded step len := Nat.dvd_mul_left _ _

namespace Snapshot

variable (f : Snapshot) (g : Geometry)

/-- The words a strip shows, line by line. -/
def rows (sx sy : ℕ) : List (List UInt32) :=
  (List.range' sy (min (sy + g.stripH) f.h - sy)).map fun y =>
    (List.range' sx (min (sx + g.stripW) f.w - sx)).map fun x => f.pixels x y

/-- The word at a pixel, if the surface has one. -/
def shown (x y : ℕ) : Option UInt32 := if x < f.w ∧ y < f.h then some (f.pixels x y) else none

theorem getElem?_range'_eq (a n i : ℕ) :
    (List.range' a n)[i]? = if i < n then some (a + i) else none := by
  split_ifs with hi
  · rw [List.getElem?_range' hi, one_mul]
  · exact List.getElem?_eq_none (by simpa using hi)

theorem getElem?_rows {sx sy dx dy : ℕ} (hdx : dx < g.stripW) (hdy : dy < g.stripH) :
    ((f.rows g sx sy)[dy]?.bind fun row => row[dx]?) = f.shown (sx + dx) (sy + dy) := by
  unfold rows shown
  rw [List.getElem?_map, getElem?_range'_eq]
  by_cases hy : sy + dy < f.h
  · have hdy' : dy < min (sy + g.stripH) f.h - sy := by omega
    rw [if_pos hdy', Option.map_some, Option.bind_some, List.getElem?_map, getElem?_range'_eq]
    by_cases hx : sx + dx < f.w
    · have hdx' : dx < min (sx + g.stripW) f.w - sx := by omega
      rw [if_pos hdx', if_pos ⟨hx, hy⟩]
      rfl
    · have hdx' : ¬ dx < min (sx + g.stripW) f.w - sx := by omega
      rw [if_neg hdx', if_neg fun h => hx h.1]
      rfl
  · have hdy' : ¬ dy < min (sy + g.stripH) f.h - sy := by omega
    rw [if_neg hdy', if_neg fun h => hy h.2]
    rfl

def tilesX : ℕ := padded g.stripW f.w / g.stripW

def tilesY : ℕ := padded g.stripH f.h / g.stripH

/-- The seed of a strip's hash. -/
def stripSeed (sx sy : ℕ) : UInt64 :=
  0x9e3779b185ebca87 ^^^ rotateLeft (UInt64.ofNat sx) 17 ^^^ rotateLeft (UInt64.ofNat sy) 43

/-- The hash of the strip at `(sx, sy)`, with the kernel's hash function. -/
def stripHash (xxh64 : List UInt8 → UInt64 → UInt64) (sx sy : ℕ) : UInt64 :=
  xxh64 ((f.rows g sx sy).flatMap fun row => row.flatMap fun p => leBytes 4 p.toNat)
    (stripSeed sx sy)

/-- The hashes of all strips, in raster order. -/
def hashes (xxh64 : List UInt8 → UInt64 → UInt64) : List UInt64 :=
  (List.range (f.tilesY g)).flatMap fun ty => (List.range (f.tilesX g)).map fun tx =>
    f.stripHash g xxh64 (tx * g.stripW) (ty * g.stripH)

theorem length_hashes (xxh64 : List UInt8 → UInt64 → UInt64) :
    (f.hashes g xxh64).length = f.tilesY g * f.tilesX g :=
  length_grid _ _ _

theorem getElem?_hashes (xxh64 : List UInt8 → UInt64 → UInt64) {tx ty : ℕ} (htx : tx < f.tilesX g)
    (hty : ty < f.tilesY g) : (f.hashes g xxh64)[ty * f.tilesX g + tx]? =
      some (f.stripHash g xxh64 (tx * g.stripW) (ty * g.stripH)) :=
  getElem?_grid _ _ hty htx

end Snapshot

/-- The strip hashes tell different contents of the same strip of these snapshots apart. -/
def HashesDistinct (g : Geometry) (xxh64 : List UInt8 → UInt64 → UInt64) (S : List Snapshot) :
    Prop :=
  ∀ a ∈ S, ∀ b ∈ S, ∀ sx sy, a.stripHash g xxh64 sx sy = b.stripHash g xxh64 sx sy →
    a.rows g sx sy = b.rows g sx sy

/-- Encode a strip of a source, at a depth of the geometry. -/
def encodeStrip (g : Geometry) (depth : Depth) (src : PixelSource) (p : ℕ × ℕ) :
    Option (List UInt8) :=
  colourStripAt (g.withDepth depth) p.1 p.2 src.px

/-- **The words a strip shows determine what it encodes to**, under one setting. -/
theorem encodeStrip_congr {g : Geometry} {depth : Depth} {a b : PixelSource} {p : ℕ × ℕ}
    (ha : a.rotation.identity = true) (hb : b.rotation.identity = true)
    (hcolor : a.color = b.color) (hdepth : a.depth = b.depth)
    (hsource : a.sourceDepth = b.sourceDepth)
    (hrows : a.snapshot.rows g p.1 p.2 = b.snapshot.rows g p.1 p.2) :
    encodeStrip g depth a p = encodeStrip g depth b p := by
  refine colourStripAt_congr fun dx hdx dy hdy => ?_
  have hshown : a.snapshot.shown (p.1 + dx) (p.2 + dy) = b.snapshot.shown (p.1 + dx) (p.2 + dy) := by
    rw [← a.snapshot.getElem?_rows g hdx hdy, ← b.snapshot.getElem?_rows g hdx hdy, hrows]
  have hword : ∀ word, a.corrected (a.unpack word) = b.corrected (b.unpack word) := by
    intro word
    simp only [PixelSource.corrected, PixelSource.unpack, PixelSource.widen,
      PixelSource.unpackSource, hcolor, hdepth, hsource]
  rw [a.px_identity ha, b.px_identity hb]
  unfold Snapshot.shown at hshown
  split_ifs at hshown ⊢
  · rw [hword, Option.some.inj hshown]
  · rfl

/-! ### The kernel's hash function -/

def prime1 : UInt64 := 0x9e3779b185ebca87

def prime2 : UInt64 := 0xc2b2ae3d27d4eb4f

def prime3 : UInt64 := 0x165667b19e3779f9

def prime4 : UInt64 := 0x85ebca77c2b2ae63

def prime5 : UInt64 := 0x27d4eb2f165667c5

/-- Bytes as a little-endian word. -/
def word (bytes : List UInt8) : UInt64 := bytes.foldr (fun b w => w <<< 8 ||| b.toUInt64) 0

def laneRound (acc input : UInt64) : UInt64 := rotateLeft (acc + input * prime2) 31 * prime1

def mergeRound (acc v : UInt64) : UInt64 := (acc ^^^ laneRound 0 v) * prime1 + prime4

/-- The four lanes behind the first `n` blocks of 32 bytes. -/
def lanes : ℕ → UInt64 × UInt64 × UInt64 × UInt64 → List UInt8 → UInt64 × UInt64 × UInt64 × UInt64
  | 0, v, _ => v
  | n + 1, v, bytes =>
      let w i := word ((bytes.drop (8 * i)).take 8)
      lanes n (laneRound v.1 (w 0), laneRound v.2.1 (w 1), laneRound v.2.2.1 (w 2), laneRound v.2.2.2 (w 3))
        (bytes.drop 32)

/-- The bytes behind the last whole block. -/
def hashTail : ℕ → UInt64 → List UInt8 → UInt64
  | 0, h, _ => h
  | fuel + 1, h, bytes =>
      if 8 ≤ bytes.length then
        hashTail fuel (rotateLeft (h ^^^ laneRound 0 (word (bytes.take 8))) 27 * prime1 + prime4)
          (bytes.drop 8)
      else if 4 ≤ bytes.length then
        hashTail fuel (rotateLeft (h ^^^ word (bytes.take 4) * prime1) 23 * prime2 + prime3)
          (bytes.drop 4)
      else match bytes with
        | [] => h
        | b :: bytes => hashTail fuel (rotateLeft (h ^^^ b.toUInt64 * prime5) 11 * prime1) bytes

/-- The hash of some bytes. -/
def xxh64 (bytes : List UInt8) (seed : UInt64) : UInt64 :=
  let blocks := bytes.length / 32
  let start :=
    if blocks = 0 then seed + prime5
    else
      let v := lanes blocks (seed + prime1 + prime2, seed + prime2, seed, seed - prime1) bytes
      let h := rotateLeft v.1 1 + rotateLeft v.2.1 7 + rotateLeft v.2.2.1 12 + rotateLeft v.2.2.2 18
      [v.1, v.2.1, v.2.2.1, v.2.2.2].foldl mergeRound h
  let h := hashTail bytes.length (start + UInt64.ofNat bytes.length) (bytes.drop (32 * blocks))
  let h := (h ^^^ h >>> 33) * prime2
  let h := (h ^^^ h >>> 29) * prime3
  h ^^^ h >>> 32

end Vino.Kms.Sources
