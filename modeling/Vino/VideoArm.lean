import Vino.Profile
import Vino.Lib.Bits

/-!
# The Decoder Configuration

What a connector's stream opens with, in plaintext: a header that states the mode twice, five
code tables, the quantiser table, and a tail that some docks want.  The tables are those of the
dock's generation; a ten-bit link raises the ceilings of the first three.
-/

namespace Vino.VideoArm

open Vino.Haar.Transform Vino.Haar.Coder Vino.Haar.Strip Vino.Lib.Bits Vino.Profile

/-- Little-endian bytes of a 32-bit word. -/
def u32Bytes (w : UInt32) : List UInt8 := leBytes 4 w.toNat

/-- The 26-byte header that states a stream's mode. -/
def modeHeader (width height layoutWord : UInt16) (tenBit : Bool) : List UInt8 :=
  let format : UInt16 := if tenBit then 0x0003 else 0x0002
  [0x0018, 0x030b, 0x0204, 0x0002, format, width, height, layoutWord, format, width, height,
    layoutWord, 0].flatMap u16Bytes

/-- The five code tables of 47 values, each with a version word in front on the wire. -/
def wideCodeTables : List (List UInt32) :=
  [[0, 6, 0, 28, 0, 120, 0, 496, 0, 2016, 0, 8128, 0, 32640, 0, 130816, 262144, 0, 0, 0, 0, 0, 0,
      0, 0, 3, 0, 21, 0, 105, 0, 465, 0, 1953, 0, 8001, 0, 32385, 0, 130305, 261121, 0, 0, 0, 0, 0,
      0],
    [0, 6, 0, 28, 0, 120, 0, 496, 0, 2016, 0, 8128, 0, 32640, 0, 130816, 0, 523776, 1048576, 0, 0,
      0, 0, 0, 0, 3, 0, 21, 0, 105, 0, 465, 0, 1953, 0, 8001, 0, 32385, 0, 130305, 0, 522753,
      1046529, 0, 0, 0, 0],
    [0, 6, 0, 28, 0, 120, 0, 496, 0, 2016, 0, 8128, 0, 32640, 0, 130816, 0, 523776, 1048576, 0, 0,
      0, 0, 0, 0, 3, 0, 21, 0, 105, 0, 465, 0, 1953, 0, 8001, 0, 32385, 0, 130305, 0, 522753,
      1046529, 0, 0, 0, 0],
    [0, 6, 0, 28, 0, 120, 255, 512, 0, 0, 0, 0, 0, 0, 0, 0, 0, 0, 0, 0, 0, 0, 0, 0, 0, 3, 0, 21, 0,
      105, 225, 480, 0, 0, 0, 0, 0, 0, 0, 0, 0, 0, 0, 0, 0, 0, 0],
    [0, 6, 0, 28, 0, 120, 0, 496, 0, 2016, 0, 8128, 16383, 32768, 0, 0, 0, 0, 0, 0, 0, 0, 0, 0, 0,
      3, 0, 21, 0, 105, 0, 465, 0, 1953, 0, 8001, 16129, 32512, 0, 0, 0, 0, 0, 0, 0, 0, 0]]

/-- The same five tables for a DL-3x00 decoder, as counted lists of 16-bit values. -/
def narrowCodeTables : List (List UInt16) :=
  [[1, 0, 2, 0, 4, 0, 8, 0, 16, 0, 32, 0, 64, 0, 128, 0, 256, 512],
    [1, 0, 2, 0, 4, 0, 8, 0, 16, 0, 32, 0, 64, 0, 128, 0, 256, 0, 512, 1024],
    [1, 0, 2, 0, 4, 0, 8, 0, 16, 0, 32, 0, 64, 0, 128, 0, 256, 0, 512, 1024],
    [1, 0, 2, 0, 4, 0, 8, 15, 2],
    [1, 0, 2, 0, 4, 0, 8, 0, 16, 0, 32, 0, 64, 127, 2]]

/-- The value at position `k` of one plane's escape codebook with a ceiling of `naturals + 1`:
`2 ^ n * (2 ^ (n + 1) - 1)` at the odd positions up to a terminator, and each again less
`2 ^ (n + 1) - 1` in the second half. -/
def codeTableEntry (naturals k : ℕ) : ℕ :=
  let half := if k < 24 then k else k - 24
  let n := (half + 1) / 2
  let first := 2 ^ n * (2 ^ (n + 1) - 1)
  if half % 2 = 1 ∧ n ≤ naturals then
    if k < 24 then first else first - (2 ^ (n + 1) - 1)
  else if half = 2 * naturals then
    if k < 24 then 2 ^ (2 * naturals + 2) else 2 ^ (2 * naturals + 2) - (2 ^ (naturals + 2) - 1)
  else 0

def codeTable (naturals : ℕ) : List UInt32 :=
  (List.range 47).map fun k => UInt32.ofNat (codeTableEntry naturals k)

/-- Naturals each table carries at ten bits, or zero for one the depth does not move. -/
def deepNaturals : List ℕ := [10, 11, 11, 0, 0]

/-- The table at an index, raised where the link is ten bits deep. -/
def wideTable (tenBit : Bool) (index : ℕ) : List UInt32 :=
  if tenBit ∧ deepNaturals.getD index 0 ≠ 0 then codeTable (deepNaturals.getD index 0)
  else wideCodeTables.getD index []

/-- The kind word of a code table record. -/
def tableKind (index : ℕ) (kind : UInt16) : UInt16 := UInt16.ofNat index <<< 8 ||| kind

def quantTable : List UInt16 :=
  [10, 1, 1, 0, 64, 64, 16, 16, 16, 16, 16, 16, 16, 32, 32, 32, 1, 1, 1, 16, 16, 4, 16, 16, 4, 32,
    32, 8, 1, 1, 1, 32, 32, 2, 32, 32, 2, 64, 64, 4, 0]

/-- The code tables of a configuration, as records. -/
def tableRecords (tables : CodeTables) (tenBit : Bool) : List UInt8 :=
  match tables with
  | .wide => (List.range 5).flatMap fun index =>
      u16Bytes 194 ++ u16Bytes (tableKind index 0x000d) ++ u32Bytes 1 ++
        (wideTable tenBit index).flatMap u32Bytes
  | .narrow => narrowCodeTables.zipIdx.flatMap fun (table, index) =>
      u16Bytes (4 + 2 * UInt16.ofNat table.length) ++ u16Bytes (tableKind index 0x0009) ++
        u16Bytes (UInt16.ofNat table.length) ++ table.flatMap u16Bytes

/-- The plaintext decoder configuration. -/
def buildConfig (tables : CodeTables) (header tail : List UInt8) (tenBit : Bool) : List UInt8 :=
  header ++ tableRecords tables tenBit ++ u16Bytes 82 ++ quantTable.flatMap u16Bytes ++ tail

-- The generator reproduces the captured tables, as the driver's own test demands.
example : codeTable 8 = wideCodeTables.getD 0 [] ∧ codeTable 9 = wideCodeTables.getD 1 [] ∧
    (codeTable 11).getD 21 0 = 8386560 ∧ (codeTable 11).getD 46 0 = 16769025 := by
  decide +kernel

theorem length_flatMap_u16Bytes (l : List UInt16) : (l.flatMap u16Bytes).length = 2 * l.length := by
  induction l with
  | nil => rfl
  | cons w l ih =>
      rw [List.flatMap_cons, List.length_append, ih]
      simp [Nat.mul_succ, Nat.add_comm]

@[simp]
theorem length_modeHeader (width height layoutWord : UInt16) (tenBit : Bool) :
    (modeHeader width height layoutWord tenBit).length = 26 := by
  rw [modeHeader, length_flatMap_u16Bytes]
  rfl

/-- The configuration a wide decoder is given at eight bits, as the cold burst accounts for it. -/
theorem length_buildConfig_wide (header tail : List UInt8) :
    (buildConfig .wide header tail false).length = header.length + 1064 + tail.length := by
  have htables : (tableRecords .wide false).length = 980 := by decide +kernel
  simp only [buildConfig, List.length_append, htables, length_flatMap_u16Bytes, length_u16Bytes]
  rfl

end Vino.VideoArm
