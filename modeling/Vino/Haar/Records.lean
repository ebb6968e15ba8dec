import Vino.Haar.Strip

/-!
# Framing Strips into Records

A frame is a stream of records.  Each begins with a sixteen-byte header that states its length,
carries strips as length-prefixed bodies, and is zero-padded to a multiple of sixteen bytes;
`aux` counts the padding.  The order in which the strips are sent is a property of the dock:
raster order, even bands before odd ones, a producer's band order read off the strips
themselves, or one of two measured orders of a full 2560×1440 surface.
-/

namespace Vino.Haar.Records

open Vino.Haar.Transform Vino.Haar.Strip Vino.Lib.Bits Vino.Lib.Buffer

/-- The error codes the encoder and the message builders return. -/
inductive Errno where
  | EINVAL
  | EOVERFLOW
  | EOPNOTSUPP
  | ENOMEM
  | EPROTO
  deriving DecidableEq, Repr

/-! ### The record header -/

/-- Write the sixteen-byte header over the front of a whole record, whose length fixes
`size`. -/
def recordHeader (out : List UInt8) (kind : UInt32) (sub aux : UInt16) (seq : UInt32) :
    List UInt8 :=
  let size := UInt16.ofNat (out.length - 4)
  let out := copyAt 0 [0, 0] out
  let out := copyAt 2 (u16Bytes size) out
  let out := copyAt 4 (leBytes 4 kind.toNat) out
  let out := copyAt 8 (u16Bytes sub) out
  let out := copyAt 10 (u16Bytes aux) out
  copyAt 12 (leBytes 4 seq.toNat) out

/-! ### Producer orders -/

/-- Band order of the prologue of a 2560×1440 surface. -/
def navarroPrologueRows : List ℕ :=
  [0, 2, 4, 6, 8, 10, 12, 14, 16, 18, 20, 22, 24, 26, 28, 29, 31, 33, 35, 37, 39, 41, 43, 45, 47,
    49, 51, 53, 54, 57, 59, 60, 62, 64, 66, 68, 70, 72, 74, 76, 78, 80, 82, 84, 86, 88, 90, 92, 94,
    96, 98, 100, 1, 3, 5, 7, 9, 11, 13, 15, 17, 19, 21, 23, 25, 27, 30, 32, 34, 36, 38, 40, 42, 44,
    46, 48, 50, 52, 55, 56, 58, 61, 63, 65, 67, 69, 71, 73, 75, 77, 79, 81, 83, 85, 87, 89, 91, 93,
    95, 97, 99, 101, 102, 103, 110, 112, 114, 116, 118, 120, 122, 124, 126, 128, 130, 132, 134,
    136, 138, 140, 142, 144, 146, 148, 150, 152, 154, 156, 158, 160, 162, 164, 166, 168, 170, 172,
    174, 176, 178, 100, 104, 105, 106, 107, 108, 109, 111, 113, 115, 117, 119, 121, 123, 125, 127,
    129, 131, 133, 135, 137, 139, 141, 143, 145, 147, 149, 151, 153, 155, 157, 159, 161, 163, 165,
    167, 169, 171, 173, 175, 177, 179]

/-- Band order of a 1920×1080 surface on a DL-3x00. -/
def ellaRows1080p : List ℕ :=
  [0, 3, 5, 7, 9, 11, 13, 16, 18, 21, 23, 25, 27, 29, 31, 33, 35, 37, 39, 41, 43, 44, 46, 48, 50,
    51, 53, 55, 56, 58, 60, 61, 63, 65, 66, 1, 2, 4, 6, 8, 10, 12, 14, 15, 17, 19, 20, 22, 24, 26,
    28, 30, 32, 34, 36, 38, 40, 42, 45, 47, 49, 52, 54, 57, 59, 62, 64, 67]

/-- Band order of an ordinary full 2560×1440 surface. -/
def navarroOrdinaryRows : List ℕ :=
  [1, 2, 4, 6, 8, 10, 12, 14, 16, 18, 20, 22, 24, 26, 29, 31, 33, 35, 37, 39, 41, 43, 45, 47, 49,
    51, 53, 55, 57, 59, 61, 63, 64, 66, 68, 70, 72, 73, 75, 77, 79, 81, 83, 85, 87, 89, 91, 93, 95,
    97, 99, 0, 3, 5, 7, 9, 11, 13, 15, 17, 19, 21, 23, 25, 27, 28, 30, 32, 34, 36, 38, 40, 42, 44,
    46, 48, 50, 52, 54, 56, 58, 60, 62, 65, 67, 69, 71, 74, 76, 78, 80, 82, 84, 86, 88, 90, 92, 94,
    96, 98, 100, 102, 99, 101, 102, 103, 105, 107, 109, 111, 113, 115, 117, 118, 120, 122, 125,
    127, 129, 131, 133, 135, 137, 139, 141, 144, 146, 148, 150, 152, 154, 156, 158, 160, 162, 164,
    166, 168, 170, 172, 174, 176, 178, 101, 104, 106, 108, 110, 112, 114, 116, 119, 121, 123, 124,
    126, 128, 130, 132, 134, 136, 138, 140, 142, 143, 145, 147, 149, 151, 153, 155, 157, 159, 161,
    163, 165, 167, 169, 171, 173, 175, 177, 179]

/-- The columns of the `run`-th row of the ordinary order. -/
def ordinaryColumns (run : ℕ) : ℕ × ℕ :=
  match run with
  | 50 => (0, 8)
  | 101 => (0, 8)
  | 102 => (8, 20)
  | 103 => (0, 4)
  | 104 => (8, 20)
  | 143 => (4, 20)
  | _ => (0, 20)

/-- The columns of the `run`-th row of the prologue. -/
def prologueColumns (run : ℕ) : ℕ × ℕ :=
  match run with
  | 51 => (0, 4)
  | 139 => (4, 20)
  | _ => (0, 20)

/-- The runs `(y, x0, x1)` of a row table whose rows are split at certain columns. -/
def runs (columns : ℕ → ℕ × ℕ) (rows : List ℕ) : List (ℕ × ℕ × ℕ) :=
  rows.zipIdx.map fun p => (p.1, columns p.2)

/-- The strips of a list of runs, by their raster index. -/
def runOrder (stripsAcross : ℕ) (rs : List (ℕ × ℕ × ℕ)) : List ℕ :=
  rs.flatMap fun r => (List.range' r.2.1 (r.2.2 - r.2.1)).map fun x => r.1 * stripsAcross + x

/-- Where a strip's band sits in the producer table; a band outside it comes last. -/
def ellaRank (g : Geometry) (s : List UInt8) : ℕ :=
  let band := (stripY s >>> UInt16.ofNat g.stripHShift).toUInt8
  (ellaRows1080p.findIdx? (· == band.toNat)).getD (2 ^ 64 - 1)

/-- The key the DL-3x00 order sorts by, compared lexicographically. -/
def ellaKey (g : Geometry) (s : List UInt8) : ℕ × UInt16 := (ellaRank g s, stripX s)

def keyLe (a b : ℕ × UInt16) : Bool := a.1 < b.1 || (a.1 == b.1 && a.2 ≤ b.2)

/-- One round of the insertion sort: `x` moves down past the greater keys above it.  The list
is the sorted part, last element first. -/
def sinkDown (le : ℕ → ℕ → Bool) (x : ℕ) : List ℕ → List ℕ
  | [] => [x]
  | l :: p => if le l x then x :: l :: p else l :: sinkDown le x p

def insertionSort (le : ℕ → ℕ → Bool) (idx : List ℕ) : List ℕ :=
  (idx.foldl (fun p x => sinkDown le x p) []).reverse

def stripAt (strips : List (List UInt8)) (n : ℕ) : List UInt8 := strips.getD n []

/-- Whether a strip's band has the parity `pass`. -/
def bandParity (g : Geometry) (s : List UInt8) : UInt16 :=
  (stripY s >>> UInt16.ofNat g.stripHShift) &&& 1

def navarroLayout (g : Geometry) (strips : List (List UInt8)) : Bool :=
  g.interlacedBands && g.stripW == 16 * 8 && strips.length == 3600

def ellaLayout (g : Geometry) : Bool := g.interlacedBands && g.stripW == 8 * 8

/-- The order in which the strips are sent, as indices into the list. -/
def sendOrder (g : Geometry) (strips : List (List UInt8)) (navarroOrdinary : Option Bool) :
    List ℕ :=
  let stripsAcross := if ellaLayout g then 30 else 20
  let whole : ℕ → ℕ × ℕ := fun _ => (0, stripsAcross)
  if navarroLayout g strips && navarroOrdinary == some false then
    runOrder stripsAcross
      (runs (if ellaLayout g then whole else prologueColumns) navarroPrologueRows)
  else if navarroLayout g strips && navarroOrdinary == some true then
    runOrder stripsAcross
      (runs (if ellaLayout g then whole else ordinaryColumns) navarroOrdinaryRows)
  else if ellaLayout g then
    insertionSort
      (fun l r => keyLe (ellaKey g (stripAt strips l)) (ellaKey g (stripAt strips r)))
      (List.range strips.length)
  else if g.interlacedBands then
    ((List.range strips.length).filter fun n => bandParity g (stripAt strips n) == 0) ++
      (List.range strips.length).filter fun n => bandParity g (stripAt strips n) == 1
  else List.range strips.length

/-! ### Records -/

/-- The largest stride of a record. -/
def strideCap : ℕ := 0x0ff0

/-- The producer flushes of the two full-surface orders. -/
def producerBoundary (navarroOrdinary : Option Bool) (i : ℕ) : Bool :=
  match navarroOrdinary with
  | some false => i == 1024 || i == 2048 || i == 2764
  | some true => i == 2032 || i == 2048 || i == 2804
  | none => false

/-- Fill a record: append strips, each behind its length, while they belong to the band, no
producer flush intervenes and the padded stride stays under the cap.  `i` counts the strips
sent, `n` those in this record.  Returns the record and the strips left. -/
def fill (g : Geometry) (navarroOrdinary : Option Bool) (y0 : UInt16) :
    ℕ → ℕ → List UInt8 → List (List UInt8) → Except Errno (List UInt8 × ℕ × List (List UInt8))
  | i, _, record, [] => .ok (record, i, [])
  | i, n, record, s :: rest =>
      if g.bandParityBit && stripY s != y0 then .ok (record, i, s :: rest)
      else if g.interlacedBands && n > 0 && producerBoundary navarroOrdinary i then
        .ok (record, i, s :: rest)
      else
        let projected := record.length + 2 + s.length
        let projectedAligned := (projected + 15) / 16 * 16
        if projectedAligned > strideCap then
          if n > 0 then .ok (record, i, s :: rest) else .error .EOVERFLOW
        else
          fill g navarroOrdinary y0 (i + 1) (n + 1)
            (record ++ u16Bytes (UInt16.ofNat s.length) ++ s) rest

/-- The `sub` of an image record whose first strip has top edge `y0`. -/
def imageSub (g : Geometry) (connector : UInt8) (y0 : UInt16) : UInt16 :=
  let parity := (if g.bandParityBit then 1 else 0) &&& ((y0 >>> UInt16.ofNat g.stripHShift) &&& 1)
  (g.connectorSelector connector).toUInt16 ||| parity <<< 4 ||| g.steadySubBit.toUInt16

/-- Pad a filled record to sixteen bytes and write its header. -/
def finishRecord (sub : UInt16) (record : List UInt8) : List UInt8 :=
  let pad := (16 - record.length % 16) % 16
  recordHeader (record ++ List.replicate pad 0) 4 sub (UInt16.ofNat pad) 0

/-- Frame the strips, in the order given, into records.  Every round frames at least one strip,
so as many rounds as there are strips are enough. -/
def imageRecords (g : Geometry) (connector : UInt8) (navarroOrdinary : Option Bool) :
    ℕ → ℕ → List (List UInt8) → Except Errno (List (List UInt8))
  | _, _, [] => .ok []
  | 0, _, _ :: _ => .ok []
  | fuel + 1, i, s :: rest => do
      let (record, i', rest') ←
        fill g navarroOrdinary (stripY s) i 0 (List.replicate 16 0) (s :: rest)
      let records ← imageRecords g connector navarroOrdinary fuel i' rest'
      return finishRecord (imageSub g connector (stripY s)) record :: records

/-- Collect records into chunks of at most `0x4000` bytes, an allocation boundary only. -/
def packChunks : List UInt8 → List (List UInt8) → List (List UInt8)
  | chunk, [] => if chunk.isEmpty then [] else [chunk]
  | chunk, record :: records =>
      if !chunk.isEmpty && chunk.length + record.length > 0x4000 then
        chunk :: packChunks record records
      else packChunks (chunk ++ record) records

/-- Frame a list of strips into record-aligned chunks. -/
def frameRecordsWithBoundary (g : Geometry) (strips : List (List UInt8)) (connector : UInt8)
    (navarroOrdinary : Option Bool) : Except Errno (List (List UInt8)) := do
  let ordered := (sendOrder g strips navarroOrdinary).map (stripAt strips)
  let records ← imageRecords g connector navarroOrdinary ordered.length 0 ordered
  return packChunks [] records

def frameRecords (g : Geometry) (strips : List (List UInt8)) (connector : UInt8) :
    Except Errno (List (List UInt8)) :=
  frameRecordsWithBoundary g strips connector none

/-- Frame a full live surface with the ordinary producer order; anything but 3600 strips falls
back to the generic order. -/
def frameRecordsNavarroOrdinary (g : Geometry) (strips : List (List UInt8)) (connector : UInt8) :
    Except Errno (List (List UInt8)) :=
  frameRecordsWithBoundary g strips connector (if strips.length = 3600 then some true else none)

end Vino.Haar.Records
