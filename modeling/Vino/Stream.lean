import Vino.Cp.Messages
import Vino.Cp.Seal
import Vino.Lib.Spans
import Vino.VideoArm

/-!
# The Records of a Video Stream

Beside the image, a connector's stream carries records that open it, report on it and delimit its
frames.  Some are sealed with the connector's video key, and all of those but the records of the
cold burst take their block counter from one running counter of the connector.  A record is kept as
a `Piece`: the bytes of a plain one, or the fields and the plaintext of a sealed one.

* `videoArmBurst`, `navarroPrologue`, `streamConfigMessage`, `streamReport`: the builders that
  seal,
* `streamPrefix_contiguous`, `streamReport_contiguous`, `streamConfigMessage_contiguous`: off the cold
  burst, what a builder seals takes the counter from where it was to where it leaves it,
* `spans_videoArmBurst`: the cold burst always takes the same four spans.
-/

namespace Vino.Stream

open Vino.Cp.Messages Vino.Cp.Seal Vino.Haar.Strip Vino.Haar.Transform
open Vino.Haar.Records hiding fill
open Vino.Lib.Bits Vino.Lib.Buffer Vino.Lib.Spans Vino.Profile Vino.VideoArm

/-! ### Pieces -/

/-- A part of a stream. -/
inductive Piece where
  | plain (bytes : List UInt8)
  | enciphered (sub aux : UInt16) (seq : UInt32) (content : List UInt8)
  deriving DecidableEq, Repr

/-- The bytes that go on the wire, under a connector's video key and nonce. -/
def Piece.wire (c : Crypto) (key : Key) (nonce : Nonce) : Piece → List UInt8
  | .plain bytes => bytes
  | .enciphered sub aux seq content => sealVideoArm c key nonce sub aux seq content

/-- The counter values a sealed piece uses. -/
def Piece.span? : Piece → Option Span
  | .plain _ => none
  | .enciphered _ _ seq content => some ⟨seq, blocks content.length⟩

/-- The counter values of the sealed pieces, in order. -/
def spans (pieces : List Piece) : List Span := pieces.filterMap Piece.span?

@[simp]
theorem spans_nil : spans [] = [] := rfl

@[simp]
theorem spans_cons_plain (bytes : List UInt8) (ps : List Piece) :
    spans (.plain bytes :: ps) = spans ps := rfl

@[simp]
theorem spans_cons_enciphered (sub aux : UInt16) (seq : UInt32) (content : List UInt8)
    (ps : List Piece) :
    spans (.enciphered sub aux seq content :: ps) = ⟨seq, blocks content.length⟩ :: spans ps := rfl

@[simp]
theorem spans_append (ps qs : List Piece) : spans (ps ++ qs) = spans ps ++ spans qs :=
  List.filterMap_append

@[simp]
theorem spans_map_plain (frames : List (List UInt8)) : spans (frames.map .plain) = [] := by
  simp [spans, Piece.span?]

/-- Advance a connector's counter by the blocks a message consumes, returning the block the
message starts at. -/
def takeBlocks (sealSeq : UInt32) (len : ℕ) : UInt32 × UInt32 :=
  (sealSeq, sealSeq + UInt32.ofNat (blocks len))

/-- The part of the random source from an offset on, for a builder that draws more than once. -/
def Rng.after (rng : Rng) (off : ℕ) : Rng := fun k => rng (off + k)

/-! ### Records of one stream -/

/-- A whole 32-byte record of kind 2. -/
def videoArmPlainFrame (sub : UInt16) (body : List UInt8) : List UInt8 :=
  copyAt 16 body (recordHeader (List.replicate 32 0) 2 sub 0 0)

def streamAnnounce (sub marker : UInt16) : List UInt8 :=
  videoArmPlainFrame sub (u16Bytes sub ++ u16Bytes marker ++ List.replicate 12 0)

def streamAnnounceMarker : UInt16 := 6

def streamOpen (kind : UInt8) (rng : Rng) : List UInt8 :=
  [0x04, 0x00, 0x08, 0x04, kind, 0x00] ++ fill rng 10

def streamReportModeOnly (header : List UInt8) (rng : Rng) : List UInt8 := header ++ fill rng 6

/-- The slot id of one of a connector's pipe buffers. -/
def navarroPipeSlot (connector : UInt8) (index : UInt16) : UInt16 :=
  connector.toUInt16 * 8 + index

/-- The ring address of one of a connector's pipe buffers. -/
def navarroPipeRing (connector : UInt8) (index : UInt16) : UInt32 :=
  0x6fcc - (navarroPipeSlot connector index).toUInt32 * 0x21c

/-- The body of a report on a quiescent stream. -/
def navarroStreamReportBody : List UInt8 :=
  [0x0052, 0x000a, 1, 1, 0, 64, 64, 16, 16, 16, 16, 16, 16, 16, 32, 32, 32, 1, 1, 1, 16, 16, 4, 16,
    16, 4, 32, 32, 8, 1, 1, 1, 32, 32, 2, 32, 32, 2, 64, 64, 4, 0].flatMap u16Bytes

def navarroStreamReport (rng : Rng) : List UInt8 := navarroStreamReportBody ++ fill rng 12

def navarroStreamReportMode (header : List UInt8) (rng : Rng) : List UInt8 :=
  header ++ navarroStreamReportBody ++ fill rng 2

def navarroStreamMarker : List UInt8 :=
  [0x04, 0x00, 0x08, 0x04, 0x05, 0x00, 0x06, 0x00, 0x07, 0x01, 0x08, 0x02, 0x07, 0x00]

/-- One slot record of a pipe descriptor. -/
def navarroSlotRecord (connector : UInt8) (index : UInt16) : List UInt8 :=
  let alloc := (connector.toUInt16 * 6 + index).toUInt32
  u16Bytes 0x002c ++ u16Bytes 0x000e ++ u16Bytes (navarroPipeSlot connector index) ++
    [0x00, 0x10, 0xb4, 0x00, 0x14, 0x00, 0x00, 0x40, 0x01, 0x00, 0x00, 0x00] ++
    u32Bytes (navarroPipeRing connector index) ++ [0, 0] ++
    u32Bytes (0x71fb9000 - alloc * 0x5000) ++ [0, 0, 0, 0] ++
    u32Bytes (0x72166000 - alloc * 0x8000) ++
    [0x00, 0x00, 0x00, 0x00, 0x00, 0x50, 0x00, 0x80, 0x01, 0x09]

/-- The marker twice, then the connector's six slots. -/
def navarroPipeDescriptor (connector : UInt8) : List UInt8 :=
  navarroStreamMarker ++ navarroStreamMarker ++
    ([0, 1, 2, 3, 4, 5] : List UInt16).flatMap (navarroSlotRecord connector)

/-! ### Openings -/

/-- Round up to whole units, saturating. -/
def padU16 (value : UInt16) (unit : ℕ) : UInt16 :=
  let unit := max unit 1
  UInt16.ofNat (min ((value.toNat + unit - 1) / unit * unit) 65535)

/-- The mode header of the padded surface. -/
def streamModeHeader (d : Dock) (width height : UInt16) : List UInt8 :=
  modeHeader (padU16 width d.geometry.stripW) (padU16 height d.geometry.stripH)
    d.profile.protocol.layoutWord d.tenBit

/-- The cold burst: sub, auxiliary value and body length of each record. -/
def videoArmBurstTable : List (UInt16 × UInt16 × ℕ) :=
  [(0x0008, 0x0000, 16), (0x0018, 0x0000, 16), (0x0008, 0x000a, 16), (0x0018, 0x000a, 16),
    (0x0000, 0x0000, 16), (0x0010, 0x0000, 16), (0x0000, 0x0004, 16), (0x0010, 0x0004, 16),
    (0x0008, 0x000e, 1104), (0x0018, 0x000e, 1104)]

def videoArmPlaintextBody (i : ℕ) (h : UInt16) : List UInt8 :=
  padTo 16 (match i with
    | 0 => u16Bytes (0x0008 + h) ++ u16Bytes 0x0006
    | 1 => u16Bytes (0x0008 + h) ++ u16Bytes 0x0016
    | 4 => u16Bytes h
    | 5 => u16Bytes h ++ u16Bytes 0x0010
    | _ => [])

/-- The unsealed record of kind 4 in the cold burst. -/
def videoArmFixedFrame (sub aux : UInt16) : List UInt8 :=
  [0, 0] ++ u16Bytes 0x001c ++ u32Bytes 4 ++ u16Bytes sub ++ u16Bytes aux ++ [0, 0, 0, 0] ++
    [0x0a, 0x00, 0x04, 0x00, 0, 0, 0, 0, 0, 0, 0, 0x10, 0, 0, 0, 0]

/-- The record at an index of the cold burst, sealed at `sealSeq` where it is sealed, and the
blocks the burst counts for it. -/
def videoArmRecord (d : Dock) (head : UInt8) (header : List UInt8) (rng : Rng) (sealSeq : UInt32)
    (index : ℕ) (entry : UInt16 × UInt16 × ℕ) : Piece × UInt32 :=
  let sub := entry.1 + head.toUInt16
  let aux := entry.2.1
  if index = 2 ∨ index = 3 then
    (.enciphered sub aux sealSeq
      (streamOpen d.profile.protocol.streamMarkerKind (Rng.after rng (16 * index))), 1)
  else if index = 6 ∨ index = 7 then (.plain (videoArmFixedFrame sub aux), 0)
  else if index = 8 ∨ index = 9 then
    (.enciphered sub aux sealSeq
      (buildConfig d.profile.protocol.codeTables header (fill (Rng.after rng (16 * index)) 14)
        d.tenBit),
      UInt32.ofNat (entry.2.2 / 16))
  else (.plain (videoArmPlainFrame sub (videoArmPlaintextBody index head.toUInt16)), 0)

/-- The records of the burst from an index on. -/
def videoArmRecords (d : Dock) (head : UInt8) (header : List UInt8) (rng : Rng) :
    UInt32 → ℕ → List (UInt16 × UInt16 × ℕ) → List Piece
  | _, _, [] => []
  | sealSeq, index, entry :: rest =>
      let record := videoArmRecord d head header rng sealSeq index entry
      record.1 :: videoArmRecords d head header rng (sealSeq + record.2) (index + 1) rest

/-- The cold burst a stream is armed with.  It counts its blocks from zero. -/
def videoArmBurst (d : Dock) (head : UInt8) (width height : UInt16) (rng : Rng) : List Piece :=
  videoArmRecords d head (streamModeHeader d width height) rng 0 0 videoArmBurstTable

/-- The decoder configuration of a stream. -/
def sealedConfig (d : Dock) (head : UInt8) (sealSeq : UInt32) (aux : UInt16) (tail : List UInt8)
    (width height : UInt16) : Piece × UInt32 :=
  let config := buildConfig d.profile.protocol.codeTables (streamModeHeader d width height) tail
    d.tenBit
  let (seq, sealSeq) := takeBlocks sealSeq config.length
  (.enciphered (d.geometry.streamId head) aux seq config, sealSeq)

/-- The unsealed ring record of the DL7400 prologue. -/
def navarroRing (frameSub : UInt16) (head : UInt8) : List UInt8 :=
  [0, 0] ++ u16Bytes 0x001c ++ u32Bytes 4 ++ u16Bytes frameSub ++ u16Bytes 0x0004 ++ [0, 0, 0, 0] ++
    [0x0a, 0x00, 0x04, frameSub.toUInt8, 0, 0] ++ u32Bytes (navarroPipeRing head 0) ++
    u32Bytes (navarroPipeRing head 4) ++ [0, 0]

/-- The DL7400 prologue: two announcements, the sealed pipe descriptor, the frame announcement,
the ring record, the sealed configuration. -/
def navarroPrologue (d : Dock) (head : UInt8) (sealSeq : UInt32) (width height : UInt16)
    (rng : Rng) : List Piece × UInt32 :=
  let stream := d.geometry.streamId head
  let frameSub := (d.geometry.connectorSelector head).toUInt16
  let descriptor := navarroPipeDescriptor head
  let (seq, sealSeq) := takeBlocks sealSeq descriptor.length
  let (config, sealSeq) := sealedConfig d head sealSeq 0x000e (fill rng 14) width height
  ([.plain (streamAnnounce stream streamAnnounceMarker),
    .plain (streamAnnounce (stream ||| 0x0010) streamAnnounceMarker),
    .enciphered stream 0x0000 seq descriptor, .plain (streamAnnounce frameSub 0),
    .plain (navarroRing frameSub head), config], sealSeq)

/-- The records that open a connector's stream, ahead of its first frame after a mode set. -/
def streamPrefix (d : Dock) (head : UInt8) (sealSeq : UInt32) (width height : UInt16) (rng : Rng) :
    List Piece × UInt32 :=
  if d.armBurst then (videoArmBurst d head width height rng, sealSeq)
  else if d.videoOnCtrlPipe then ([], sealSeq)
  else navarroPrologue d head sealSeq width height rng

/-- The sealed report a connector owes its stream for one frame. -/
def streamReport (d : Dock) (head : UInt8) (sealSeq : UInt32) (width height : UInt16)
    (restateMode : Bool) (rng : Rng) : Option Piece × UInt32 :=
  if d.armBurst then (none, sealSeq)
  else
    let header := streamModeHeader d width height
    let report : Option (UInt16 × List UInt8) := match restateMode, d.videoOnCtrlPipe with
      | true, true => some (0x0006, streamReportModeOnly header rng)
      | true, false => some (0x0002, navarroStreamReportMode header rng)
      | false, true => none
      | false, false => some (0x000c, navarroStreamReport rng)
    match report with
    | none => (none, sealSeq)
    | some (aux, content) =>
        let (seq, sealSeq) := takeBlocks sealSeq content.length
        (some (.enciphered (d.geometry.streamId head) aux seq content), sealSeq)

/-- The header of a DL-3x00 record that carries no image. -/
def ellaRecord (g : Geometry) (connector : UInt8) (aux : UInt16) (body : List UInt8) :
    List UInt8 :=
  copyAt 16 body
    (recordHeader (List.replicate 48 0) 4 (g.connectorSelector connector).toUInt16 aux 0)

/-- Two ring descriptors naming slot 0. -/
def ellaStreamOpen (g : Geometry) (connector : UInt8) : List UInt8 :=
  ellaRecord g connector 0x0008
    (u16Bytes 10 ++ [0x04, 0, 0, 0, 0, 0, 0, 0, 0, 2] ++ u16Bytes 10 ++ [0x04])

/-- The unsealed ring descriptor a shared-pipe dock's stream opens with. -/
def streamRingRecord (d : Dock) (head : UInt8) : Option (List UInt8) :=
  if d.videoOnCtrlPipe then some (ellaStreamOpen d.geometry head) else none

/-- The sealed configuration behind it. -/
def streamConfigMessage (d : Dock) (head : UInt8) (sealSeq : UInt32) (width height : UInt16) :
    Option Piece × UInt32 :=
  if d.videoOnCtrlPipe then
    let (config, sealSeq) := sealedConfig d head sealSeq 0x0000 [] width height
    (some config, sealSeq)
  else (none, sealSeq)

/-! ### Frames -/

/-- The ring slot a frame writes, and the one it writes next. -/
def ringPhase (seq0 : UInt32) : UInt8 × UInt8 :=
  let phase := (seq0 % 3).toUInt8 * 2
  (phase, (phase + 2) % 6)

/-- A 32-byte record of kind 4. -/
def slotRecord (sub aux : UInt16) (body : List UInt8) : List UInt8 :=
  copyAt 16 body (recordHeader (List.replicate 32 0) 4 sub aux 0)

/-- The record that opens a DL7400 frame. -/
def navarroFrameOpener (g : Geometry) (connector : UInt8) (seq0 : UInt32) : List UInt8 :=
  let phase := (ringPhase seq0).1
  let prevPhase := (phase + 4) % 6
  slotRecord (g.connectorSelector connector).toUInt16 0x0004
    ([0x0a, 0x00, 0x04, (navarroPipeSlot connector phase.toUInt16).toUInt8, 0, 0] ++
      u16Bytes (navarroPipeRing connector phase.toUInt16).toUInt16 ++ [0, 0] ++
      u16Bytes (navarroPipeRing connector prevPhase.toUInt16).toUInt16)

/-- The record that closes a DL-3x00 frame: the slot it filled, and the next. -/
def ellaFrameClose (g : Geometry) (connector : UInt8) (seq0 : UInt32) : List UInt8 :=
  let cur := (seq0 % 3).toUInt8
  let next := ((seq0 + 1) % 3).toUInt8
  let seq := (seq0 % 256).toUInt8
  ellaRecord g connector 0x000a
    (u16Bytes 8 ++ [0x05, cur, 0, 0, 0, cur, 0x01, seq + 1] ++ u16Bytes 10 ++
      [0x04, next, 0, 0, 0, next, 0, 0, 0, cur])

/-- The record that closes a DL7400 frame. -/
def navarroFrameTrailer (g : Geometry) (connector : UInt8) (seq0 : UInt32) : List UInt8 :=
  let phase := (ringPhase seq0).1
  slotRecord (g.connectorSelector connector).toUInt16 0x0006
    ([0x08, 0x00, 0x05, (navarroPipeSlot connector phase.toUInt16).toUInt8, 0, 0] ++
      u16Bytes (navarroPipeRing connector phase.toUInt16).toUInt16 ++ [0, seq0.toUInt8 + 1])

/-- The three records that close a frame on a dock with a cold burst. -/
def armFrameTrailer (g : Geometry) (connector : UInt8) (seq0 : UInt32) : List UInt8 :=
  let (phase, nextPhase) := ringPhase seq0
  let h := g.connectorSelector connector
  let next := [0x0a, 0, 0x04, nextPhase, 0, 0, 0, nextPhase * 4, 0, 0, 0, phase * 4]
  slotRecord h.toUInt16 0x0006
      [0x08, 0, 0x05, phase, 0, 0, 0, phase * 4, 0, seq0.toUInt8 + 1] ++
    slotRecord h.toUInt16 0x0004 next ++ slotRecord (h ||| 0x10).toUInt16 0x0004 next

/-- The records that close a frame, in the dock's format. -/
def frameTrailer (d : Dock) (head : UInt8) (seq : UInt32) : List UInt8 :=
  if d.videoOnCtrlPipe then ellaFrameClose d.geometry head seq
  else if d.armBurst then armFrameTrailer d.geometry head seq
  else navarroFrameTrailer d.geometry head seq

/-- The record that opens a frame, if the dock uses one. -/
def frameOpener (d : Dock) (head : UInt8) (seq : UInt32) : Option (List UInt8) :=
  if d.armBurst ∨ d.videoOnCtrlPipe then none else some (navarroFrameOpener d.geometry head seq)

/-- The stream of one frame: what opens the stream, the opener, the report, the image, the
trailer. -/
def prefixFrame (d : Dock) (opening report : List Piece) (frames : List (List UInt8))
    (head : UInt8) (seq : UInt32) : List Piece :=
  opening ++ [.plain ((frameOpener d head seq).getD [])] ++ report ++ frames.map .plain ++
    [.plain (frameTrailer d head seq)]

/-- The bytes of a stream, cut into transfers. -/
def transfers (c : Crypto) (key : Key) (nonce : Nonce) (pieces : List Piece) : List (List UInt8) :=
  (pieces.flatMap (Piece.wire c key nonce)).toChunks 65536

/-- A block of zero coefficients. -/
def blackBlock : ColourBlock where
  qcr := fun _ => 0
  qcb := fun _ => 0
  qy := fun _ => 0
  lcr := 0
  lcb := 0
  ly := 0

/-- An all-black frame, the carrier behind a mode set. -/
def blackFrameEp08 (g : Geometry) (width height : ℕ) (connector : UInt8) :
    Except Errno (List (List UInt8)) :=
  if width % g.stripW ≠ 0 ∨ height % g.stripH ≠ 0 then .error .EINVAL
  else
    let strips := (List.range (height / g.stripH)).flatMap fun ty =>
      (List.range (width / g.stripW)).map fun tx =>
        colourStrip g (List.replicate 16 blackBlock) (UInt16.ofNat (tx * g.stripW))
          (UInt16.ofNat (ty * g.stripH))
    frameRecordsWithBoundary g strips connector (some false)

/-! ### The counter values the builders use -/

section Counters

variable (d : Dock) (head : UInt8) (sealSeq : UInt32) (width height : UInt16) (rng : Rng)

/-- What delimits a frame is plain. -/
theorem spans_prefixFrame (opening report : List Piece) (frames : List (List UInt8))
    (seq : UInt32) : spans (prefixFrame d opening report frames head seq) =
      spans opening ++ spans report := by
  simp [prefixFrame]

theorem sealedConfig_contiguous (aux : UInt16) (tail : List UInt8) :
    Contiguous sealSeq (sealedConfig d head sealSeq aux tail width height).2
      (spans [(sealedConfig d head sealSeq aux tail width height).1]) :=
  ⟨rfl, rfl⟩

theorem navarroPrologue_contiguous :
    Contiguous sealSeq (navarroPrologue d head sealSeq width height rng).2
      (spans (navarroPrologue d head sealSeq width height rng).1) :=
  ⟨rfl, rfl, rfl⟩

/-- **Off the cold burst, an opening continues the connector's counter.** -/
theorem streamPrefix_contiguous (h : d.armBurst = false) :
    Contiguous sealSeq (streamPrefix d head sealSeq width height rng).2
      (spans (streamPrefix d head sealSeq width height rng).1) := by
  unfold streamPrefix
  rw [if_neg (by simp [h])]
  split_ifs
  · rfl
  · exact navarroPrologue_contiguous d head sealSeq width height rng

theorem streamReport_contiguous (restateMode : Bool) :
    Contiguous sealSeq (streamReport d head sealSeq width height restateMode rng).2
      (spans (streamReport d head sealSeq width height restateMode rng).1.toList) := by
  unfold streamReport
  split_ifs
  · rfl
  · dsimp only
    split
    · rfl
    · exact ⟨rfl, rfl⟩

theorem streamConfigMessage_contiguous :
    Contiguous sealSeq (streamConfigMessage d head sealSeq width height).2
      (spans (streamConfigMessage d head sealSeq width height).1.toList) := by
  unfold streamConfigMessage
  split_ifs
  · exact sealedConfig_contiguous d head sealSeq width height 0x0000 []
  · rfl

/-- **The cold burst takes the same spans whenever it is built.** -/
theorem spans_videoArmBurst (hwide : d.profile.protocol.codeTables = .wide)
    (hten : d.tenBit = false) :
    spans (videoArmBurst d head width height rng) = [⟨0, 1⟩, ⟨1, 1⟩, ⟨2, 69⟩, ⟨71, 69⟩] := by
  have hopen : ∀ off, (streamOpen d.profile.protocol.streamMarkerKind (Rng.after rng off)).length =
      16 := fun off => by simp [streamOpen]
  have hconfig : ∀ off, (buildConfig d.profile.protocol.codeTables
      (streamModeHeader d width height) (fill (Rng.after rng off) 14) d.tenBit).length = 1104 := by
    intro off
    rw [hwide, hten, length_buildConfig_wide]
    simp [streamModeHeader]
  simp [videoArmBurst, videoArmBurstTable, videoArmRecords, videoArmRecord, hopen, hconfig, blocks]

end Counters

end Vino.Stream
