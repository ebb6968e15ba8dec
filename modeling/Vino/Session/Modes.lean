import Vino.Session.Edid

/-!
# Modes and Pictures

Programming a mode is a fixed sequence of control messages with the first frames of the stream in
its second half: the opening, then flat carrier frames.  `presentRgb` sends what the scanout ledger
asks for, `deactivateMode` takes a sink down.  On a dock that reconfigures itself whole a single
connector is declined while another is lit, and `activateModes` programs the whole set from dark.
-/

namespace Vino.Session

open Vino.Cp.Messages Vino.Lib.Effect Vino.Profile Vino.Scanout Vino.Stream
open Vino.Haar.Records hiding fill

/-! ### The video stream -/

/-- One attempt to write a video frame; a head without an endpoint is refused before it. -/
def writeVideoFrame (head : UInt8) (pieces : List Piece) : SessionM (Option UsbError) := do
  let w ← get
  if w.connectors.val ≤ head.toNat then return some .disconnected
  else do
    let a ← ask
    record (.video head pieces a.write)
    return a.write

/-- Submit a frame, offered once more when the endpoint times out. -/
def submitVideo (head : UInt8) (pieces : List Piece) : SessionM Unit := do
  let error ← writeVideoFrame head pieces
  match error with
  | none => pure ()
  | some .timeout => do
      let again ← writeVideoFrame head pieces
      check again (.submit head)
  | some e => throw (.submit head e)

/-- Write a whole record to the control endpoint as it is. -/
def sendPlainVideo (head : UInt8) (piece : Piece) : SessionM Unit := do
  let a ← ask
  record (.prologue head piece a.write)
  check a.write (.prologue head)

/-- Put a connector's counter behind what a builder sealed, and record that. -/
def World.sealed (w : World) (head : UInt8) (i : Connector) (pieces : List Piece)
    (sealSeq : UInt32) : World :=
  { w with videoSealSeq := Function.update w.videoSealSeq i sealSeq }.log
    (.enciphered head pieces)

/-- Run a builder at a connector's counter. -/
def sealing (head : UInt8) (i : Connector) (build : UInt32 → Rng → List Piece × UInt32) :
    SessionM (List Piece) := do
  let w ← get
  let a ← ask
  let built := build (w.videoSealSeq i) a.random
  modifyThe World fun w => w.sealed head i built.1 built.2
  return built.1

/-- A restatement that was built is no longer owed. -/
def settleRestate (i : Connector) (restate : Bool) (report : List Piece) : SessionM Unit :=
  if restate ∧ report ≠ [] then
    modifyThe World fun w => { w with modeRestateOwed := Function.update w.modeRestateOwed i false }
  else pure ()

/-- The report a head owes its stream for the frame it is about to send. -/
def frameReport (head : UInt8) (i : Connector) (mode : UInt16 × UInt16) :
    SessionM (List Piece) := do
  let w ← get
  -- A shared-pipe dock is sent the restatement with the third frame of the stream.
  if w.modeRestateOwed i ∧ w.dock.videoOnCtrlPipe ∧ w.frameSeq i < 2 then return []
  else do
    let report ← sealing head i fun sealSeq rng =>
      let (report, sealSeq) :=
        streamReport w.dock head sealSeq mode.1 mode.2 (w.modeRestateOwed i) rng
      (report.toList, sealSeq)
    settleRestate i (w.modeRestateOwed i) report
    return report

/-- The stream prologue of a shared-pipe dock: the ring descriptor, then the sealed decoder
configuration. -/
def sendStreamPrologue (head : UInt8) (i : Connector) (width height : UInt16) :
    SessionM Unit := do
  let w ← get
  match streamRingRecord w.dock head with
  | none => pure ()
  | some ring => do
      sendPlainVideo head (.plain ring)
      let config ← sealing head i fun sealSeq _ =>
        let (config, sealSeq) := streamConfigMessage w.dock head sealSeq width height
        (config.toList, sealSeq)
      config.forM (sendPlainVideo head)

/-! ### Programming a mode -/

/-- The surface size rounded up to whole strips. -/
def padded (d : Dock) (width height : ℕ) : ℕ × ℕ :=
  let (stripW, stripH) := d.stripDims
  ((width + stripW - 1) / stripW * stripW, (height + stripH - 1) / stripH * stripH)

/-- A value or the error of a builder. -/
def built {α : Type} (label : String) : Except Errno α → SessionM α
  | .error e => throw (.build label e)
  | .ok a => pure a

/-- The marker some docks want ahead of the timing. -/
def sendPreMode (head : UInt8) : SessionM Unit := do
  let w ← get
  match w.dock.profile.protocol.preModeSinkState with
  | none => pure ()
  | some state => sendMarker head 0x2e state

/-- Tear the pipe down first, on a dock that wants it. -/
def sendClearMode (head : UInt8) : SessionM Unit := do
  let w ← get
  if w.dock.profile.protocol.clearModeBeforeSet then do
    let _ ← sendBuilt "clear mode" 0x48 fun counter rng => .ok (clearMode counter head rng)
    pure ()
  else pure ()

/-- The bracket up to the timing. -/
def openBracket (head : UInt8) (mode : List UInt8) : SessionM Unit := do
  sendMarker head 0x2f 1
  sendPreMode head
  pollStatus
  sendClearMode head
  let _ ← sendControl 0x48 mode
  pollStatus

/-- A bracket that is no longer being paced is abandoned. -/
def checkPace : SessionM Unit := do
  let a ← ask
  if a.expired then throw (.refused "activation bracket overran") else pure ()

/-- The bracket from the timing to the first video, with the prologue between the fourth marker
and the fifth. -/
def trainBracket (head : UInt8) (i : Connector) (width height : UInt16) : SessionM Unit := do
  let w ← get
  sendMarker head 0x2f 1
  sendMarker head 0x2e w.dock.profile.protocol.postModeSinkStates.1
  sendMarker head 0x2f 1
  sendMarker head 0x2e w.dock.profile.protocol.postModeSinkStates.2
  sendStreamPrologue head i width height
  sendMarker head 0x2f 1
  pollStatus
  sendMarker head 0x2e 0
  pollStatus
  pollStatus
  pollStatus
  checkPace

def sendCommit (head : UInt8) : SessionM Unit := do
  let _ ← sendBuilt "stream commit" 0x16 fun counter rng => .ok (streamCommit counter head rng)

/-- The closing markers, which a shared-pipe dock is not sent. -/
def closeBracket (head : UInt8) : SessionM Unit := do
  let w ← get
  if w.dock.videoOnCtrlPipe then pure ()
  else do
    sendMarker head 0x2f 0
    sendMarker head 0x2e 0

/-- The sequence of a connector's next frame. -/
def setFrameSeq (i : Connector) (seq : UInt32) : SessionM Unit :=
  modifyThe World fun w => { w with frameSeq := Function.update w.frameSeq i seq }

/-- `n` flat carrier frames behind the one numbered `seq`; returns the last number. -/
def carriers (d : Dock) (head : UInt8) (i : Connector) (mode : UInt16 × UInt16)
    (prompt : List (List UInt8)) : ℕ → UInt32 → SessionM UInt32
  | 0, seq => pure seq
  | n + 1, seq => do
      let report ← frameReport head i mode
      submitVideo head (prefixFrame d.toOpening [] report prompt head (seq + 1))
      setFrameSeq i (seq + 1)
      pollIfDue
      carriers d head i mode prompt n (seq + 1)

/-- The carrier frames a dock states, or as many as fit its window. -/
def carrierCount (d : Dock) : SessionM ℕ := do
  let a ← ask
  return d.carrierFrames.getD a.rounds

/-- The mode is programmed; the first frame of its stream has number 0. -/
def World.programmed (w : World) (i : Connector) (mode : UInt16 × UInt16) : World :=
  { w with
    programmedMode := Function.update w.programmedMode i mode
    modeRestateOwed := Function.update w.modeRestateOwed i true
    frameSeq := Function.update w.frameSeq i 0 }

/-- The connector is lit, and owes its stream a keyframe. -/
def World.lit (w : World) (i : Connector) (seq : UInt32) : World :=
  { w with
    frameSeq := Function.update w.frameSeq i seq
    modeActive := Function.update w.modeActive i true
    scanout := Function.update w.scanout i (w.scanout i).oweKeyframe }

/-- The stream behind the bracket: its opening, the commits, the carrier. -/
def startStream (head : UInt8) (i : Connector) (mode : UInt16 × UInt16) (opening : List Piece)
    (prompt : List (List UInt8)) : SessionM Unit := do
  modifyThe World fun w => w.programmed i mode
  let w ← get
  submitVideo head (prefixFrame w.dock.toOpening opening [] prompt head 0)
  sendCommit head
  sendCommit head
  closeBracket head
  let n ← carrierCount w.dock
  let seq ← carriers w.dock head i mode prompt n 0
  modifyThe World fun w => w.lit i (seq + 1)
  rearmCursor head

/-- Program a mode of the wire format on a connector. -/
def programConnector (head : UInt8) (i : Connector) (width height refreshHz : UInt16) :
    SessionM Unit := do
  let w ← get
  let prompt ← built "black training frame"
    (blackFrameEp08 w.dock.toOpening.geometry (padded w.dock width.toNat height.toNat).1
      (padded w.dock width.toNat height.toNat).2 head)
  let opening ← sealing head i fun sealSeq rng =>
    streamPrefix w.dock head sealSeq width height rng
  -- The message is built here, ahead of the markers that go out before it.
  let a ← ask
  let mode ← built "mode profile"
    (setModeProfile w.dock w.innerCounter head width height refreshHz a.random)
  openBracket head mode
  trainBracket head i width height
  startStream head i (width, height) opening prompt

/-- Program one connector's mode, with no regard for what else the dock drives. -/
def programMode (head : UInt8) (width height refreshHz : ℕ) : SessionM Bool :=
  if 65535 < width then throw (.refused "mode width exceeds the wire format")
  else if 65535 < height then throw (.refused "mode height exceeds the wire format")
  else if 65535 < refreshHz then throw (.refused "refresh rate exceeds the wire format")
  else
    match connector? head with
    | none => throw (.refused "invalid Vino head")
    | some i => do
        programConnector head i (UInt16.ofNat width) (UInt16.ofNat height) (UInt16.ofNat refreshHz)
        return true

/-! ### Programming, cut at the set-mode message -/

/-- Program a mode up to its set-mode message; returns what comes behind it. -/
def approachMode (head : UInt8) (i : Connector) (width height refreshHz : UInt16) :
    SessionM (List (List UInt8) × List Piece × List UInt8) := do
  let w ← get
  let prompt ← built "black training frame"
    (blackFrameEp08 w.dock.toOpening.geometry (padded w.dock width.toNat height.toNat).1
      (padded w.dock width.toNat height.toNat).2 head)
  let opening ← sealing head i fun sealSeq rng =>
    streamPrefix w.dock head sealSeq width height rng
  let a ← ask
  let mode ← built "mode profile"
    (setModeProfile w.dock w.innerCounter head width height refreshHz a.random)
  sendMarker head 0x2f 1
  sendPreMode head
  pollStatus
  sendClearMode head
  return (prompt, opening, mode)

/-- Send the set-mode message and start the stream behind it. -/
def commitMode (head : UInt8) (i : Connector) (width height : UInt16)
    (prepared : List (List UInt8) × List Piece × List UInt8) : SessionM Unit := do
  let _ ← sendControl 0x48 prepared.2.2
  pollStatus
  trainBracket head i width height
  startStream head i (width, height) prepared.2.1 prepared.1

/-- **Programming is the approach and then the set-mode message.** -/
theorem programConnector_eq (head : UInt8) (i : Connector) (width height refreshHz : UInt16) :
    programConnector head i width height refreshHz =
      approachMode head i width height refreshHz >>= commitMode head i width height := by
  simp [programConnector, approachMode, commitMode, openBracket]

/-! ### Presenting -/

/-- Present a frame `n` times, with consecutive sequence numbers from `seq` on. -/
def presentations (d : Dock) (head : UInt8) (i : Connector) (mode : UInt16 × UInt16)
    (records : List (List UInt8)) : ℕ → UInt32 → SessionM Unit
  | 0, _ => pure ()
  | n + 1, seq => do
      let report ← frameReport head i mode
      submitVideo head (prefixFrame d [] report records head seq)
      presentations d head i mode records n (seq + 1)

def setScanout (i : Connector) (s : HeadScanout) : SessionM Unit :=
  modifyThe World fun w => { w with scanout := Function.update w.scanout i s }

/-- Send a frame as often as it asks for, and publish it. -/
def sendFrame (head : UInt8) (i : Connector) (plan : Plan) (frame : Frame) : SessionM Unit := do
  let w ← get
  presentations w.dock head i (w.programmedMode i) frame.records frame.presentations (w.frameSeq i)
  setFrameSeq i (w.frameSeq i + UInt32.ofNat frame.presentations)
  -- Published only now: every failure above leaves the previous state for the next frame to repair.
  modifyThe World fun w =>
    { w with scanout := Function.update w.scanout i ((w.scanout i).presented plan) }

/-- Encode and present one padded frame, sending only what the dock still needs. -/
def presentRgb (head : UInt8) (width height : ℕ) (rgb : List UInt8) : SessionM Unit := do
  let w ← get
  if h : head.toNat < w.connectors.val then do
    let i : Connector := ⟨head.toNat, h.trans_le (Nat.lt_succ_iff.1 w.connectors.2)⟩
    let a ← ask
    let planned := (w.scanout i).plan width height rgb
    let encoded := planned.1.encode planned.2 rgb head a.fault
    setScanout i encoded.1
    let frame ← built "video frame" encoded.2
    match frame with
    | none => pollStatus
    | some frame => do
        sendFrame head i planned.2 frame
        pollStatus
  else throw (.refused "invalid Vino head")

/-! ### Taking a sink down -/

/-- Present a black frame until the deadline, `n` rounds later. -/
def blankRounds (head : UInt8) (black : List Piece) : ℕ → SessionM Unit
  | 0 => pure ()
  | n + 1 => do
      submitVideo head black
      pollIfDue
      blankRounds head black n

/-- The connector is dark, and its shadow no longer holds. -/
def World.darkened (w : World) (head : UInt8) : World :=
  match connector? head with
  | none => w
  | some i =>
      { w with
        scanout := Function.update w.scanout i (w.scanout i).oweKeyframe
        modeActive := Function.update w.modeActive i false }

/-- Close the stream with black frames and take the sink down behind them. -/
def blackThenClose (d : Dock) (head : UInt8) (width height : ℕ) : SessionM Unit := do
  let black ← built "black shutdown frame"
    (blackFrameEp08 d.geometry (padded d width height).1 (padded d width height).2 head)
  let a ← ask
  blankRounds head (black.map .plain) a.rounds
  sendMarker head 0x2f 0
  sendMarker head 0x2e 0
  sendMarker head 0x2f 1
  sendMarker head 0x2e d.profile.protocol.sinkDownState
  pollStatus
  sendMarker head 0x2f 0

/-- Blank and close a head's stream. -/
def deactivateMode (head : UInt8) (width height : ℕ) : SessionM Unit := do
  modifyThe World fun w => w.darkened head
  let w ← get
  if w.dock.blankHoldsBracket then do
    sendMarker head 0x2f 1
    sendMarker head 0x2e w.dock.profile.protocol.sinkDownState
  else blackThenClose w.dock head width height

/-! ### Activation -/

/-- The connector number of an index. -/
def headOf (i : Connector) : UInt8 := UInt8.ofNat i

/-- Take a connector down if it is lit. -/
def darken (i : Connector) : SessionM Unit := do
  let w ← get
  if w.modeActive i then
    deactivateMode (headOf i) (w.programmedMode i).1.toNat (w.programmedMode i).2.toNat
  else pure ()

/-- A mode for a head: its size and refresh rate. -/
structure Request where
  head : UInt8
  width : ℕ
  height : ℕ
  refreshHz : ℕ
  deriving DecidableEq, Repr

/-- Program every connector the dock should be driving, from dark. -/
def activateModes (requests : List Request) : SessionM Unit := do
  (List.finRange maxConnectors).forM darken
  requests.forM fun r => do
    let _ ← programMode r.head r.width r.height r.refreshHz

/-- On a dock that reconfigures itself whole, another connector is lit. -/
def declined (w : World) (head : UInt8) : Bool :=
  w.dock.dockWideModeset &&
    (List.finRange maxConnectors).any fun i => w.modeActive i && i.val != head.toNat

/-- Program one connector's mode; `false` when the dock declined it. -/
def activateMode (head : UInt8) (width height refreshHz : ℕ) : SessionM Bool := do
  let w ← get
  if declined w head then return false else programMode head width height refreshHz

/-- Whether a head still owes strip retransmissions. -/
def owesRepaint (w : World) (head : UInt8) : Bool :=
  (connector? head).any fun i => (w.scanout i).owesRetransmission

/-- A mode that is one of the known timings, for a head there is. -/
def Request.Supported (r : Request) : Prop :=
  r.width ≤ 65535 ∧ r.height ≤ 65535 ∧ r.refreshHz ≤ 65535 ∧ (connector? r.head).isSome ∧
    (knownMode (UInt16.ofNat r.width) (UInt16.ofNat r.height) (UInt16.ofNat r.refreshHz)).isSome

instance (r : Request) : Decidable r.Supported := by
  unfold Request.Supported
  infer_instance

/-! ### What the operations keep -/

/-- An invariant that the stream of a head keeps beside the control channel: its transfers, its
counters and the marks of what it still owes. -/
structure Flows (head : UInt8) (i : Connector) (I R : World → Prop) : Prop extends Wire I R where
  submit : ∀ pieces, Keeps I R (submitVideo head pieces)
  plain : ∀ piece, Keeps I R (sendPlainVideo head piece)
  sealed : ∀ w pieces seq, I w → I (w.sealed head i pieces seq)
  restated : ∀ w, I w → I { w with modeRestateOwed := Function.update w.modeRestateOwed i false }
  frameSeq : ∀ w seq, I w → I { w with frameSeq := Function.update w.frameSeq i seq }

section Transfers

variable {I R : World → Prop} {head : UInt8}

theorem keeps_writeVideoFrame (htick : ∀ w, I w → I w.tick) {pieces : List Piece}
    (hlog : ∀ w error, I w → I (w.log (.video head pieces error))) :
    Keeps I R (writeVideoFrame head pieces) := by
  refine Keeps.get.bind fun w => ?_
  split_ifs
  · exact Keeps.pure _
  · refine Keeps.bind (triple_ask htick) fun a => ?_
    exact Keeps.bind (Keeps.modify fun w hw => hlog w a.write hw) fun _ => Keeps.pure _

theorem keeps_submitVideo (htick : ∀ w, I w → I w.tick) (hweaken : ∀ w, I w → R w)
    {pieces : List Piece} (hlog : ∀ w error, I w → I (w.log (.video head pieces error))) :
    Keeps I R (submitVideo head pieces) := by
  refine (keeps_writeVideoFrame htick hlog).bind fun error => ?_
  split
  · exact Keeps.pure _
  · exact (keeps_writeVideoFrame htick hlog).bind fun again => keeps_check hweaken again _
  · exact Keeps.throw hweaken _

theorem keeps_sendPlainVideo (htick : ∀ w, I w → I w.tick) (hweaken : ∀ w, I w → R w)
    {piece : Piece} (hlog : ∀ w error, I w → I (w.log (.prologue head piece error))) :
    Keeps I R (sendPlainVideo head piece) := by
  refine Keeps.bind (triple_ask htick) fun a => ?_
  exact Keeps.bind (Keeps.modify fun w hw => hlog w a.write hw) fun _ =>
    keeps_check hweaken a.write _

/-- Sealing returns what the builder built. -/
theorem triple_sealing {i : Connector} (htick : ∀ w, I w → I w.tick)
    (hsealed : ∀ w pieces seq, I w → I (w.sealed head i pieces seq))
    {build : UInt32 → Rng → List Piece × UInt32} :
    Triple I (sealing head i build)
      (fun pieces w => (∃ sealSeq rng, pieces = (build sealSeq rng).1) ∧ I w) R := by
  refine Triple.bind (Q := fun _ => I) (Triple.get fun _ hw => hw) fun w => ?_
  refine Triple.bind (Q := fun _ => I) (triple_ask htick) fun a => ?_
  refine Triple.bind (Q := fun _ => I) (Triple.modify fun w' hw => hsealed w' _ _ hw) fun _ => ?_
  exact Triple.pure fun _ hw => ⟨⟨_, _, rfl⟩, hw⟩

theorem keeps_built {α : Type} (hweaken : ∀ w, I w → R w) (label : String)
    (result : Except Errno α) : Keeps I R (built label result) := by
  cases result with
  | error e => exact Keeps.throw hweaken _
  | ok a => exact Keeps.pure _

end Transfers

section Stream

variable {I R : World → Prop} {head : UInt8} {i : Connector} (h : Flows head i I R)

include h

theorem Flows.sealing (build : UInt32 → Rng → List Piece × UInt32) :
    Keeps I R (sealing head i build) :=
  (triple_sealing h.tick h.sealed).mono (fun _ h => h) (fun _ _ h => h.2) fun _ h => h

theorem Flows.frameReport (mode : UInt16 × UInt16) :
    Keeps I R (frameReport head i mode) := by
  refine Keeps.get.bind fun w => ?_
  split_ifs
  · exact Keeps.pure _
  · refine (h.sealing _).bind fun report => Keeps.bind ?_ fun _ => Keeps.pure _
    unfold settleRestate
    split_ifs
    · exact Keeps.modify fun w hw => h.restated w hw
    · exact Keeps.pure _

theorem Flows.presentations (d : Dock) (mode : UInt16 × UInt16)
    (records : List (List UInt8)) :
    ∀ (n : ℕ) (seq : UInt32), Keeps I R (presentations d head i mode records n seq)
  | 0, _ => Keeps.pure _
  | n + 1, seq => (h.frameReport mode).bind fun _ => (h.submit _).bind fun _ =>
      Flows.presentations d mode records n (seq + 1)

theorem Flows.carriers (d : Dock) (mode : UInt16 × UInt16)
    (prompt : List (List UInt8)) :
    ∀ (n : ℕ) (seq : UInt32), Keeps I R (carriers d head i mode prompt n seq)
  | 0, _ => Keeps.pure _
  | n + 1, seq => by
      refine (h.frameReport mode).bind fun _ => (h.submit _).bind fun _ => ?_
      refine Keeps.bind (Keeps.modify fun w hw => h.frameSeq w (seq + 1) hw) fun _ => ?_
      exact h.pollIfDue.bind fun _ => Flows.carriers d mode prompt n (seq + 1)

theorem Flows.sendStreamPrologue (width height : UInt16) :
    Keeps I R (sendStreamPrologue head i width height) := by
  refine Keeps.get.bind fun w => ?_
  split
  · exact Keeps.pure _
  · refine (h.plain _).bind fun _ => (h.sealing _).bind fun config => ?_
    exact Keeps.forM config fun piece _ => h.plain piece

end Stream

section Bracket

variable {I R : World → Prop} (h : Wire I R)

include h

theorem Wire.sendPreMode (head : UInt8) : Keeps I R (sendPreMode head) := by
  refine Keeps.get.bind fun w => ?_
  split
  · exact Keeps.pure _
  · exact h.sendMarker _ _ _

theorem Wire.sendClearMode (head : UInt8) : Keeps I R (sendClearMode head) := by
  refine Keeps.get.bind fun w => ?_
  split_ifs
  · refine (h.sendOk _ _ fun counter rng => ?_).bind fun _ => Keeps.pure _
    simp only [clearMode, padTo, List.append_assoc]
    exact counterOf_message _ _
  · exact Keeps.pure _

/-- The bracket keeps what its set-mode message keeps. -/
theorem Wire.openBracket (head : UInt8) {mode : List UInt8}
    (hmode : Keeps I R (Session.sendControl 0x48 mode)) : Keeps I R (openBracket head mode) :=
  (h.sendMarker _ _ _).bind fun _ => (h.sendPreMode head).bind fun _ => h.pollStatus.bind fun _ =>
    (h.sendClearMode head).bind fun _ => hmode.bind fun _ => h.pollStatus

theorem Wire.checkPace (hweaken : ∀ w, I w → R w) : Keeps I R checkPace := by
  refine h.ask.bind fun a => ?_
  split_ifs
  · exact Keeps.throw hweaken _
  · exact Keeps.pure _

theorem Wire.trainBracket (hpace : Keeps I R Session.checkPace) (head : UInt8) (i : Connector)
    {width height : UInt16} (hprologue : Keeps I R (sendStreamPrologue head i width height)) :
    Keeps I R (trainBracket head i width height) := by
  refine Keeps.get.bind fun w => (h.sendMarker _ _ _).bind fun _ => ?_
  refine (h.sendMarker _ _ _).bind fun _ => (h.sendMarker _ _ _).bind fun _ => ?_
  refine (h.sendMarker _ _ _).bind fun _ => hprologue.bind fun _ => ?_
  refine (h.sendMarker _ _ _).bind fun _ => h.pollStatus.bind fun _ => ?_
  refine (h.sendMarker _ _ _).bind fun _ => h.pollStatus.bind fun _ => h.pollStatus.bind fun _ => ?_
  exact h.pollStatus.bind fun _ => hpace

theorem Wire.sendCommit (head : UInt8) : Keeps I R (sendCommit head) :=
  (h.sendOk _ _ fun _ _ => counterOf_message' _).bind fun _ => Keeps.pure _

theorem Wire.closeBracket (head : UInt8) : Keeps I R (closeBracket head) := by
  refine Keeps.get.bind fun w => ?_
  split_ifs
  · exact Keeps.pure _
  · exact (h.sendMarker _ _ _).bind fun _ => h.sendMarker _ _ _

theorem Wire.carrierCount (d : Dock) : Keeps I R (carrierCount d) :=
  h.ask.bind fun _ => Keeps.pure _

/-- What goes out behind the black frames. -/
theorem Wire.blackThenClose (hweaken : ∀ w, I w → R w) (d : Dock) (head : UInt8)
    (hsubmit : ∀ frames : List (List UInt8), Keeps I R (submitVideo head (frames.map .plain)))
    (width height : ℕ) : Keeps I R (blackThenClose d head width height) := by
  have hrounds : ∀ (frames : List (List UInt8)) (n : ℕ),
      Keeps I R (blankRounds head (frames.map .plain) n) := by
    intro frames n
    induction n with
    | zero => exact Keeps.pure _
    | succ n ih => exact (hsubmit frames).bind fun _ => h.pollIfDue.bind fun _ => ih
  refine (keeps_built hweaken _ _).bind fun black => h.ask.bind fun a => ?_
  refine (hrounds black a.rounds).bind fun _ => (h.sendMarker _ _ _).bind fun _ => ?_
  refine (h.sendMarker _ _ _).bind fun _ => (h.sendMarker _ _ _).bind fun _ => ?_
  exact (h.sendMarker _ _ _).bind fun _ => h.pollStatus.bind fun _ => h.sendMarker _ _ _

/-- **Taking a sink down**, for an invariant that changes when the connector is darkened. -/
theorem Wire.deactivateMode {P : World → Prop} (hweaken : ∀ w, I w → R w) {head : UInt8}
    (hdark : ∀ w, P w → I (w.darkened head))
    (hsubmit : ∀ frames : List (List UInt8), Keeps I R (submitVideo head (frames.map .plain)))
    (width height : ℕ) : Triple P (deactivateMode head width height) (fun _ => I) R := by
  refine Triple.bind (Q := fun _ => I) (Triple.modify hdark) fun _ => Keeps.get.bind fun w => ?_
  split_ifs
  · exact (h.sendMarker _ _ _).bind fun _ => h.sendMarker _ _ _
  · exact h.blackThenClose hweaken _ _ hsubmit _ _

end Bracket

section Program

variable {I R : World → Prop} {head : UInt8}

/-- The stream behind the bracket, for an invariant that changes when the mode is programmed and
when the connector is lit. -/
theorem Flows.startStream {I' J : World → Prop} {i : Connector} (h' : Flows head i I' R)
    {mode : UInt16 × UInt16} (hprogrammed : ∀ w, I w → I' (w.programmed i mode))
    (hlit : ∀ w seq, I' w → J (w.lit i seq)) (hcursor : Keeps J R (rearmCursor head))
    (opening : List Piece) (prompt : List (List UInt8)) :
    Triple I (startStream head i mode opening prompt) (fun _ => J) R := by
  refine Triple.bind (Q := fun _ => I') (Triple.modify hprogrammed) fun _ => ?_
  refine Triple.bind (Q := fun _ => I') (Triple.get fun _ hw => hw) fun w => ?_
  refine Triple.bind (h'.submit _) fun _ => Triple.bind (h'.sendCommit head) fun _ => ?_
  refine Triple.bind (h'.sendCommit head) fun _ => Triple.bind (h'.closeBracket head) fun _ => ?_
  refine Triple.bind (h'.carrierCount _) fun n => Triple.bind (h'.carriers _ _ _ _ _) fun seq => ?_
  exact Triple.bind (Q := fun _ => J) (Triple.modify fun w hw => hlit w (seq + 1) hw) fun _ => hcursor

/-- **Programming a mode**, for an invariant that its set-mode message keeps. -/
theorem Flows.programConnector {I' J : World → Prop} {i : Connector} (h : Flows head i I R)
    (h' : Flows head i I' R) (hweaken : ∀ w, I w → R w)
    (hmode : ∀ content, Keeps I R (sendControl 0x48 content)) {width height : UInt16}
    (hprogrammed : ∀ w, I w → I' (w.programmed i (width, height)))
    (hlit : ∀ w seq, I' w → J (w.lit i seq)) (hcursor : Keeps J R (rearmCursor head))
    (refreshHz : UInt16) :
    Triple I (programConnector head i width height refreshHz) (fun _ => J) R := by
  refine Triple.bind (Q := fun _ => I) (Triple.get fun _ hw => hw) fun w => ?_
  refine Triple.bind (keeps_built hweaken _ _) fun prompt => ?_
  refine Triple.bind (h.sealing _) fun opening => Triple.bind h.ask fun a => ?_
  refine Triple.bind (keeps_built hweaken _ _) fun mode => ?_
  refine Triple.bind (h.openBracket head (hmode mode)) fun _ => ?_
  refine Triple.bind (h.trainBracket (h.checkPace hweaken) head i
    (h.sendStreamPrologue width height)) fun _ => ?_
  exact h'.startStream hprogrammed hlit hcursor opening prompt

theorem triple_programMode {J : World → Prop} (hweaken : ∀ w, I w → R w)
    {width height refreshHz : ℕ}
    (hprogram : ∀ i, connector? head = some i → width ≤ 65535 → height ≤ 65535 →
      refreshHz ≤ 65535 → Triple I (programConnector head i (UInt16.ofNat width)
        (UInt16.ofNat height) (UInt16.ofNat refreshHz)) (fun _ => J) R) :
    Triple I (programMode head width height refreshHz) (fun lit w => lit = true ∧ J w) R := by
  unfold programMode
  split_ifs
  · exact Triple.throw hweaken
  · exact Triple.throw hweaken
  · exact Triple.throw hweaken
  · split
    · exact Triple.throw hweaken
    · rename_i i hi
      refine Triple.bind (hprogram i hi (by omega) (by omega) (by omega)) fun _ => ?_
      exact Triple.pure fun w hw => ⟨rfl, hw⟩

/-- **A mode that is not supported is refused** before a message goes out. -/
theorem programMode_refused (htick : ∀ w, I w → I w.tick)
    (hsealed : ∀ i, connector? head = some i → ∀ w pieces seq, I w →
      I (w.sealed head i pieces seq))
    (hweaken : ∀ w, I w → R w) {width height refreshHz : ℕ}
    (hrefused : ¬Request.Supported ⟨head, width, height, refreshHz⟩) :
    Triple I (programMode head width height refreshHz) (fun _ _ => False) R := by
  refine (triple_programMode (J := fun _ => False) hweaken fun i hi hwidth hheight hrefresh => ?_).mono
    (fun _ h => h) (fun _ _ h => h.2) fun _ h => h
  have hunknown : knownMode (UInt16.ofNat width) (UInt16.ofNat height) (UInt16.ofNat refreshHz) =
      none := by
    refine Option.not_isSome_iff_eq_none.1 fun hsome => hrefused ?_
    exact ⟨hwidth, hheight, hrefresh, by simp [hi], hsome⟩
  refine Triple.bind (Q := fun _ => I) (Triple.get fun _ hw => hw) fun w => ?_
  refine Triple.bind (keeps_built hweaken _ _) fun prompt => ?_
  refine Triple.bind (triple_sealing htick (hsealed i hi)) fun opening => Triple.given fun _ => ?_
  refine Triple.bind (Q := fun _ => I) (triple_ask htick) fun a => ?_
  refine Triple.bind (Q := fun _ _ => False) ?_ fun _ _ hfalse => hfalse.elim
  rw [setModeProfile, hunknown]
  exact Triple.throw hweaken

theorem connector?_eq {head : UInt8} {i : Connector} (h : i.val = head.toNat) :
    connector? head = some i := by
  have hlt : head.toNat < maxConnectors := h ▸ i.isLt
  unfold connector?
  rw [dif_pos hlt]
  exact congrArg some (Fin.ext h.symm)

theorem Flows.presentRgb (hwire : Wire I R)
    (hflows : ∀ i, connector? head = some i → Flows head i I R) (hweaken : ∀ w, I w → R w)
    (hscanout : ∀ w i s, connector? head = some i → I w →
      I { w with scanout := Function.update w.scanout i s })
    (width height : ℕ) (rgb : List UInt8) : Keeps I R (presentRgb head width height rgb) := by
  refine Keeps.get.bind fun w => ?_
  split_ifs with hlt
  · generalize hi : (⟨head.toNat, hlt.trans_le (Nat.lt_succ_iff.1 w.connectors.2)⟩ : Connector) = i
    have hconnector : connector? head = some i := connector?_eq (by rw [← hi])
    have h := hflows i hconnector
    refine hwire.ask.bind fun a => Keeps.bind
      (Keeps.modify fun w hw => hscanout w _ _ hconnector hw) fun _ => ?_
    refine (keeps_built hweaken _ _).bind fun frame => ?_
    split
    · exact hwire.pollStatus
    · refine Keeps.bind ?_ fun _ => hwire.pollStatus
      refine Keeps.get.bind fun w => (h.presentations _ _ _ _ _).bind fun _ => ?_
      refine Keeps.bind (Keeps.modify fun w hw => h.frameSeq w _ hw) fun _ => ?_
      exact Keeps.modify fun w hw => hscanout w _ _ hconnector hw
  · exact Keeps.throw hweaken _

end Program

/-! ### Invariants of the control channel alone -/

/-- The control frames handed over, in order: counter, plaintext, and the error reported. -/
def controls (trace : List Action) : List (UInt32 × List UInt8 × Option UsbError) :=
  trace.filterMap fun
    | .control seq _ content error => some (seq, content, error)
    | _ => none

@[simp]
theorem controls_append (t t' : List Action) : controls (t ++ t') = controls t ++ controls t' :=
  List.filterMap_append

/-- The control channel is in the same state in both worlds. -/
structure SameControl (w w' : World) : Prop where
  dock : w'.dock = w.dock
  wireSeq : w'.wireSeq = w.wireSeq
  innerCounter : w'.innerCounter = w.innerCounter
  answers : w'.answers = w.answers
  controls : controls w'.trace = controls w.trace

/-- An invariant that depends on the control channel alone. -/
structure Steady (I R : World → Prop) : Prop extends Stable I R where
  same : ∀ w w', SameControl w w' → I w → I w'

section Steady

variable {I R : World → Prop} (h : Steady I R)

include h

theorem Steady.log {a : Action} (ha : controls [a] = []) (w : World) (hw : I w) : I (w.log a) :=
  h.same w _ ⟨rfl, rfl, rfl, rfl, by simp [World.log, ha]⟩ hw

theorem Steady.flows (head : UInt8) (i : Connector) : Flows head i I R where
  toWire := h.toWire
  submit pieces := keeps_submitVideo h.tick h.weaken fun w _ hw => h.log rfl w hw
  plain piece := keeps_sendPlainVideo h.tick h.weaken fun w _ hw => h.log rfl w hw
  sealed w pieces seq hw := h.same w _
    ⟨rfl, rfl, rfl, rfl, by simp [World.sealed, World.log, Session.controls]⟩ hw
  restated w hw := h.same w _ ⟨rfl, rfl, rfl, rfl, rfl⟩ hw
  frameSeq w seq hw := h.same w _ ⟨rfl, rfl, rfl, rfl, rfl⟩ hw

theorem Steady.presentRgb (head : UInt8) (width height : ℕ) (rgb : List UInt8) :
    Keeps I R (presentRgb head width height rgb) :=
  Flows.presentRgb h.toWire (fun i _ => h.flows head i) h.weaken
    (fun w _ _ _ hw => h.same w _ ⟨rfl, rfl, rfl, rfl, rfl⟩ hw) width height rgb

theorem Steady.deactivateMode (head : UInt8) (width height : ℕ) :
    Keeps I R (deactivateMode head width height) := by
  refine h.toWire.deactivateMode h.weaken (fun w hw => h.same w _ ?_ hw)
    (fun frames => keeps_submitVideo h.tick h.weaken fun w _ hw => h.log rfl w hw) width height
  unfold World.darkened
  split <;> exact ⟨rfl, rfl, rfl, rfl, rfl⟩

theorem Steady.darken (i : Connector) : Keeps I R (darken i) := by
  refine Keeps.get.bind fun w => ?_
  split_ifs
  · exact h.deactivateMode _ _ _
  · exact Keeps.pure _

theorem Steady.programMode (hmode : ∀ content, Keeps I R (sendControl 0x48 content)) (head : UInt8)
    (width height refreshHz : ℕ) : Keeps I R (programMode head width height refreshHz) := by
  refine (triple_programMode (J := I) h.weaken fun i _ _ _ _ => ?_).mono (fun _ h => h)
    (fun _ _ h => h.2) fun _ h => h
  exact (h.flows head i).programConnector (h.flows head i) h.weaken hmode
    (fun w hw => h.same w _ ⟨rfl, rfl, rfl, rfl, rfl⟩ hw)
    (fun w seq hw => h.same w _ ⟨rfl, rfl, rfl, rfl, rfl⟩ hw) (h.rearmCursor head) _

end Steady

end Vino.Session
