import Vino.Usb.Pipeline

/-!
# The Write Paths of a Session

A session writes to the dock on five paths: a sealed control message and an unsealed record go out
by a synchronous write, a frame of video by a pipeline of transfers that is offered a second time
if the first times out, and the frames of the handshake by an asynchronous transfer, one of them
offered up to forty times.  How every attempt goes is a parameter: how much of it the endpoint
takes, and what is reported.

* `writeVideoFrame_ok`: a pipeline that succeeds has put its chunks on the wire, in order,
* `retry_wire`: what the attempts up to the first success leave on the wire,
* `oneCopy_iff`: when a path that succeeds has put exactly one copy on the wire.
-/

namespace Vino.Usb

open Vino.Lib.Run Vino.Cp.Seal

/-! ### The transport -/

/-- A synchronous bulk write: how many bytes the endpoint takes, and the error that is reported.
A write that took fewer bytes than it was given need not be an error. -/
structure SyncWrite where
  accepted : ℕ
  error : Option WriteError

/-- An asynchronous transfer: it is not submitted, it ends, or it is cancelled at the deadline and
ends then. -/
inductive AsyncWrite where
  | refused
  | ended (status : TransferStatus) (actual : ℕ)
  | late (actual : ℕ)

/-- The part of a frame that the endpoint takes. -/
def AsyncWrite.taken (frame : List UInt8) : AsyncWrite → List UInt8
  | .refused => []
  | .ended _ actual | .late actual => frame.take actual

/-- A session on a bus: what its endpoint has accepted, the counters of the control channel, and
how every attempt goes. -/
structure Bus where
  wire : List UInt8
  wireSeq : UInt32
  innerCounter : UInt16
  time : ℕ
  sync : ℕ → SyncWrite
  async : ℕ → AsyncWrite
  events : ℕ → List Event
  reads : ℕ → Except WriteError (List UInt8)
  videoEp : UInt8 → Bool

/-- An attempt, and what the endpoint takes of it. -/
def Bus.accept (b : Bus) (bytes : List UInt8) : Bus :=
  { b with wire := b.wire ++ bytes, time := b.time + 1 }

/-- Write raw bytes synchronously to the control endpoint. -/
def Bus.writeCtrlRaw (b : Bus) (bytes : List UInt8) : Except WriteError ℕ × Bus :=
  let o := b.sync b.time
  (match o.error with
    | none => .ok (min o.accepted bytes.length)
    | some e => .error e,
   b.accept (bytes.take o.accepted))

/-- Submit one control-plane transfer and wait for it. -/
def Bus.writeCtrlDlm (b : Bus) (bytes : List UInt8) : Except WriteError ℕ × Bus :=
  let o := b.async b.time
  (match o with
    | .refused => .error .other
    | .late _ => .error .timeout
    | .ended status actual =>
        if status ≠ .completed then .error (statusToErr status)
        else if actual ≠ bytes.length then .error (.shortWrite actual bytes.length)
        else .ok actual,
   b.accept (o.taken bytes))

/-- How many bytes of a chunk were accepted. -/
def acceptedOf (accepted : List (ℕ × ℕ)) (i : ℕ) : ℕ :=
  ((accepted.filter fun entry => entry.1 = i).map Prod.snd).sum

/-- The bytes of a pipeline on the wire: an endpoint carries out its transfers in the order they
were submitted in. -/
def wireOf (chunks : List (List UInt8)) (accepted : List (ℕ × ℕ)) : List UInt8 :=
  (List.range chunks.length).flatMap fun i => (chunks.getD i []).take (acceptedOf accepted i)

/-- Pipeline a frame on the video endpoint of a connector; `none` is a call under way. -/
def Bus.writeVideoFrame (b : Bus) (head : UInt8) (chunks : List (List UInt8)) :
    Option (Except WriteError ℕ) × Bus :=
  if b.videoEp head then
    let s := run (Pipe.step chunks) (pipelineOut chunks) (b.events b.time)
    (match s.phase with
      | .returned result => some result
      | _ => none,
     b.accept (wireOf chunks s.accepted))
  else (some (.error .disconnected), b)

/-- A read that may time out. -/
def Bus.receiveOptional (b : Bus) : Except WriteError (Option (List UInt8)) × Bus :=
  (match b.reads b.time with
    | .ok reply => .ok (some reply)
    | .error .timeout => .ok none
    | .error e => .error e,
   { b with time := b.time + 1 })

/-! ### The paths -/

/-- The errors of a path, by what failed. -/
inductive PathError where
  | send (id : UInt16) (e : WriteError)
  | receive (e : WriteError)
  | prologue (head : UInt8) (e : WriteError)
  | submit (head : UInt8) (e : WriteError)
  | control (e : WriteError)
  | notAccepted
  deriving DecidableEq, Repr

/-- Seal a control message, write it and look for a reply. -/
def Bus.sendControl (b : Bus) (c : Crypto) (key : Key) (nonce : Nonce) (id : UInt16)
    (content : List UInt8) : Except PathError (Option (List UInt8)) × Bus :=
  match b.writeCtrlRaw (sealInteractive c key nonce id b.wireSeq content) with
  | (.error e, b) => (.error (.send id e), b)
  | (.ok _, b) =>
      let b := { b with wireSeq := b.wireSeq + UInt32.ofNat (blocks content.length),
                        innerCounter := b.innerCounter + 1 }
      match b.receiveOptional with
      | (.error e, b) => (.error (.receive e), b)
      | (.ok reply, b) => (.ok reply, b)

/-- Write one already-framed record straight to the control endpoint. -/
def Bus.sendPlainVideo (b : Bus) (head : UInt8) (record : List UInt8) :
    Except PathError Unit × Bus :=
  match b.writeCtrlRaw record with
  | (.error e, b) => (.error (.prologue head e), b)
  | (.ok _, b) => (.ok (), b)

/-- Submit a frame, offered once more when the endpoint times out. -/
def Bus.submitVideo (b : Bus) (head : UInt8) (frames : List (List UInt8)) :
    Option (Except PathError Unit) × Bus :=
  match b.writeVideoFrame head frames with
  | (none, b) => (none, b)
  | (some (.ok _), b) => (some (.ok ()), b)
  | (some (.error .timeout), b) =>
      match b.writeVideoFrame head frames with
      | (none, b) => (none, b)
      | (some (.ok _), b) => (some (.ok ()), b)
      | (some (.error e), b) => (some (.error (.submit head e)), b)
  | (some (.error e), b) => (some (.error (.submit head e)), b)

def Bus.sendPlain (b : Bus) (frame : List UInt8) : Except PathError Unit × Bus :=
  match b.writeCtrlDlm frame with
  | (.error e, b) => (.error (.control e), b)
  | (.ok _, b) => (.ok (), b)

/-- What is left of the attempts, and the error of the last one. -/
def Bus.retryFrom (frame : List UInt8) : ℕ → Option PathError → Bus → Except PathError Unit × Bus
  | 0, last, b => (.error (last.getD .notAccepted), b)
  | n + 1, _, b =>
      match b.sendPlain frame with
      | (.ok (), b) => (.ok (), b)
      | (.error e, b) => retryFrom frame n (some e) b.receiveOptional.2

def Bus.sendPlainRetry (b : Bus) (frame : List UInt8) : Except PathError Unit × Bus :=
  Bus.retryFrom frame 40 none b

/-- A call on one of the paths. -/
inductive Path where
  | control (c : Crypto) (key : Key) (nonce : Nonce) (id : UInt16) (content : List UInt8)
  | plainVideo (head : UInt8) (record : List UInt8)
  | video (head : UInt8) (frames : List (List UInt8))
      (fit : ∀ chunk ∈ frames, chunk.length < 2 ^ 31)
  | plain (frame : List UInt8)
  | plainRetry (frame : List UInt8)

/-- The call; `none` is a call under way. -/
def Path.run (b : Bus) : Path → Option (Except PathError Unit) × Bus
  | .control c key nonce id content =>
      let (result, b) := b.sendControl c key nonce id content
      (some (result.map fun _ => ()), b)
  | .plainVideo head record => ((b.sendPlainVideo head record).map some id)
  | .video head frames _ => b.submitVideo head frames
  | .plain frame => (b.sendPlain frame).map some id
  | .plainRetry frame => (b.sendPlainRetry frame).map some id

/-- The frame that is offered. -/
def Path.frame (b : Bus) : Path → List UInt8
  | .control c key nonce id content => sealInteractive c key nonce id b.wireSeq content
  | .plainVideo _ record => record
  | .video _ frames _ => frames.flatten
  | .plain frame | .plainRetry frame => frame

/-- A call that succeeds has put its frame on the wire, once and nothing else. -/
def OneCopy (path : Path) (b : Bus) : Prop :=
  (path.run b).1 = some (.ok ()) → (path.run b).2.wire = b.wire ++ path.frame b

/-! ### When there is one copy -/

/-- An attempt of the retried path goes through. -/
def AsyncWrite.Done (frame : List UInt8) (o : AsyncWrite) : Prop :=
  o = .ended .completed frame.length

/-- **What the transport may do.**  A synchronous write that is reported as done has taken the
whole frame (unless the read behind a control message fails); an attempt that is followed by a
successful one has taken nothing. -/
def Whole (b : Bus) : Path → Prop
  | .control c key nonce id content => (b.sync b.time).error = none →
      (∀ e, b.reads (b.time + 1) = .error e → e = .timeout) →
        (sealInteractive c key nonce id b.wireSeq content).length ≤ (b.sync b.time).accepted
  | .plainVideo _ record => (b.sync b.time).error = none → record.length ≤ (b.sync b.time).accepted
  | .video head frames _ =>
      let first := b.writeVideoFrame head frames
      ∀ n, first.1 = some (.error .timeout) →
        (first.2.writeVideoFrame head frames).1 = some (.ok n) → first.2.wire = b.wire
  | .plain _ => True
  | .plainRetry frame =>
      ∀ j < 40, (b.async (b.time + 2 * j)).Done frame →
        (∀ i < j, ¬ (b.async (b.time + 2 * i)).Done frame) →
          ∀ i < j, (b.async (b.time + 2 * i)).taken frame = []

section Paths

variable {b : Bus} {frame : List UInt8}

/-! ### The pipeline -/

theorem acceptedOf_perm {l l' : List (ℕ × ℕ)} (h : l.Perm l') (i : ℕ) :
    acceptedOf l i = acceptedOf l' i :=
  ((h.filter _).map _).sum_eq

theorem acceptedOf_range (f : ℕ → ℕ) {n i : ℕ} (hi : i < n) :
    acceptedOf ((List.range n).map fun k => (k, f k)) i = f i := by
  unfold acceptedOf
  rw [List.filter_map, List.map_map]
  have hone : (List.range n).filter ((fun entry : ℕ × ℕ => decide (entry.1 = i)) ∘
      fun k => (k, f k)) = [i] := by
    show (List.range n).filter (fun k => decide (k = i)) = [i]
    rw [List.filter_eq, List.count_eq_one_of_mem List.nodup_range (List.mem_range.2 hi)]
    rfl
  rw [hone]
  simp

/-- What a pipeline that succeeds leaves on the wire. -/
theorem wireOf_returned {chunks : List (List UInt8)} {s : Pipe} (h : Ledger chunks s)
    (hp : Placed chunks s) {n : ℕ} (hphase : s.phase = .returned (.ok n)) :
    wireOf chunks s.accepted = chunks.flatten := by
  have htaken := taken_perm h hp hphase
  have hlive := live_returned h hp hphase
  unfold Placed at hp
  rw [hphase] at hp
  obtain ⟨herr, -, -⟩ := hp.2 n rfl
  have haccepted := (h.clean herr).accepted
  have hqueue : s.completions = [] :=
    List.map_eq_nil_iff.1 (List.append_eq_nil_iff.1 hlive).1
  rw [hqueue, List.map_nil, List.append_nil] at haccepted
  have hlen {i : ℕ} (hi : i < chunks.length) : acceptedOf s.accepted i = chunkLen chunks i := by
    rw [haccepted, acceptedOf_perm htaken, acceptedOf_range _ hi]
  have hpieces : (List.range chunks.length).map
      (fun i => (chunks.getD i []).take (acceptedOf s.accepted i)) = chunks := by
    refine List.ext_getElem (by simp) fun i hi hi' => ?_
    rw [List.getElem_map, List.getElem_range, hlen hi', chunkLen, List.take_length,
      List.getD_eq_getElem _ _ hi']
  rw [wireOf, List.flatMap_def, hpieces]

/-- **A pipeline that succeeds has put its chunks on the wire**, in order. -/
theorem writeVideoFrame_ok {head : UInt8} {chunks : List (List UInt8)}
    (hfit : ∀ chunk ∈ chunks, chunk.length < 2 ^ 31) {n : ℕ}
    (hok : (b.writeVideoFrame head chunks).1 = some (.ok n)) :
    (b.writeVideoFrame head chunks).2.wire = b.wire ++ chunks.flatten := by
  unfold Bus.writeVideoFrame at hok ⊢
  by_cases hep : b.videoEp head = true
  · rw [if_pos hep] at hok ⊢
    obtain ⟨hledger, hplaced⟩ := ledger_run hfit (b.events b.time)
    have hphase : (run (Pipe.step chunks) (pipelineOut chunks) (b.events b.time)).phase =
        .returned (.ok n) := by
      dsimp only at hok
      split at hok
      · next result hphase => rw [hphase, Option.some.inj hok]
      · cases hok
    show b.wire ++ wireOf chunks _ = _
    rw [wireOf_returned hledger hplaced hphase]
  · rw [if_neg hep] at hok
    cases hok

/-- A pipeline that fails has left on the wire what was there. -/
theorem wire_writeVideoFrame (b : Bus) (head : UInt8) (chunks : List (List UInt8)) :
    ∃ part, (b.writeVideoFrame head chunks).2.wire = b.wire ++ part := by
  unfold Bus.writeVideoFrame
  split_ifs
  · exact ⟨_, rfl⟩
  · exact ⟨[], (List.append_nil _).symm⟩

theorem oneCopy_video {head : UInt8} {frames : List (List UInt8)}
    (hfit : ∀ chunk ∈ frames, chunk.length < 2 ^ 31) :
    OneCopy (.video head frames hfit) b ↔ Whole b (.video head frames hfit) := by
  have hfirst (n : ℕ) (hok : (b.writeVideoFrame head frames).1 = some (.ok n)) :=
    writeVideoFrame_ok hfit hok
  have hsecond (n : ℕ)
      (hok : ((b.writeVideoFrame head frames).2.writeVideoFrame head frames).1 = some (.ok n)) :=
    writeVideoFrame_ok hfit hok
  obtain ⟨part, hpart⟩ := wire_writeVideoFrame b head frames
  unfold OneCopy Whole Path.run Path.frame Bus.submitVideo
  dsimp only
  generalize b.writeVideoFrame head frames = first at *
  obtain ⟨result, b'⟩ := first
  dsimp only at *
  rcases result with - | (e | n)
  · simp
  · cases e with
    | timeout =>
      dsimp only
      generalize b'.writeVideoFrame head frames = second at *
      obtain ⟨result', b''⟩ := second
      rcases result' with - | (e | n)
      · simp
      · simp
      · have hwire := hsecond n rfl
        dsimp only at hwire ⊢
        rw [hwire, hpart, List.append_assoc]
        simp
    | stall => simp
    | disconnected => simp
    | other => simp
    | shortWrite wrote wanted => simp
  · have hwire := hfirst n rfl
    simp [hwire]

/-! ### The synchronous writes -/

theorem oneCopy_plainVideo (head : UInt8) :
    OneCopy (.plainVideo head frame) b ↔ Whole b (.plainVideo head frame) := by
  unfold OneCopy Whole Path.run Path.frame Bus.sendPlainVideo Bus.writeCtrlRaw
  dsimp only
  cases herror : (b.sync b.time).error with
  | none => simp [Bus.accept]
  | some e => simp

theorem oneCopy_control (c : Crypto) (key : Key) (nonce : Nonce) (id : UInt16)
    (content : List UInt8) :
    OneCopy (.control c key nonce id content) b ↔ Whole b (.control c key nonce id content) := by
  unfold OneCopy Whole Path.run Path.frame Bus.sendControl Bus.writeCtrlRaw
  dsimp only
  cases herror : (b.sync b.time).error with
  | none =>
    dsimp only [Bus.receiveOptional, Bus.accept]
    cases hread : b.reads (b.time + 1) with
    | ok reply => simp [Except.map]
    | error e =>
      cases e <;> simp [Except.map]
  | some e => simp [Except.map]

/-! ### The asynchronous writes -/

/-- An attempt that goes through leaves its frame on the wire. -/
theorem sendPlain_done (h : (b.async b.time).Done frame) :
    b.sendPlain frame = (.ok (), b.accept frame) := by
  unfold Bus.sendPlain Bus.writeCtrlDlm
  rw [h]
  simp [AsyncWrite.taken]

/-- Any other attempt fails, and leaves there what was taken. -/
theorem sendPlain_failed (h : ¬ (b.async b.time).Done frame) :
    ∃ e, b.sendPlain frame = (.error (.control e), b.accept ((b.async b.time).taken frame)) := by
  unfold Bus.sendPlain Bus.writeCtrlDlm
  cases ho : b.async b.time with
  | refused => exact ⟨_, rfl⟩
  | late actual => exact ⟨_, rfl⟩
  | ended status actual =>
    dsimp only
    split_ifs with hstatus hactual
    · exact ⟨_, rfl⟩
    · exact ⟨_, rfl⟩
    · rw [ho, not_not.1 hstatus, not_not.1 hactual] at h
      exact absurd rfl h

theorem oneCopy_plain : OneCopy (.plain frame) b := by
  unfold OneCopy Path.run Path.frame
  dsimp only
  by_cases hdone : (b.async b.time).Done frame
  · rw [sendPlain_done hdone]
    exact fun _ => rfl
  · obtain ⟨e, he⟩ := sendPlain_failed hdone
    rw [he]
    nofun

/-- **The attempts up to the first success**, and what they leave on the wire. -/
theorem retry_wire {n j : ℕ} (hj : j < n) (last : Option PathError)
    (hdone : (b.async (b.time + 2 * j)).Done frame)
    (hfirst : ∀ i < j, ¬ (b.async (b.time + 2 * i)).Done frame) :
    (Bus.retryFrom frame n last b).1 = .ok () ∧ (Bus.retryFrom frame n last b).2.wire =
      b.wire ++ ((List.range j).flatMap fun i => (b.async (b.time + 2 * i)).taken frame) ++
        frame := by
  induction j generalizing b n last with
  | zero =>
    obtain ⟨n, rfl⟩ := Nat.exists_eq_succ_of_ne_zero (Nat.ne_zero_of_lt hj)
    rw [Bus.retryFrom, sendPlain_done hdone]
    exact ⟨rfl, by simp [Bus.accept]⟩
  | succ j ih =>
    obtain ⟨n, rfl⟩ := Nat.exists_eq_succ_of_ne_zero (Nat.ne_zero_of_lt hj)
    obtain ⟨e, he⟩ := sendPlain_failed (hfirst 0 (Nat.succ_pos j))
    have hshift (i : ℕ) : b.time + 2 * (i + 1) = b.time + 1 + 1 + 2 * i := by omega
    rw [Bus.retryFrom, he]
    have hrest := ih (b := (b.accept ((b.async b.time).taken frame)).receiveOptional.2)
      (Nat.lt_of_succ_lt_succ hj) (some (.control e)) (by rw [hshift] at hdone; exact hdone)
      fun i hi => by
        have hnot := hfirst (i + 1) (Nat.succ_lt_succ hi)
        rw [hshift] at hnot
        exact hnot
    refine ⟨hrest.1, hrest.2.trans ?_⟩
    rw [List.range_succ_eq_map, List.flatMap_cons, List.flatMap_map, ← List.append_assoc b.wire]
    simp only [Nat.succ_eq_add_one, hshift]
    rfl

/-- Without a success the last error is returned. -/
theorem retry_failed {n : ℕ} (last : Option PathError)
    (hnone : ∀ i < n, ¬ (b.async (b.time + 2 * i)).Done frame) :
    (Bus.retryFrom frame n last b).1 ≠ .ok () := by
  induction n generalizing b last with
  | zero => exact nofun
  | succ n ih =>
    obtain ⟨e, he⟩ := sendPlain_failed (hnone 0 (Nat.succ_pos n))
    rw [Bus.retryFrom, he]
    refine ih (b := (b.accept ((b.async b.time).taken frame)).receiveOptional.2) _ fun i hi => ?_
    have hnot := hnone (i + 1) (Nat.succ_lt_succ hi)
    rw [show b.time + 2 * (i + 1) = b.time + 1 + 1 + 2 * i by omega] at hnot
    exact hnot

theorem oneCopy_plainRetry :
    OneCopy (.plainRetry frame) b ↔ Whole b (.plainRetry frame) := by
  unfold OneCopy Whole Path.run Path.frame Bus.sendPlainRetry
  dsimp only [Prod.map, id]
  constructor
  · intro hcopy j hj hdone hfirst
    obtain ⟨hok, hwire⟩ := retry_wire hj none hdone hfirst
    have hsame := hwire.symm.trans (hcopy (congrArg some hok))
    rw [List.append_cancel_right_eq, List.append_right_eq_self, List.flatMap_eq_nil_iff] at hsame
    exact fun i hi => hsame i (List.mem_range.2 hi)
  · intro hwhole hok
    by_cases hsome : ∃ j, j < 40 ∧ (b.async (b.time + 2 * j)).Done frame
    · classical
      -- The first attempt that goes through.
      obtain ⟨hj, hdone⟩ := Nat.find_spec hsome
      have hfirst (i : ℕ) (hi : i < Nat.find hsome) :
          ¬ (b.async (b.time + 2 * i)).Done frame := fun hd =>
        Nat.find_min hsome hi ⟨hi.trans hj, hd⟩
      obtain ⟨-, hwire⟩ := retry_wire hj none hdone hfirst
      have hnothing := hwhole _ hj hdone hfirst
      rw [hwire, List.flatMap_eq_nil_iff.2 fun i hi => hnothing i (List.mem_range.1 hi),
        List.append_nil]
    · rw [not_exists] at hsome
      exact absurd (Option.some.inj hok)
        (retry_failed none fun i hi hd => hsome i ⟨hi, hd⟩)

/-- **When a call that succeeds has put exactly one copy on the wire.** -/
theorem oneCopy_iff (path : Path) (b : Bus) : OneCopy path b ↔ Whole b path := by
  cases path with
  | control c key nonce id content => exact oneCopy_control c key nonce id content
  | plainVideo head record => exact oneCopy_plainVideo head
  | video head frames fit => exact oneCopy_video fit
  | plain frame => exact iff_of_true oneCopy_plain trivial
  | plainRetry frame => exact oneCopy_plainRetry

end Paths

/-- A bus on which the first attempt takes two bytes: a synchronous write is reported as done, an
asynchronous one reaches its deadline, a pipeline times out; every later attempt goes through. -/
def stutter : Bus where
  wire := []
  wireSeq := 0
  innerCounter := 0
  time := 0
  sync := fun _ => ⟨2, none⟩
  async := fun t => if t = 0 then .late 2 else .ended .completed 4
  events := fun t =>
    [.turn true false, .turn true false,
     .complete (if t = 0 then ⟨0, .timedOut, 2⟩ else ⟨0, .completed, 4⟩),
     .turn true false, .turn true false, .turn true false]
  reads := fun _ => .error .timeout
  videoEp := fun _ => true

/-- A record cut short, and two frames behind a part of themselves. -/
theorem stutter_copies :
    ((Path.plainVideo 0 [1, 2, 3, 4]).run stutter).1 = some (.ok ()) ∧
    ((Path.plainVideo 0 [1, 2, 3, 4]).run stutter).2.wire = [1, 2] ∧
    ((Path.plainRetry [1, 2, 3, 4]).run stutter).1 = some (.ok ()) ∧
    ((Path.plainRetry [1, 2, 3, 4]).run stutter).2.wire = [1, 2, 1, 2, 3, 4] ∧
    ((Path.video 0 [[1, 2, 3, 4]] (by decide)).run stutter).1 = some (.ok ()) ∧
    ((Path.video 0 [[1, 2, 3, 4]] (by decide)).run stutter).2.wire = [1, 2, 1, 2, 3, 4] ∧
    ¬ ∀ path b, OneCopy path b := by
  refine ⟨rfl, rfl, rfl, rfl, rfl, rfl, fun h => ?_⟩
  have hcopy := h (.plainVideo 0 [1, 2, 3, 4]) stutter rfl
  exact absurd hcopy (by decide)

end Vino.Usb
