import Vino.Lib.Run

/-!
# Work Items and What They Owe

Two work items serve a connector: its scanout worker, which sends the frames, and the command
worker, which carries out mode sets.  The scanout worker backs off while a stream command is queued
or executing and relies on the command worker to wake it; flips enqueue it themselves; a colour
change or an activation only leaves a note that a keyframe is owed.  A batch may ask for a connector
nobody has enabled, at the mode of its sibling.  One connector is modelled, with the flips, the
colour changes, the enables and disables, the batches and the exits of both workers interleaved.

* `owed_scheduled`: in every run in which whoever owes the connector a keyframe, or asks for it with
  one owed, finds a frame to carry it, no such frame is lost without another, no multihead batch is
  dropped while the scanout worker is gone, and that worker does not leave in the middle of a flip,
  everything owed is scheduled, in every state in which no callback has yet to publish it,
* `recolour_unscheduled`: a colour change on a still desktop owes a keyframe that nothing sends.
-/

namespace Vino.Kms.Schedule

open Vino.Lib.Run

/-! ### The state of a connector -/

/-- How far a flip has come: copying its snapshot, or behind dropping the settle repaint. -/
inductive Flip where
  | none
  | copying
  | cleared
  deriving DecidableEq

/-- How far an enable or a disable of the output has come. -/
inductive Callback where
  | none
  /-- `atomic_enable` has stored its mode, and is to publish the mode set. -/
  | enabled
  /-- `atomic_disable` has put the colours back. -/
  | cleared
  /-- It has withdrawn the request. -/
  | withdrawn
  /-- It has dropped the frames, and is to publish the blank. -/
  | dropped
  deriving DecidableEq

/-- Where the scanout worker is. -/
inductive Scan where
  | idle
  /-- At the top of the loop. -/
  | top
  /-- The endpoint is claimed and nothing blocks it. -/
  | selecting
  /-- A frame is selected. -/
  | holding
  /-- Its surface is claimed; `was` says whether a keyframe was owed. -/
  | claimed (was : Bool)
  /-- It is encoded and submitted, `full` or as a delta. -/
  | encoding (was full : Bool)
  /-- Sleeping until the cadence or a settle repaint is due. -/
  | waiting
  /-- Nothing was selected: one more look at the pending slot. -/
  | leaving
  deriving DecidableEq

/-- Where the command worker is. -/
inductive Cmd where
  | idle
  | top
  /-- The batch is taken; `modeset` says whether it has a stream command. -/
  | drained (modeset : Bool)
  /-- The connector was seen without a request, and is about to get that of its sibling. -/
  | joining
  | joined
  | executing (modeset : Bool)
  /-- The batch was given up at the retry limit. -/
  | ending
  deriving DecidableEq

structure State where
  kmsActivationReady : Bool
  /-- The connector's `modeset_requested` is not zero. -/
  modesetRequested : Bool
  pendingScanout : Bool
  /-- An armed settle repaint, and whether it goes out as a keyframe. -/
  settleRepaint : Option Bool
  keyframePending : Bool
  dirtyTtl : List ℕ
  settleBudget : ℕ
  flip : Flip
  callback : Callback
  scanQueued : Bool
  scan : Scan
  /-- The mailbox holds a stream command, and another command. -/
  pendingStream : Bool
  pendingCursor : Bool
  kmsRetries : ℕ
  cmdQueued : Bool
  /-- The command item waits for its delay. -/
  cmdArmed : Bool
  cmd : Cmd
  cmdBusy : Bool
  deriving DecidableEq

def State.initial : State where
  kmsActivationReady := false
  modesetRequested := false
  pendingScanout := false
  settleRepaint := none
  keyframePending := false
  dirtyTtl := []
  settleBudget := 0
  flip := .none
  callback := .none
  scanQueued := false
  scan := .idle
  pendingStream := false
  pendingCursor := false
  kmsRetries := 0
  cmdQueued := false
  cmdArmed := false
  cmd := .idle
  cmdBusy := false

/-- Settle repaints a keyframe obligation pays for. -/
def settleRepaints : ℕ := 1

/-- Deferrals after which a batch is dropped. -/
def kmsRetryLimit : ℕ := 128

/-- How a frame ends: submitted, declined by a gate of the encoder, or failed. -/
inductive Outcome where
  | sent
  | unsent
  | failed
  deriving DecidableEq

inductive Event where
  /-- Bring-up ends. -/
  | publishReady
  /-- The session is given up. -/
  | abandon
  /-- A cursor command is published. -/
  | queueCursor
  /-- A sibling is enabled or disabled. -/
  | queueSibling
  /-- The keepalive loop wakes the scanout workers. -/
  | enqueueScanout
  /-- A colour-only commit or an enable caches a transform that differs from the cached one. -/
  | updateColor
  /-- An enable stores the mode it asks for. -/
  | enable
  /-- A disable puts the colours back, which may not have been changed. -/
  | disable (changed : Bool)
  /-- It withdraws the request. -/
  | withdraw
  /-- It drops the frames, and what is owed with them. -/
  | drop
  /-- The callback publishes its mode set or its blank. -/
  | queueCmd
  /-- A flip reserves its slot and copies. -/
  | flipBegin
  /-- It drops the settle repaint. -/
  | flipClear
  /-- It publishes its frame and wakes the worker. -/
  | flipPublish
  /-- Its snapshot failed. -/
  | flipAbort
  | scanStart
  /-- The worker claims the endpoint and looks for a reason not to use it. -/
  | scanCheck
  | selectScanout (budgetWait cadenceDue settleDue sustaining : Bool)
  /-- The worker wakes from its sleep. -/
  | scanWake
  /-- It looks at the pending slot once more before it exits. -/
  | scanLeave
  /-- `run_pending_scanout` claims the surface of its frame, if it is still valid. -/
  | claim (valid : Bool)
  /-- The encoder reads what is owed, behind an inline activation, with no baseline to compare
  against, or with the strips that moved. -/
  | encode (activate fresh : Bool) (moved : List Bool)
  | finish (o : Outcome) (sustaining keepalive : Bool)
  /-- The delay of the command item is over. -/
  | timer
  | cmdStart
  | cmdDrain
  /-- The batch has a mode set for the sibling alone, and this connector has no request. -/
  | joinCheck
  | joinStore
  | cmdBusy
  /-- A mode set of the batch lands on the connector. -/
  | activate
  /-- A multihead activation fails, in a batch with or without cursor commands. -/
  | multiheadFail (cursor : Bool)
  /-- A command fails and is put back, with what is behind it. -/
  | retry (stream cursor : Bool)
  /-- The batch is through; the cursor may be replayed. -/
  | cmdDone (rearm : Bool)

/-! ### The operations -/

/-- Account one accepted submission against the debt of every strip. -/
def payDamageDebt (full : Bool) (debt : List ℕ) : List ℕ :=
  if full then debt.map fun _ => 0 else debt.map (· - 1)

/-- Charge every strip that moved. -/
def chargeDebt (damageFrames : ℕ) (moved : List Bool) (debt : List ℕ) : List ℕ :=
  List.zipWith (fun m d => if m then damageFrames else d) moved
    (if debt.length = moved.length then debt else List.replicate moved.length 0)

namespace State

/-- Some strip still has debt. -/
def owesDebt (s : State) : Bool := s.dirtyTtl.any (0 < ·)

def enqueueCmd (s : State) : State := if s.cmdArmed then s else { s with cmdQueued := true }

def enqueueDelayed (s : State) : State := if s.cmdQueued then s else { s with cmdArmed := true }

/-- `queue_cmd` wakes the command worker once bring-up is over. -/
def wakeCmd (s : State) : State := if s.kmsActivationReady then s.enqueueCmd else s

def queueStream (s : State) : State := { s with pendingStream := true }.wakeCmd

def queueCursor (s : State) : State := { s with pendingCursor := true }.wakeCmd

def oweKeyframe (s : State) : State :=
  { s with keyframePending := true, settleBudget := settleRepaints }

/-- A changed transform drops the baseline and the debt with it, and owes a keyframe. -/
def updateColor (s : State) (changed : Bool) : State :=
  if changed then { s with dirtyTtl := [] }.oweKeyframe else s

/-- A mode set that lands leaves the dock's buffers undefined. -/
def activate (s : State) : State := { s.oweKeyframe with dirtyTtl := [] }

def clearKms (s : State) : State := { s with pendingStream := false, pendingCursor := false }

/-- Whether a settle repaint of a keyframe is charged: training and keepalive are exempt from the
budget. -/
def charged (s : State) (sustaining keepalive : Bool) : Bool :=
  sustaining || keepalive || 0 < s.settleBudget

/-- Arm the repaint behind a frame that ended well. -/
def arm (s : State) (was sustaining keepalive : Bool) : State :=
  if was then
    if sustaining || keepalive then { s with settleRepaint := some true }
    else if 0 < s.settleBudget then
      { s with settleRepaint := some false, settleBudget := s.settleBudget - 1 }
    else s
  else if s.owesDebt then { s with settleRepaint := some false }
  else s

/-- What a submission pays: a full frame settles the keyframe as well. -/
def pay (s : State) (full : Bool) : State :=
  { s with
    dirtyTtl := payDamageDebt full s.dirtyTtl
    keyframePending := !full && s.keyframePending }

/-- The end of `run_pending_scanout`. -/
def finish (s : State) (was full : Bool) (o : Outcome) (sustaining keepalive : Bool) : State :=
  match o with
  | .sent => { (s.pay full).arm was sustaining keepalive with scan := .top }
  | .unsent => { s.arm was sustaining keepalive with scan := .top }
  | .failed => { s with scan := .top }

/-- Choose the next frame or a wait. -/
def selectScanout (s : State) (budgetWait cadenceDue settleDue sustaining : Bool) : State :=
  if budgetWait then { s with scan := .waiting }
  else if s.modesetRequested && s.pendingScanout && cadenceDue then
    { s with
      pendingScanout := false
      keyframePending := s.keyframePending || sustaining
      scan := .holding }
  else if !s.modesetRequested then { s with settleRepaint := none, scan := .leaving }
  else
    match s.settleRepaint with
    | some asKeyframe =>
        if settleDue then
          { s with
            settleRepaint := none
            keyframePending := s.keyframePending || asKeyframe
            scan := .holding }
        else { s with scan := .waiting }
    | none => { s with scan := if s.pendingScanout then .waiting else .leaving }

/-- The end of a batch: the loop goes on, or the scanout workers are woken. -/
def cmdDone (s : State) : State :=
  if s.pendingStream || s.pendingCursor then { s with kmsRetries := 0, cmd := .top }
  else { s with kmsRetries := 0, cmd := .idle, scanQueued := true }

end State

/-- One step of a callback or of a worker; a step that is not due changes nothing. -/
def step (damageFrames : ℕ) (s : State) : Event → State
  | .publishReady =>
      let s := if s.pendingStream || s.pendingCursor then s.enqueueCmd else s
      { s with kmsActivationReady := true, scanQueued := true }
  | .abandon => { s with kmsActivationReady := false }
  | .queueCursor => s.queueCursor
  | .queueSibling => s.queueStream
  | .enqueueScanout => { s with scanQueued := true }
  | .updateColor => s.updateColor true
  | .enable =>
      if s.callback = .none then { s with modesetRequested := true, callback := .enabled } else s
  | .disable changed =>
      if s.callback = .none then { s.updateColor changed with callback := .cleared } else s
  | .withdraw =>
      if s.callback = .cleared then
        { s with modesetRequested := false, callback := .withdrawn }
      else s
  | .drop =>
      if s.callback = .withdrawn then
        { s with
          pendingScanout := false
          settleRepaint := none
          settleBudget := 0
          dirtyTtl := []
          callback := .dropped }
      else s
  | .queueCmd =>
      if s.callback = .enabled ∨ s.callback = .dropped then
        { s with callback := .none }.queueStream
      else s
  | .flipBegin => if s.flip = .none then { s with flip := .copying } else s
  | .flipClear =>
      if s.flip = .copying then { s with settleRepaint := none, flip := .cleared } else s
  | .flipPublish =>
      if s.flip = .cleared then
        { s with pendingScanout := true, scanQueued := true, flip := .none }
      else s
  | .flipAbort => if s.flip = .copying then { s with flip := .none } else s
  | .scanStart =>
      if s.scanQueued ∧ s.scan = .idle then
        { s with scanQueued := false, scan := if s.kmsActivationReady then .top else .idle }
      else s
  | .scanCheck =>
      if s.scan = .top then
        { s with scan := if s.cmdBusy || s.pendingStream then .idle else .selecting }
      else s
  | .selectScanout budgetWait cadenceDue settleDue sustaining =>
      if s.scan = .selecting then s.selectScanout budgetWait cadenceDue settleDue sustaining else s
  | .scanWake => if s.scan = .waiting then { s with scan := .top } else s
  | .scanLeave =>
      if s.scan = .leaving then
        { s with scan := if s.modesetRequested && s.pendingScanout then .top else .idle }
      else s
  | .claim valid =>
      if s.scan = .holding then
        { s with scan := if valid then .claimed s.keyframePending else .top }
      else s
  | .encode activate fresh moved =>
      match s.scan with
      | .claimed was =>
          let s := if activate then s.activate else s
          let full := s.keyframePending || fresh
          { s with
            dirtyTtl := if full then s.dirtyTtl else chargeDebt damageFrames moved s.dirtyTtl
            scan := .encoding was full }
      | _ => s
  | .finish o sustaining keepalive =>
      match s.scan with
      | .encoding was full => s.finish was full o sustaining keepalive
      | .claimed was =>
          if o = .sent then s else s.finish was s.keyframePending o sustaining keepalive
      | _ => s
  | .timer => if s.cmdArmed then { s with cmdArmed := false, cmdQueued := true } else s
  | .cmdStart =>
      if s.cmdQueued ∧ s.cmd = .idle then
        { s with cmdQueued := false, cmd := if s.kmsActivationReady then .top else .idle }
      else s
  | .cmdDrain =>
      if s.cmd = .top then { s.clearKms with cmd := .drained s.pendingStream } else s
  | .joinCheck =>
      if s.cmd = .drained true ∧ s.modesetRequested = false then { s with cmd := .joining } else s
  | .joinStore =>
      if s.cmd = .joining then { s with modesetRequested := true, cmd := .joined } else s
  | .cmdBusy =>
      match s.cmd with
      | .drained modeset => { s with cmdBusy := modeset, cmd := .executing modeset }
      | .joined => { s with cmdBusy := true, cmd := .executing true }
      | _ => s
  | .activate =>
      if s.cmd = .executing true ∧ s.modesetRequested then s.activate else s
  | .multiheadFail cursor =>
      if s.cmd = .executing true then
        if kmsRetryLimit ≤ s.kmsRetries + 1 then
          { s.clearKms with kmsRetries := 0, cmdBusy := false, cmd := .idle }
        else
          { s with
            pendingStream := true
            pendingCursor := s.pendingCursor || cursor
            kmsRetries := s.kmsRetries + 1
            cmdBusy := false
            cmd := .idle }.enqueueDelayed
      else s
  | .retry stream cursor =>
      match s.cmd with
      | .executing _ =>
          if kmsRetryLimit ≤ s.kmsRetries + 1 then
            { s.clearKms with kmsRetries := 0, cmd := .ending }
          else
            { s with
              pendingStream := s.pendingStream || stream
              pendingCursor := s.pendingCursor || cursor
              kmsRetries := s.kmsRetries + 1
              cmdBusy := false
              cmd := .idle }.enqueueDelayed
      | _ => s
  | .cmdDone rearm =>
      match s.cmd with
      | .executing _ | .ending =>
          let s := { s with cmdBusy := false }
          if rearm then s.queueCursor.cmdDone else s.cmdDone
      | _ => s

/-! ### What is owed, and what carries it -/

/-- The worker's frame goes out as a keyframe if one is owed now. -/
def Scan.carries : Scan → Bool
  | .holding | .claimed _ | .encoding _ true => true
  | _ => false

namespace State

/-- The command item is queued, running or armed for a delayed run. -/
def CmdScheduled (s : State) : Prop := s.cmdQueued = true ∨ s.cmdArmed = true ∨ s.cmd ≠ .idle

/-- One of the two items is queued, running or armed; a worker that serves a settle repaint is a
running one. -/
def ItemScheduled (s : State) : Prop :=
  s.scanQueued = true ∨ s.scan ≠ .idle ∨ s.CmdScheduled

/-- **Every outstanding obligation is scheduled.** -/
def Scheduled (s : State) : Prop :=
  s.kmsActivationReady = true → s.modesetRequested = true →
    s.pendingScanout = true ∨ s.keyframePending = true ∨ s.owesDebt = true → s.ItemScheduled

/-- The connector is asked for, and no disable is about to withdraw that. -/
def Asked (s : State) : Prop := s.modesetRequested = true ∧ s.callback ≠ .cleared

/-- A callback has stored something it has yet to publish or to withdraw. -/
def Midway (s : State) : Prop := s.callback = .enabled ∨ s.callback = .cleared

/-- The connector is asked for, and what asked for it is published. -/
def Announced (s : State) : Prop := s.modesetRequested = true ∧ ¬ s.Midway

/-- A frame besides the one in the worker's hand: pending, armed as a repaint, or being flipped
in. -/
def Spare (s : State) : Prop :=
  s.pendingScanout = true ∨ s.settleRepaint ≠ none ∨ s.flip ≠ .none

/-- A frame that sends a keyframe owed now: a spare one, or one the encoder has not read the
obligation for. -/
def Carrier (s : State) : Prop := s.Spare ∨ s.scan.carries = true

/-- Something is owed to the dock. -/
def Owes (s : State) : Prop := s.keyframePending = true ∨ s.owesDebt = true

instance (s : State) : Decidable s.CmdScheduled := by unfold CmdScheduled; infer_instance

instance (s : State) : Decidable s.ItemScheduled := by unfold ItemScheduled; infer_instance

instance (s : State) : Decidable s.Scheduled := by unfold Scheduled; infer_instance

instance (s : State) : Decidable s.Asked := by unfold Asked; infer_instance

instance (s : State) : Decidable s.Midway := by unfold Midway; infer_instance

instance (s : State) : Decidable s.Announced := by unfold Announced; infer_instance

instance (s : State) : Decidable s.Spare := by unfold Spare; infer_instance

instance (s : State) : Decidable s.Carrier := by unfold Carrier; infer_instance

instance (s : State) : Decidable s.Owes := by unfold Owes; infer_instance

end State

/-- What is asked of a step:

* who owes the connector a keyframe, or asks for the connector with one owed, finds a frame to carry
  it, and a colour change finds a worker scheduled as well,
* a frame that is dropped, declined or fails, a flip that fails, and a disable behind which the
  connector is asked for again, leave another frame for what is still owed,
* the scanout worker does not leave a flip behind that has yet to publish its frame,
* a multihead batch is dropped only while the scanout worker is scheduled. -/
def Event.Served (s : State) : Event → Prop
  | .updateColor => (s.Asked → s.Carrier) ∧ (s.Announced → s.ItemScheduled)
  | .enable => s.callback = .none → s.Owes → s.Carrier
  | .drop => s.callback = .withdrawn → s.Asked → s.Owes →
      { s with pendingScanout := false, settleRepaint := none }.Carrier
  | .joinStore => s.cmd = .joining → s.callback ≠ .cleared → s.Owes → s.Carrier
  | .activate => s.cmd = .executing true → s.Asked → s.Carrier
  | .flipAbort => s.flip = .copying → s.Asked → s.Owes → { s with flip := .none }.Carrier
  | .claim valid => s.scan = .holding → valid = false → s.Asked → s.Owes → s.Spare
  | .finish o sustaining keepalive =>
      match s.scan with
      | .claimed was | .encoding was _ =>
          match o with
          | .sent => True
          | .unsent => s.Asked → s.keyframePending = true →
              (was = true ∧ s.charged sustaining keepalive = true) ∨ s.Spare
          | .failed => s.Asked → s.Owes → s.Spare
      | _ => True
  | .scanLeave => s.scan = .leaving → s.Announced → s.Owes → s.flip ≠ .none →
      s.pendingScanout = true ∨ s.scanQueued = true ∨ s.CmdScheduled
  | .multiheadFail _ => s.cmd = .executing true → kmsRetryLimit ≤ s.kmsRetries + 1 →
      s.Announced → s.pendingScanout = true ∨ s.Owes → s.scanQueued = true ∨ s.scan ≠ .idle
  | _ => True

/-! ### The invariant -/

/-- What holds between any two steps of the callbacks and the workers. -/
structure Inv (s : State) : Prop where
  busy : s.cmdBusy = true → s.cmd ≠ .idle
  stream : s.kmsActivationReady = true → s.pendingStream = true → s.CmdScheduled
  leaving : s.scan = .leaving → s.settleRepaint = none
  claimed : s.scan = .claimed true → s.keyframePending = true
  full : ∀ full, s.scan = .encoding true full → full = true ∧ s.keyframePending = true
  /-- An owed keyframe has a frame that carries it. -/
  keyframe : s.Asked → s.keyframePending = true → s.Carrier
  /-- Debt is paid by the frame in the worker's hand, or by another. -/
  debt : s.Asked → s.owesDebt = true → s.Carrier ∨ ∃ was full, s.scan = .encoding was full
  scheduled : s.kmsActivationReady = true → s.Announced → s.pendingScanout = true ∨ s.Owes →
    s.ItemScheduled

theorem inv_initial : Inv State.initial := by
  constructor <;> simp [State.initial, State.Asked]

variable {s : State} {damageFrames : ℕ}

theorem State.Announced.asked (h : s.Announced) : s.Asked := ⟨h.1, fun hc => h.2 (Or.inr hc)⟩

/-- A frame that carries nothing leaves the spare ones. -/
theorem State.Carrier.spare (h : s.Carrier) (hscan : s.scan.carries = false) : s.Spare := by
  rcases h with h | h
  · exact h
  · rw [hscan] at h
    cases h

theorem Inv.owes (h : Inv s) (hr : s.Asked) (ho : s.Owes) :
    s.Carrier ∨ ∃ was full, s.scan = .encoding was full := by
  rcases ho with hk | hd
  · exact Or.inl (h.keyframe hr hk)
  · exact h.debt hr hd

/-! ### The command worker -/

/-- A step that leaves the frames and what is owed alone. -/
theorem Inv.command (h : Inv s) {ready queued stream cursor cmdQueued armed busy : Bool} {n : ℕ}
    {cmd : Cmd} (hbusy : busy = true → cmd ≠ .idle)
    (hstream : ready = true → stream = true → cmdQueued = true ∨ armed = true ∨ cmd ≠ .idle)
    (hsched : ready = true → s.Announced → s.pendingScanout = true ∨ s.Owes →
        queued = true ∨ s.scan ≠ .idle ∨ cmdQueued = true ∨ armed = true ∨ cmd ≠ .idle) :
    Inv { s with
      kmsActivationReady := ready
      scanQueued := queued
      pendingStream := stream
      pendingCursor := cursor
      kmsRetries := n
      cmdQueued := cmdQueued
      cmdArmed := armed
      cmd := cmd
      cmdBusy := busy } where
  busy := hbusy
  stream := hstream
  leaving := h.leaving
  claimed := h.claimed
  full := h.full
  keyframe := h.keyframe
  debt := h.debt
  scheduled := hsched

theorem Inv.enqueueCmd (h : Inv s) : Inv s.enqueueCmd := by
  unfold State.enqueueCmd
  split
  · exact h
  · exact h.command h.busy (fun _ _ => Or.inl rfl) fun _ _ _ => Or.inr (Or.inr (Or.inl rfl))

/-- Publishing a command: it may wait for bring-up, and wakes the worker behind it. -/
theorem Inv.wakeCmd (h : Inv s) {stream cursor : Bool} :
    Inv { s with pendingStream := stream, pendingCursor := cursor }.wakeCmd := by
  unfold State.wakeCmd State.enqueueCmd
  split
  next hready =>
    split
    next harmed =>
      exact h.command h.busy (fun _ _ => Or.inr (Or.inl harmed)) h.scheduled
    next => exact h.command h.busy (fun _ _ => Or.inl rfl) fun _ _ _ => Or.inr (Or.inr (Or.inl rfl))
  next hready => exact h.command h.busy (fun hr => absurd hr hready) h.scheduled

theorem cmdBusy_wakeCmd (s : State) : s.wakeCmd.cmdBusy = s.cmdBusy := by
  unfold State.wakeCmd State.enqueueCmd
  split_ifs <;> rfl

theorem Inv.publishReady (h : Inv s) : Inv (step damageFrames s .publishReady) := by
  simp only [step]
  split
  next =>
    unfold State.enqueueCmd
    split
    next harmed =>
      exact h.command h.busy (fun _ _ => Or.inr (Or.inl harmed)) fun _ _ _ => Or.inl rfl
    next => exact h.command h.busy (fun _ _ => Or.inl rfl) fun _ _ _ => Or.inl rfl
  next hempty =>
    refine h.command h.busy (fun _ hs => ?_) fun _ _ _ => Or.inl rfl
    simp [hs] at hempty

/-- Commands put back for a delayed run. -/
theorem Inv.enqueueDelayed (h : Inv s) {stream cursor : Bool} {n : ℕ} :
    Inv { s with
      pendingStream := stream
      pendingCursor := cursor
      kmsRetries := n
      cmdBusy := false
      cmd := .idle }.enqueueDelayed := by
  unfold State.enqueueDelayed
  split
  next hq =>
    exact h.command (by simp) (fun _ _ => Or.inl hq) fun _ _ _ => Or.inr (Or.inr (Or.inl hq))
  next =>
    exact h.command (by simp) (fun _ _ => Or.inr (Or.inl rfl))
      fun _ _ _ => Or.inr (Or.inr (Or.inr (Or.inl rfl)))

theorem Inv.cmdDone (h : Inv s) (hbusy : s.cmdBusy = false) : Inv s.cmdDone := by
  unfold State.cmdDone
  split
  next => exact h.command (by simp) (fun _ _ => by simp) fun _ _ _ => by simp
  next hempty =>
    refine h.command (by simp [hbusy]) (fun _ hs => ?_) fun _ _ _ => Or.inl rfl
    simp [hs] at hempty

/-! ### What is owed -/

/-- A keyframe is owed, and the debt it stands for is forgotten. -/
theorem Inv.oweKeyframe (h : Inv s) {n : ℕ} (hcarrier : s.Asked → s.Carrier)
    (hsched : s.Announced → s.ItemScheduled) :
    Inv { s with keyframePending := true, settleBudget := n, dirtyTtl := [] } where
  busy := h.busy
  stream := h.stream
  leaving := h.leaving
  claimed := fun _ => rfl
  full := fun full he => ⟨(h.full full he).1, rfl⟩
  keyframe := fun hr _ => hcarrier hr
  debt := fun _ hd => by simp [State.owesDebt] at hd
  scheduled := fun _ hr _ => hsched hr

/-- An enable stores its mode. -/
theorem Inv.enable (h : Inv s) (he : s.Owes → s.Carrier) :
    Inv { s with modesetRequested := true, callback := .enabled } where
  busy := h.busy
  stream := h.stream
  leaving := h.leaving
  claimed := h.claimed
  full := h.full
  keyframe := fun _ hk => he (Or.inl hk)
  debt := fun _ hd => Or.inl (he (Or.inr hd))
  scheduled := fun _ hr => absurd (Or.inl rfl) hr.2

/-- A disable puts the colours back: it is about to withdraw the request. -/
theorem Inv.disable (h : Inv s) (changed : Bool) :
    Inv { s.updateColor changed with callback := .cleared } := by
  cases changed with
  | false =>
    exact
      { busy := h.busy
        stream := h.stream
        leaving := h.leaving
        claimed := h.claimed
        full := h.full
        keyframe := fun hr => absurd rfl hr.2
        debt := fun hr => absurd rfl hr.2
        scheduled := fun _ hr => absurd (Or.inr rfl) hr.2 }
  | true =>
    exact
      { busy := h.busy
        stream := h.stream
        leaving := h.leaving
        claimed := fun _ => rfl
        full := fun full hf => ⟨(h.full full hf).1, rfl⟩
        keyframe := fun hr => absurd rfl hr.2
        debt := fun hr => absurd rfl hr.2
        scheduled := fun _ hr => absurd (Or.inr rfl) hr.2 }

theorem Inv.withdraw (h : Inv s) :
    Inv { s with modesetRequested := false, callback := .withdrawn } where
  busy := h.busy
  stream := h.stream
  leaving := h.leaving
  claimed := h.claimed
  full := h.full
  keyframe := fun hr => nomatch hr.1
  debt := fun hr => nomatch hr.1
  scheduled := fun _ hr => nomatch hr.1

/-- The frames are dropped: who has asked for the connector since keeps one. -/
theorem Inv.drop (h : Inv s) (hcallback : s.callback = .withdrawn)
    (he : s.Asked → s.Owes → { s with pendingScanout := false, settleRepaint := none }.Carrier) :
    Inv { s with
      pendingScanout := false
      settleRepaint := none
      settleBudget := 0
      dirtyTtl := []
      callback := .dropped } := by
  have hasked : s.modesetRequested = true → s.Asked := fun hr => ⟨hr, by simp [hcallback]⟩
  have hannounced : s.modesetRequested = true → s.Announced := fun hr =>
    ⟨hr, by simp [State.Midway, hcallback]⟩
  exact
    { busy := h.busy
      stream := h.stream
      leaving := fun _ => rfl
      claimed := h.claimed
      full := h.full
      keyframe := fun hr hk => he (hasked hr.1) (Or.inl hk)
      debt := fun _ hd => by simp [State.owesDebt] at hd
      scheduled := by
        rintro hready hr (hp | hk | hd)
        · cases hp
        · exact h.scheduled hready (hannounced hr.1) (Or.inr (Or.inl hk))
        · simp [State.owesDebt] at hd }

/-- The callback publishes its command: from here on the command worker is about. -/
theorem Inv.queueCmd (h : Inv s) (hcallback : s.callback = .enabled ∨ s.callback = .dropped) :
    Inv { s with callback := .none }.queueStream := by
  have hasked : s.modesetRequested = true → s.Asked := fun hr => ⟨hr, by
    rcases hcallback with hc | hc <;> simp [hc]⟩
  have hkeyframe : s.modesetRequested = true → s.keyframePending = true → s.Carrier :=
    fun hr hk => h.keyframe (hasked hr) hk
  have hdebt : s.modesetRequested = true → s.owesDebt = true →
      s.Carrier ∨ ∃ was full, s.scan = .encoding was full := fun hr hd => h.debt (hasked hr) hd
  unfold State.queueStream State.wakeCmd State.enqueueCmd
  split
  next =>
    split
    next harmed =>
      exact ⟨h.busy, fun _ _ => Or.inr (Or.inl harmed), h.leaving, h.claimed, h.full,
        fun hr => hkeyframe hr.1, fun hr => hdebt hr.1,
        fun _ _ _ => Or.inr (Or.inr (Or.inr (Or.inl harmed)))⟩
    next =>
      exact ⟨h.busy, fun _ _ => Or.inl rfl, h.leaving, h.claimed, h.full,
        fun hr => hkeyframe hr.1, fun hr => hdebt hr.1,
        fun _ _ _ => Or.inr (Or.inr (Or.inl rfl))⟩
  next hready =>
    exact ⟨h.busy, fun hr => absurd hr hready, h.leaving, h.claimed, h.full,
      fun hr => hkeyframe hr.1, fun hr => hdebt hr.1, fun hr => absurd hr hready⟩

/-- The command worker asks for the connector. -/
theorem Inv.join (h : Inv s) (he : s.callback ≠ .cleared → s.Owes → s.Carrier) :
    Inv { s with modesetRequested := true, cmd := .joined } where
  busy := fun _ => nofun
  stream := fun _ _ => Or.inr (Or.inr nofun)
  leaving := h.leaving
  claimed := h.claimed
  full := h.full
  keyframe := fun hr hk => he hr.2 (Or.inl hk)
  debt := fun hr hd => Or.inl (he hr.2 (Or.inr hd))
  scheduled := fun _ _ _ => Or.inr (Or.inr (Or.inr (Or.inr nofun)))

/-! ### Flips -/

theorem Inv.flipBegin (h : Inv s) : Inv { s with flip := .copying } where
  busy := h.busy
  stream := h.stream
  leaving := h.leaving
  claimed := h.claimed
  full := h.full
  keyframe := fun _ _ => Or.inl (Or.inr (Or.inr nofun))
  debt := fun _ _ => Or.inl (Or.inl (Or.inr (Or.inr nofun)))
  scheduled := h.scheduled

theorem Inv.flipClear (h : Inv s) : Inv { s with settleRepaint := none, flip := .cleared } where
  busy := h.busy
  stream := h.stream
  leaving := fun _ => rfl
  claimed := h.claimed
  full := h.full
  keyframe := fun _ _ => Or.inl (Or.inr (Or.inr nofun))
  debt := fun _ _ => Or.inl (Or.inl (Or.inr (Or.inr nofun)))
  scheduled := by
    rintro hready hr (hp | ho)
    · exact h.scheduled hready hr (Or.inl hp)
    · exact h.scheduled hready hr (Or.inr ho)

theorem Inv.flipPublish (h : Inv s) :
    Inv { s with pendingScanout := true, scanQueued := true, flip := .none } where
  busy := h.busy
  stream := h.stream
  leaving := h.leaving
  claimed := h.claimed
  full := h.full
  keyframe := fun _ _ => Or.inl (Or.inl rfl)
  debt := fun _ _ => Or.inl (Or.inl (Or.inl rfl))
  scheduled := fun _ _ _ => Or.inl rfl

theorem Inv.flipAbort (h : Inv s)
    (he : s.Asked → s.Owes → { s with flip := .none }.Carrier) :
    Inv { s with flip := .none } where
  busy := h.busy
  stream := h.stream
  leaving := h.leaving
  claimed := h.claimed
  full := h.full
  keyframe := fun hr hk => he hr (Or.inl hk)
  debt := fun hr hd => Or.inl (he hr (Or.inr hd))
  scheduled := h.scheduled

/-! ### The scanout worker -/

/-- The worker goes on without a frame in hand. -/
theorem Inv.go (h : Inv s) {w : Scan} (hidle : w ≠ .idle) (hleaving : w ≠ .leaving)
    (hclaimed : w ≠ .claimed true) (hfull : ∀ full, w ≠ .encoding true full)
    (hspare : s.Asked → s.Owes → s.Spare ∨ w.carries = true) :
    Inv { s with scan := w } where
  busy := h.busy
  stream := h.stream
  leaving := fun he => absurd he hleaving
  claimed := fun he => absurd he hclaimed
  full := fun full he => absurd he (hfull full)
  keyframe := fun hr hk => hspare hr (Or.inl hk)
  debt := fun hr hd => Or.inl (hspare hr (Or.inr hd))
  scheduled := fun _ _ _ => Or.inr (Or.inl hidle)

/-- Between two frames, what is owed has a spare frame. -/
theorem Inv.spare (h : Inv s) (hscan : s.scan.carries = false)
    (henc : ∀ was full, s.scan ≠ .encoding was full) (hr : s.Asked)
    (ho : s.Owes) : s.Spare := by
  rcases h.owes hr ho with hc | ⟨was, full, he⟩
  · exact hc.spare hscan
  · exact absurd he (henc was full)

theorem Inv.scanStart (h : Inv s) (hidle : s.scan = .idle) :
    Inv { s with
      scanQueued := false
      scan := if s.kmsActivationReady then .top else .idle } := by
  have hspare := h.spare (by rw [hidle]; rfl) (by simp [hidle])
  by_cases hready : s.kmsActivationReady = true
  · rw [if_pos hready]
    exact
      { busy := h.busy
        stream := h.stream
        leaving := fun he => by cases he
        claimed := fun he => by cases he
        full := fun _ he => by cases he
        keyframe := fun hr hk => Or.inl (hspare hr (Or.inl hk))
        debt := fun hr hd => Or.inl (Or.inl (hspare hr (Or.inr hd)))
        scheduled := fun _ _ _ => Or.inr (Or.inl (by simp)) }
  · rw [if_neg hready]
    exact
      { busy := h.busy
        stream := h.stream
        leaving := fun he => by cases he
        claimed := fun he => by cases he
        full := fun _ he => by cases he
        keyframe := fun hr hk => Or.inl (hspare hr (Or.inl hk))
        debt := fun hr hd => Or.inl (Or.inl (hspare hr (Or.inr hd)))
        scheduled := fun hr => absurd hr hready }

/-- The worker exits: what it leaves behind is scheduled elsewhere. -/
theorem Inv.exit (h : Inv s) (hscan : s.scan.carries = false)
    (henc : ∀ was full, s.scan ≠ .encoding was full)
    (hsched : s.kmsActivationReady = true → s.Announced → s.pendingScanout = true ∨ s.Owes →
        s.scanQueued = true ∨ s.CmdScheduled) : Inv { s with scan := .idle } where
  busy := h.busy
  stream := h.stream
  leaving := fun he => by cases he
  claimed := fun he => by cases he
  full := fun _ he => by cases he
  keyframe := fun hr hk => Or.inl (h.spare hscan henc hr (Or.inl hk))
  debt := fun hr hd => Or.inl (Or.inl (h.spare hscan henc hr (Or.inr hd)))
  scheduled := fun hready hr ho =>
    (hsched hready hr ho).elim Or.inl fun hc => Or.inr (Or.inr hc)

theorem Inv.scanCheck (h : Inv s) (htop : s.scan = .top) :
    Inv { s with scan := if s.cmdBusy || s.pendingStream then .idle else .selecting } := by
  have hcarries : s.scan.carries = false := by rw [htop]; rfl
  have henc : ∀ was full, s.scan ≠ .encoding was full := by simp [htop]
  split
  next hblocked =>
    -- The command worker is about, and wakes this one when its batch is through.
    refine h.exit hcarries henc fun hready _ _ => Or.inr ?_
    rcases Bool.or_eq_true_iff.1 hblocked with hbusy | hstream
    · exact Or.inr (Or.inr (h.busy hbusy))
    · exact h.stream hready hstream
  next =>
    exact h.go nofun nofun nofun nofun fun hr ho => Or.inl (h.spare hcarries henc hr ho)

theorem Inv.scanLeave (h : Inv s) (hleaving : s.scan = .leaving) (he : Event.scanLeave.Served s) :
    Inv { s with scan := if s.modesetRequested && s.pendingScanout then .top else .idle } := by
  have hcarries : s.scan.carries = false := by rw [hleaving]; rfl
  have henc : ∀ was full, s.scan ≠ .encoding was full := by simp [hleaving]
  split
  next => exact h.go nofun nofun nofun nofun fun hr ho => Or.inl (h.spare hcarries henc hr ho)
  next hnone =>
    refine h.exit hcarries henc fun hready hr howed => ?_
    have hpending : s.pendingScanout ≠ true := fun hp => hnone (by simp [hr.1, hp])
    have hsettle := h.leaving hleaving
    have ho : s.Owes := howed.resolve_left hpending
    -- Only a flip that has yet to publish can carry what is owed.
    have hflip : s.flip ≠ .none := by
      rcases h.spare hcarries henc hr.asked ho with hp | hs | hf
      · exact absurd hp hpending
      · exact absurd hsettle hs
      · exact hf
    exact (he hleaving hr ho hflip).resolve_left hpending

theorem Inv.selectScanout (h : Inv s) (hscan : s.scan = .selecting)
    (budgetWait cadenceDue settleDue sustaining : Bool) :
    Inv (s.selectScanout budgetWait cadenceDue settleDue sustaining) := by
  have hcarries : s.scan.carries = false := by rw [hscan]; rfl
  have henc : ∀ was full, s.scan ≠ .encoding was full := by simp [hscan]
  have hspare := h.spare hcarries henc
  have hwait : Inv { s with scan := .waiting } :=
    h.go nofun nofun nofun nofun fun hr ho => Or.inl (hspare hr ho)
  -- A frame in hand carries whatever is owed.
  have hhold : ∀ (pending keyframe : Bool) (settle : Option Bool), Inv { s with
      pendingScanout := pending
      settleRepaint := settle
      keyframePending := keyframe
      scan := .holding } := fun pending keyframe settle =>
    { busy := h.busy
      stream := h.stream
      leaving := fun he => by cases he
      claimed := fun he => by cases he
      full := fun _ he => by cases he
      keyframe := fun _ _ => Or.inr rfl
      debt := fun _ _ => Or.inl (Or.inr rfl)
      scheduled := fun _ _ _ => Or.inr (Or.inl nofun) }
  unfold State.selectScanout
  split
  next => exact hwait
  next =>
    split
    next => exact hhold false _ s.settleRepaint
    next =>
      split
      next hr =>
        exact
          { busy := h.busy
            stream := h.stream
            leaving := fun _ => rfl
            claimed := fun he => by cases he
            full := fun _ he => by cases he
            keyframe := fun hr' => absurd hr'.1 (by simpa using hr)
            debt := fun hr' => absurd hr'.1 (by simpa using hr)
            scheduled := fun _ _ _ => Or.inr (Or.inl nofun) }
      next =>
        split
        next =>
          split
          next => exact hhold s.pendingScanout _ none
          next => exact hwait
        next hsettle =>
          split
          next => exact hwait
          next =>
            exact
              { busy := h.busy
                stream := h.stream
                leaving := fun _ => hsettle
                claimed := fun he => by cases he
                full := fun _ he => by cases he
                keyframe := fun hr hk => Or.inl (hspare hr (Or.inl hk))
                debt := fun hr hd => Or.inl (Or.inl (hspare hr (Or.inr hd)))
                scheduled := fun _ _ _ => Or.inr (Or.inl nofun) }

theorem Inv.claim (h : Inv s) {valid : Bool}
    (he : valid = false → s.Asked → s.Owes → s.Spare) :
    Inv { s with scan := if valid then .claimed s.keyframePending else .top } := by
  cases valid with
  | false => exact h.go nofun nofun nofun nofun fun hr ho => Or.inl (he rfl hr ho)
  | true =>
    exact
      { busy := h.busy
        stream := h.stream
        leaving := fun he => by cases he
        claimed := fun he => by injection he
        full := fun _ he => by cases he
        keyframe := fun _ _ => Or.inr rfl
        debt := fun _ _ => Or.inl (Or.inr rfl)
        scheduled := fun _ _ _ => Or.inr (Or.inl nofun) }

/-- The encoder has read what is owed: a frame goes out full if a keyframe is. -/
theorem Inv.encode (h : Inv s) {was fresh : Bool} (hwas : was = true → s.keyframePending = true)
    {debt : List ℕ} :
    Inv { s with dirtyTtl := debt, scan := .encoding was (s.keyframePending || fresh) } where
  busy := h.busy
  stream := h.stream
  leaving := fun he => by cases he
  claimed := fun he => by cases he
  full := by
    intro full he
    injection he with hw hf
    exact ⟨by simp [← hf, hwas hw], hwas hw⟩
  keyframe := by
    intro _ hk
    right
    simp [show s.keyframePending = true from hk, Scan.carries]
  debt := fun _ _ => Or.inr ⟨_, _, rfl⟩
  scheduled := fun _ _ _ => Or.inr (Or.inl nofun)

/-- What `arm` leaves: the worker's part is untouched, and a repaint that was armed stays. -/
theorem arm_cases (s : State) (was sustaining keepalive : Bool) :
    ∃ settle budget, s.arm was sustaining keepalive =
        { s with settleRepaint := settle, settleBudget := budget } ∧
      (s.settleRepaint ≠ none → settle ≠ none) ∧
      (was = true → s.charged sustaining keepalive = true → settle ≠ none) ∧
      (was = false → s.owesDebt = true → settle ≠ none) := by
  unfold State.arm State.charged
  cases was with
  | true =>
    rw [if_pos rfl]
    split
    next => exact ⟨some true, s.settleBudget, rfl, nofun, nofun, nofun⟩
    next hexempt =>
      split
      next => exact ⟨some false, s.settleBudget - 1, rfl, nofun, nofun, nofun⟩
      next hbudget =>
        refine ⟨s.settleRepaint, s.settleBudget, rfl, id, fun _ hc => ?_, nofun⟩
        simp_all
  | false =>
    rw [if_neg (by simp)]
    split
    next => exact ⟨some false, s.settleBudget, rfl, nofun, nofun, nofun⟩
    next hdebt =>
      exact ⟨s.settleRepaint, s.settleBudget, rfl, id, nofun, fun _ hd => absurd hd hdebt⟩

/-- The frame is done with, and a repaint armed where one is due. -/
theorem inv_arm (hbusy : s.cmdBusy = true → s.cmd ≠ .idle)
    (hstream : s.kmsActivationReady = true → s.pendingStream = true → s.CmdScheduled)
    {was sustaining keepalive : Bool}
    (hkeyframe : s.Asked → s.keyframePending = true →
      (was = true ∧ s.charged sustaining keepalive = true) ∨ s.Spare)
    (hdebt : s.Asked → s.owesDebt = true → was = false ∨
      (was = true ∧ s.charged sustaining keepalive = true) ∨ s.Spare) :
    Inv { s.arm was sustaining keepalive with scan := .top } := by
  obtain ⟨settle, budget, heq, hkept, hcharged, howed⟩ := arm_cases s was sustaining keepalive
  rw [heq]
  have hspare : s.Spare → State.Spare
      { s with settleRepaint := settle, settleBudget := budget, scan := .top } := by
    rintro (hp | hs | hf)
    · exact Or.inl hp
    · exact Or.inr (Or.inl (hkept hs))
    · exact Or.inr (Or.inr hf)
  exact
    { busy := hbusy
      stream := hstream
      leaving := fun he => by cases he
      claimed := fun he => by cases he
      full := fun _ he => by cases he
      keyframe := fun hr hk => by
        rcases hkeyframe hr hk with ⟨hw, hc⟩ | hs
        · exact Or.inl (Or.inr (Or.inl (hcharged hw hc)))
        · exact Or.inl (hspare hs)
      debt := fun hr hd => by
        rcases hdebt hr hd with hw | ⟨hw, hc⟩ | hs
        · exact Or.inl (Or.inl (Or.inr (Or.inl (howed hw hd))))
        · exact Or.inl (Or.inl (Or.inr (Or.inl (hcharged hw hc))))
        · exact Or.inl (Or.inl (hspare hs))
      scheduled := fun _ _ _ => Or.inr (Or.inl nofun) }

theorem owesDebt_paid (debt : List ℕ) : (payDamageDebt true debt).any (0 < ·) = false := by
  simp [payDamageDebt]

/-- A frame that was submitted: a full one settles everything, a delta leaves what was owed behind
its back to a spare frame. -/
theorem Inv.finish_sent (h : Inv s) {was full sustaining keepalive : Bool}
    (hscan : s.scan = .encoding was full) :
    Inv (s.finish was full .sent sustaining keepalive) := by
  cases full with
  | true =>
    refine inv_arm (s := s.pay true) h.busy h.stream (fun _ hk => by simp [State.pay] at hk) ?_
    intro _ hd
    cases (owesDebt_paid s.dirtyTtl).symm.trans hd
  | false =>
    have hwas : was = false := by
      by_contra hw
      have := (h.full false (by rw [hscan]; simpa using hw)).1
      cases this
    refine inv_arm (s := s.pay false) h.busy h.stream ?_ fun _ _ => Or.inl hwas
    intro hr hk
    exact Or.inr ((h.keyframe hr hk).spare (by rw [hscan]; rfl))

/-- A frame a gate of the encoder declined. -/
theorem Inv.finish_unsent (h : Inv s) {was full sustaining keepalive : Bool}
    (hwas : was = true → s.keyframePending = true)
    (he : s.Asked → s.keyframePending = true →
      (was = true ∧ s.charged sustaining keepalive = true) ∨ s.Spare) :
    Inv (s.finish was full .unsent sustaining keepalive) := by
  refine inv_arm h.busy h.stream he fun hr _ => ?_
  cases was with
  | false => exact Or.inl rfl
  | true => exact Or.inr (he hr (hwas rfl))

theorem Inv.finish_failed (h : Inv s) {was full sustaining keepalive : Bool}
    (he : s.Asked → s.Owes → s.Spare) :
    Inv (s.finish was full .failed sustaining keepalive) :=
  h.go nofun nofun nofun nofun fun hr ho => Or.inl (he hr ho)

theorem Inv.finish (h : Inv s) {o : Outcome} {sustaining keepalive : Bool}
    (he : (Event.finish o sustaining keepalive).Served s) :
    Inv (step damageFrames s (.finish o sustaining keepalive)) := by
  simp only [step]
  simp only [Event.Served] at he
  split
  next was full hscan =>
    rw [hscan] at he
    cases o with
    | sent => exact h.finish_sent hscan
    | unsent =>
      refine h.finish_unsent (fun hw => ?_) he
      exact (h.full full (by rw [hscan, hw])).2
    | failed => exact h.finish_failed he
  next was hscan =>
    rw [hscan] at he
    cases o with
    | sent => exact h
    | unsent =>
      rw [if_neg nofun]
      refine h.finish_unsent (fun hw => ?_) he
      exact h.claimed (by rw [hscan, hw])
    | failed =>
      rw [if_neg nofun]
      exact h.finish_failed he
  next => exact h

/-! ### Runs -/

theorem inv_step {e : Event} (h : Inv s) (he : e.Served s) : Inv (step damageFrames s e) := by
  cases e with
  | publishReady => exact h.publishReady
  | abandon => exact h.command h.busy nofun nofun
  | queueCursor => exact h.wakeCmd
  | queueSibling => exact h.wakeCmd
  | enqueueScanout => exact h.command h.busy h.stream fun _ _ _ => Or.inl rfl
  | updateColor => exact h.oweKeyframe he.1 he.2
  | enable =>
    simp only [step]
    split
    next hc => exact h.enable (he hc)
    next => exact h
  | disable changed =>
    simp only [step]
    split
    · exact h.disable changed
    · exact h
  | withdraw =>
    simp only [step]
    split
    · exact h.withdraw
    · exact h
  | drop =>
    simp only [step]
    split
    next hc => exact h.drop hc (he hc)
    next => exact h
  | queueCmd =>
    simp only [step]
    split
    next hc => exact h.queueCmd hc
    next => exact h
  | flipBegin =>
    simp only [step]
    split
    · exact h.flipBegin
    · exact h
  | flipClear =>
    simp only [step]
    split
    · exact h.flipClear
    · exact h
  | flipPublish =>
    simp only [step]
    split
    · exact h.flipPublish
    · exact h
  | flipAbort =>
    simp only [step]
    split
    next hf => exact h.flipAbort (he hf)
    next => exact h
  | scanStart =>
    simp only [step]
    split
    next hs => exact h.scanStart hs.2
    next => exact h
  | scanCheck =>
    simp only [step]
    split
    next hs => exact h.scanCheck hs
    next => exact h
  | selectScanout budgetWait cadenceDue settleDue sustaining =>
    simp only [step]
    split
    next hs => exact h.selectScanout hs budgetWait cadenceDue settleDue sustaining
    next => exact h
  | scanWake =>
    simp only [step]
    split
    next hs =>
      have hspare := h.spare (by rw [hs]; rfl) (by simp [hs])
      exact h.go nofun nofun nofun nofun fun hr ho => Or.inl (hspare hr ho)
    next => exact h
  | scanLeave =>
    simp only [step]
    split
    next hs => exact h.scanLeave hs he
    next => exact h
  | claim valid =>
    simp only [step]
    split
    next hs => exact h.claim (he hs)
    next => exact h
  | encode activate fresh moved =>
    simp only [step]
    split
    next was hs =>
      have hwas : was = true → s.keyframePending = true := fun hw => h.claimed (by rw [hs, hw])
      cases activate with
      | false => exact h.encode hwas
      | true =>
        have hact : Inv s.activate :=
          h.oweKeyframe (fun _ => Or.inr (by rw [hs]; rfl)) fun _ => Or.inr (Or.inl (by simp [hs]))
        exact hact.encode fun _ => rfl
    next => exact h
  | finish o sustaining keepalive => exact h.finish he
  | timer =>
    simp only [step]
    split
    · exact h.command h.busy (fun _ _ => Or.inl rfl) fun _ _ _ => Or.inr (Or.inr (Or.inl rfl))
    · exact h
  | cmdStart =>
    simp only [step]
    split
    next hs =>
      split
      next => exact h.command nofun (fun _ _ => by simp) fun _ _ _ => by simp
      next hready =>
        refine h.command (fun hb => ?_) (fun hr => absurd hr hready) fun hr => absurd hr hready
        exact absurd hs.2 (h.busy hb)
    next => exact h
  | cmdDrain =>
    simp only [step]
    split
    · exact h.command nofun nofun fun _ _ _ => by simp
    · exact h
  | joinCheck =>
    simp only [step]
    split
    · exact h.command nofun (fun _ _ => by simp) fun _ _ _ => by simp
    · exact h
  | joinStore =>
    simp only [step]
    split
    next hs => exact h.join (he hs)
    next => exact h
  | cmdBusy =>
    simp only [step]
    split
    · exact h.command nofun (fun _ _ => by simp) fun _ _ _ => by simp
    · exact h.command nofun (fun _ _ => by simp) fun _ _ _ => by simp
    · exact h
  | activate =>
    simp only [step]
    split
    next hs =>
      refine h.oweKeyframe (he hs.1) fun _ => ?_
      exact Or.inr (Or.inr (Or.inr (Or.inr (by simp [hs.1]))))
    next => exact h
  | multiheadFail cursor =>
    simp only [step]
    split
    next hs =>
      split
      next hlimit =>
        refine h.command nofun nofun fun _ hr howed => ?_
        rcases he hs hlimit hr howed with hq | hscan
        · exact Or.inl hq
        · exact Or.inr (Or.inl hscan)
      next => exact h.enqueueDelayed
    next => exact h
  | retry stream cursor =>
    simp only [step]
    split
    · split
      · exact h.command nofun nofun fun _ _ _ => by simp
      · exact h.enqueueDelayed
    · exact h
  | cmdDone rearm =>
    have hidle : Inv { s with cmdBusy := false } := h.command nofun h.stream h.scheduled
    have hdone : Inv (if rearm then { s with cmdBusy := false }.queueCursor.cmdDone
        else { s with cmdBusy := false }.cmdDone) := by
      cases rearm with
      | false => exact hidle.cmdDone rfl
      | true => exact hidle.wakeCmd.cmdDone (cmdBusy_wakeCmd _)
    simp only [step]
    split
    · exact hdone
    · exact hdone
    · exact h

/-- **Everything owed is scheduled**, wherever no callback has yet to publish it. -/
theorem owed_scheduled (damageFrames : ℕ) (es : List Event)
    (h : Along (fun s e => e.Served s) (step damageFrames) State.initial es)
    (hpublished : ¬ (run (step damageFrames) State.initial es).Midway) :
    (run (step damageFrames) State.initial es).Scheduled := by
  have hinv : Inv (run (step damageFrames) State.initial es) :=
    run_invariant (P := Inv) (fun _ _ => inv_step) es State.initial inv_initial h
  exact fun hready hrequested howed => hinv.scheduled hready ⟨hrequested, hpublished⟩ howed

/-! ### A desktop that stops moving -/

instance decidableServed (s : State) : ∀ e : Event, Decidable (e.Served s)
  | .updateColor =>
      inferInstanceAs (Decidable ((s.Asked → s.Carrier) ∧ (s.Announced → s.ItemScheduled)))
  | .enable => inferInstanceAs (Decidable (s.callback = .none → s.Owes → s.Carrier))
  | .drop =>
      inferInstanceAs (Decidable (s.callback = .withdrawn → s.Asked → s.Owes →
        { s with pendingScanout := false, settleRepaint := none }.Carrier))
  | .joinStore =>
      inferInstanceAs (Decidable (s.cmd = .joining → s.callback ≠ .cleared → s.Owes → s.Carrier))
  | .activate => inferInstanceAs (Decidable (s.cmd = .executing true → s.Asked → s.Carrier))
  | .flipAbort =>
      inferInstanceAs (Decidable (s.flip = .copying → s.Asked → s.Owes →
        { s with flip := .none }.Carrier))
  | .claim valid =>
      inferInstanceAs (Decidable (s.scan = .holding → valid = false → s.Asked → s.Owes → s.Spare))
  | .finish o sustaining keepalive => by
      unfold Event.Served
      dsimp only
      split <;> first | infer_instance | (split <;> infer_instance)
  | .scanLeave =>
      inferInstanceAs (Decidable (s.scan = .leaving → s.Announced → s.Owes → s.flip ≠ .none →
        s.pendingScanout = true ∨ s.scanQueued = true ∨ s.CmdScheduled))
  | .multiheadFail _ =>
      inferInstanceAs (Decidable (s.cmd = .executing true → kmsRetryLimit ≤ s.kmsRetries + 1 →
        s.Announced → s.pendingScanout = true ∨ s.Owes → s.scanQueued = true ∨ s.scan ≠ .idle))
  | .publishReady | .abandon | .queueCursor | .queueSibling | .enqueueScanout | .disable _
  | .withdraw | .queueCmd | .flipBegin | .flipClear | .flipPublish | .scanStart | .scanCheck
  | .selectScanout .. | .scanWake | .encode .. | .timer | .cmdStart | .cmdDrain | .joinCheck
  | .cmdBusy | .retry .. | .cmdDone _ => .isTrue trivial

/-- A display is lit under a pending frame, which goes out as its keyframe; the settle repaint
behind it has nothing left to send, and both workers go idle. -/
def lit : List Event :=
  [.publishReady, .flipBegin, .flipClear, .flipPublish, .enable, .queueCmd, .cmdStart, .cmdDrain,
    .cmdBusy, .activate, .cmdDone false, .scanStart, .scanCheck,
    .selectScanout false true false false, .claim true, .encode false false [true, true],
    .finish .sent false false, .scanCheck, .selectScanout false false true false, .claim true,
    .encode false false [false, false], .finish .unsent false false, .scanCheck,
    .selectScanout false false false false, .scanLeave]

/-- It is turned off, which puts its colours back, and on again under another frame. -/
def relit : List Event :=
  lit ++ ([.disable true, .withdraw, .drop, .queueCmd, .cmdStart, .cmdDrain, .cmdBusy,
    .cmdDone false, .flipBegin, .flipClear, .flipPublish, .enable, .queueCmd, .cmdStart, .cmdDrain,
    .cmdBusy] : List Event)

theorem owed_scheduled_relit :
    (run (step 3) State.initial lit).keyframePending = false ∧
      (run (step 3) State.initial relit).keyframePending = true ∧
      (run (step 3) State.initial relit).modesetRequested = true ∧
      (run (step 3) State.initial relit).Scheduled :=
  ⟨by decide +kernel, by decide +kernel, by decide +kernel,
    owed_scheduled 3 relit (by decide +kernel) (by decide +kernel)⟩

/-- **A recoloured still desktop.**  The colour change owes a keyframe, both workers are idle, no
callback is under way and no settle repaint is armed: the screen keeps the old colours until the
next flip. -/
theorem recolour_unscheduled :
    ¬ (run (step 3) State.initial (lit ++ [.updateColor])).Scheduled ∧
      (run (step 3) State.initial (lit ++ [.updateColor])).settleRepaint = none ∧
      (run (step 3) State.initial (lit ++ [.updateColor])).callback = .none :=
  ⟨by decide +kernel, by decide +kernel, by decide +kernel⟩

end Vino.Kms.Schedule
