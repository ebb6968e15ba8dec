import Vino.Lib.Run

/-!
# Commands and Video Exclude Each Other

Four scanout workers and the command worker share the dock.  A scanout worker raises
`video_inflight` for its connector before it looks at `cmd_busy` and the mailbox, and the command
worker raises `cmd_busy` behind draining a batch with a stream command, before it looks at
`video_inflight`; its wait is bounded.  Every load and store is a step of its own, and callbacks
publish at any point.

* `commands_exclude_video`: in every run, while such a batch is executed whose wait did not time
  out, no scanout worker selects or transfers a frame; and `cmd_busy` is down whenever the command
  worker has no such batch in hand, unless the outputs are being parked.
-/

namespace Vino.Kms.Exclusion

open Vino.Lib.Run

local instance neZero_four : NeZero 4 := ⟨by decide⟩

/-! ### The workers -/

/-- Where a scanout worker is. -/
inductive Scan where
  | idle
  /-- At the top of the loop. -/
  | top
  /-- `video_inflight` is raised. -/
  | claimed
  /-- `cmd_busy` was down; the mailbox is next. -/
  | looking
  /-- There is a reason not to use the endpoint. -/
  | blocked
  | selecting
  /-- In `run_pending_scanout`. -/
  | transferring
  /-- The frame is through. -/
  | sent
  /-- No frame was selected; it may sleep for one. -/
  | empty (wait : Bool)
  | sleeping
  /-- One more look at the pending slot. -/
  | leaving
  deriving DecidableEq

/-- The endpoint is claimed. -/
def Scan.claims : Scan → Bool
  | claimed | looking | blocked | selecting | transferring | sent | empty _ => true
  | _ => false

/-- It may use the endpoint, or is about to. -/
def Scan.uses : Scan → Bool
  | looking | selecting | transferring => true
  | _ => false

theorem Scan.claims_of_uses {scan : Scan} (h : scan.uses = true) : scan.claims = true := by
  cases scan with
  | looking | selecting | transferring => rfl
  | _ => cases h

/-- Rounds of `wait_for_video_idle`. -/
def idleRounds : ℕ := 500

/-- Deferrals after which a batch is dropped. -/
def kmsRetryLimit : ℕ := 128

/-- Stream commands, by connector, and other ones. -/
structure Mailbox where
  stream : Fin 4 → Bool
  other : Bool

namespace Mailbox

def empty : Mailbox := ⟨fun _ => false, false⟩

def hasStream (m : Mailbox) : Bool := (List.finRange 4).any m.stream

def isEmpty (m : Mailbox) : Bool := !m.hasStream && !m.other

/-- Commands go back, behind newer ones. -/
def putBack (m batch : Mailbox) : Mailbox := ⟨fun c => m.stream c || batch.stream c,
  m.other || batch.other⟩

end Mailbox

/-- Where the command worker is. -/
inductive Cmd where
  | idle
  | top
  /-- A batch is taken, and looked through. -/
  | drained (batch : Mailbox)
  /-- `cmd_busy` is raised; `wait_for_video_idle` reads the flag of a connector, `rounds` before it
  gives up. -/
  | waiting (batch : Mailbox) (rounds : ℕ) (connector : ℕ)
  /-- The batch is carried out; `late` says that the wait timed out. -/
  | executing (batch : Mailbox) (late : Bool)
  /-- A multihead activation has failed and `cmd_busy` is down again: the batch goes back. -/
  | deferring (batch : Mailbox)
  /-- The batch is through, or a command failed and is back in the mailbox; the worker comes back
  later if `again`. -/
  | stopping (batch : Mailbox) (again : Bool)
  /-- `cmd_busy` is down again. -/
  | ended (again : Bool)

structure State where
  kmsActivationReady : Bool
  shuttingDown : Bool
  videoInflight : Fin 4 → Bool
  cmdBusy : Bool
  pendingKms : Mailbox
  kmsRetries : ℕ
  scan : Fin 4 → Scan
  cmd : Cmd
  /-- `park_sinks` has raised `cmd_busy` for the teardown. -/
  parked : Bool

def State.initial : State where
  kmsActivationReady := false
  shuttingDown := false
  videoInflight := fun _ => false
  cmdBusy := false
  pendingKms := .empty
  kmsRetries := 0
  scan := fun _ => .idle
  cmd := .idle
  parked := false

/-- What `select_scanout` comes back with. -/
inductive Selection where
  | frame
  | wait
  | nothing
  deriving DecidableEq

inductive Event where
  | publishReady
  | shutDown
  /-- A callback publishes a stream command, or another one. -/
  | publish (connector : Fin 4)
  | publishOther
  | park
  /-- A queued work item is started. -/
  | scanStart (connector : Fin 4)
  | cmdStart
  /-- The next step of a scanout worker: what it selects, and whether a frame is pending. -/
  | scan (connector : Fin 4) (selection : Selection) (pending : Bool)
  /-- The next step of the command worker short of the end of a batch. -/
  | cmd
  /-- A multihead activation of the batch fails. -/
  | multiheadFail
  /-- A command fails and goes back with what is behind it. -/
  | retry (rest : Mailbox)
  /-- The batch is through; the cursor it replays is published like any other. -/
  | done

/-! ### One step -/

namespace State

variable (s : State)

def setScan (c : Fin 4) (scan : Scan) : State := { s with scan := Function.update s.scan c scan }

def setInflight (c : Fin 4) (raised : Bool) : State :=
  { s with videoInflight := Function.update s.videoInflight c raised }

/-- `run_scanout_worker`. -/
def scanStep (c : Fin 4) (selection : Selection) (pending : Bool) : State :=
  match s.scan c with
  | .idle => s
  | .top => if s.shuttingDown then s.setScan c .idle else (s.setInflight c true).setScan c .claimed
  | .claimed => s.setScan c (if s.cmdBusy then .blocked else .looking)
  | .looking => s.setScan c (if s.pendingKms.hasStream then .blocked else .selecting)
  | .blocked => (s.setInflight c false).setScan c .idle
  | .selecting => s.setScan c (match selection with
      | .frame => .transferring
      | .wait => .empty true
      | .nothing => .empty false)
  | .transferring => s.setScan c .sent
  | .sent => (s.setInflight c false).setScan c .top
  | .empty wait => (s.setInflight c false).setScan c (if wait then .sleeping else .leaving)
  | .sleeping => s.setScan c .top
  | .leaving => s.setScan c (if pending then .top else .idle)

/-- The command worker, up to the batch being carried out, and behind its end. -/
def cmdStep : State :=
  match s.cmd with
  | .idle => s
  | .top =>
      if s.shuttingDown then { s with cmd := .idle }
      else { s with pendingKms := .empty, cmd := .drained s.pendingKms }
  | .drained batch =>
      if batch.hasStream then { s with cmdBusy := true, cmd := .waiting batch idleRounds 0 }
      else { s with cmd := .executing batch false }
  | .waiting batch 0 _ => { s with cmd := .executing batch true }
  | .waiting batch (rounds + 1) c =>
      if h : c < 4 then
        { s with
          cmd := if s.videoInflight ⟨c, h⟩ then .waiting batch rounds 0
            else .waiting batch (rounds + 1) (c + 1) }
      else { s with cmd := .executing batch false }
  | .executing .. => s
  | .deferring batch =>
      if kmsRetryLimit ≤ s.kmsRetries + 1 then
        { s with pendingKms := .empty, kmsRetries := 0, cmd := .idle }
      else
        { s with
          pendingKms := s.pendingKms.putBack batch
          kmsRetries := s.kmsRetries + 1
          cmd := .idle }
  | .stopping batch again =>
      { s with cmdBusy := s.cmdBusy && !batch.hasStream, cmd := .ended again }
  | .ended true => { s with cmd := .idle }
  | .ended false =>
      { s with kmsRetries := 0, cmd := if s.pendingKms.isEmpty then .idle else .top }

end State

/-- One step of a callback or of a worker; a step that is not due changes nothing. -/
def step (s : State) : Event → State
  | .publishReady => { s with kmsActivationReady := true }
  | .shutDown => { s with shuttingDown := true }
  | .publish c =>
      { s with
        pendingKms := { s.pendingKms with stream := Function.update s.pendingKms.stream c true } }
  | .publishOther => { s with pendingKms := { s.pendingKms with other := true } }
  | .park => { s with cmdBusy := true, parked := true }
  | .scanStart c =>
      if s.scan c = .idle ∧ s.kmsActivationReady then s.setScan c .top else s
  | .cmdStart =>
      match s.cmd with
      | .idle => if s.kmsActivationReady then { s with cmd := .top } else s
      | _ => s
  | .scan c selection pending => s.scanStep c selection pending
  | .cmd => s.cmdStep
  | .multiheadFail =>
      match s.cmd with
      | .executing batch _ =>
          { s with cmdBusy := s.cmdBusy && !batch.hasStream, cmd := .deferring batch }
      | _ => s
  | .retry rest =>
      match s.cmd with
      | .executing batch _ =>
          if kmsRetryLimit ≤ s.kmsRetries + 1 then
            { s with pendingKms := .empty, kmsRetries := 0, cmd := .stopping batch false }
          else
            { s with
              pendingKms := s.pendingKms.putBack rest
              kmsRetries := s.kmsRetries + 1
              cmd := .stopping batch true }
      | _ => s
  | .done =>
      match s.cmd with
      | .executing batch _ => { s with cmd := .stopping batch false }
      | _ => s

/-! ### The handshake -/

/-- A batch with a stream command is in hand, behind the store of `cmd_busy`. -/
def Cmd.holds : Cmd → Bool
  | waiting .. => true
  | executing batch _ | stopping batch _ => batch.hasStream
  | _ => false

/-- The wait has seen the flag of the connector down. -/
def Cmd.passed (c : Fin 4) : Cmd → Bool
  | waiting _ _ k => c.1 < k
  | executing batch late => batch.hasStream && !late
  | _ => false

structure Inv (s : State) : Prop where
  inflight : ∀ c, s.videoInflight c = (s.scan c).claims
  raised : s.cmd.holds = true → s.cmdBusy = true
  down : s.cmdBusy = true → s.cmd.holds = true ∨ s.parked = true
  waiting : ∀ batch rounds k, s.cmd = .waiting batch rounds k → batch.hasStream = true
  clear : ∀ c, s.cmd.passed c = true → (s.scan c).uses = false

theorem passed_holds {cmd : Cmd} {c : Fin 4} (h : cmd.passed c = true) : cmd.holds = true := by
  cases cmd with
  | waiting => rfl
  | executing batch late =>
      simp only [Cmd.passed, Bool.and_eq_true] at h
      exact h.1
  | _ => cases h

variable {s : State}

/-- A scanout worker moves on, and does not use an endpoint the wait has passed. -/
theorem Inv.move (h : Inv s) {c : Fin 4} {inflight : Bool} {scan : Scan}
    (hinflight : inflight = scan.claims) (huses : s.cmdBusy = true → scan.uses = true →
      (s.scan c).uses = true) :
    Inv { s with
      videoInflight := Function.update s.videoInflight c inflight
      scan := Function.update s.scan c scan } := by
  refine ⟨fun c' => ?_, h.raised, h.down, h.waiting, fun c' hc' => ?_⟩
  · by_cases heq : c' = c
    · subst heq
      simpa using hinflight
    · simpa [heq] using h.inflight c'
  · by_cases heq : c' = c
    · subst heq
      have hclear := h.clear c' hc'
      rw [← Bool.not_eq_true] at hclear ⊢
      intro hnew
      exact hclear (huses (h.raised (passed_holds hc')) (by simpa using hnew))
    · simpa [heq] using h.clear c' hc'

theorem Inv.setScan (h : Inv s) {c : Fin 4} {scan : Scan} (hsame : (s.scan c).claims = scan.claims)
    (huses : s.cmdBusy = true → scan.uses = true → (s.scan c).uses = true) :
    Inv (s.setScan c scan) := by
  have hinflight : s.videoInflight c = scan.claims := by rw [h.inflight c, hsame]
  have hmove := h.move hinflight huses
  rwa [Function.update_eq_self] at hmove

theorem inv_scanStep (h : Inv s) (c : Fin 4) (selection : Selection) (pending : Bool) :
    Inv (s.scanStep c selection pending) := by
  unfold State.scanStep
  split
  case h_1 => exact h
  case h_2 hc =>
    split_ifs
    · exact h.setScan (by simp [hc, Scan.claims]) (by simp [Scan.uses])
    · exact h.move rfl (by simp [Scan.uses])
  case h_3 hc =>
    split_ifs with hbusy
    · exact h.setScan (by simp [hc, Scan.claims]) (by simp [Scan.uses])
    · exact h.setScan (by simp [hc, Scan.claims]) fun hraised => absurd hraised hbusy
  case h_4 hc =>
    refine h.setScan ?_ fun _ _ => by simp [hc, Scan.uses]
    split_ifs <;> simp [hc, Scan.claims]
  case h_5 => exact h.move rfl (by simp [Scan.uses])
  case h_6 hc =>
    refine h.setScan ?_ fun _ _ => by simp [hc, Scan.uses]
    split <;> simp [hc, Scan.claims]
  case h_7 hc => exact h.setScan (by simp [hc, Scan.claims]) (by simp [Scan.uses])
  case h_8 => exact h.move rfl (by simp [Scan.uses])
  case h_9 wait hc =>
    refine h.move ?_ ?_
    · cases wait <;> rfl
    · cases wait <;> simp [Scan.uses]
  case h_10 hc => exact h.setScan (by simp [hc, Scan.claims]) (by simp [Scan.uses])
  case h_11 hc =>
    refine h.setScan ?_ ?_
    · split_ifs <;> simp [hc, Scan.claims]
    · split_ifs <;> simp [Scan.uses]

/-- The command worker moves on. -/
theorem Inv.command (h : Inv s) {s' : State} (hinflight : s'.videoInflight = s.videoInflight)
    (hscan : s'.scan = s.scan) (hraised : s'.cmd.holds = true → s'.cmdBusy = true)
    (hdown : s'.cmdBusy = true → s'.cmd.holds = true ∨ s'.parked = true)
    (hwaiting : ∀ batch rounds k, s'.cmd = .waiting batch rounds k → batch.hasStream = true)
    (hclear : ∀ c, s'.cmd.passed c = true → (s.scan c).uses = false) : Inv s' := by
  refine ⟨fun c => ?_, hraised, hdown, hwaiting, fun c hc => ?_⟩
  · rw [hinflight, hscan]
    exact h.inflight c
  · rw [hscan]
    exact hclear c hc

/-- The worker puts `cmd_busy` down behind a batch. -/
theorem Inv.lower (h : Inv s) {batch : Mailbox} (hbatch : s.cmd.holds = batch.hasStream)
    {s' : State} (hinflight : s'.videoInflight = s.videoInflight) (hscan : s'.scan = s.scan)
    (hparked : s'.parked = s.parked) (hbusy : s'.cmdBusy = (s.cmdBusy && !batch.hasStream))
    (hholds : s'.cmd.holds = false) (hpassed : ∀ c, s'.cmd.passed c = false) : Inv s' := by
  refine h.command hinflight hscan (fun hh => ?_) (fun hb => ?_) (fun batch' rounds k hk => ?_)
    fun c hc => ?_
  · rw [hholds] at hh
    cases hh
  · rw [hbusy, Bool.and_eq_true] at hb
    rcases h.down hb.1 with hh | hp
    · rw [hbatch] at hh
      simp [hh] at hb
    · exact .inr (hparked.trans hp)
  · rw [hk] at hholds
    cases hholds
  · rw [hpassed c] at hc
    cases hc

/-- The worker has no batch with a stream command in hand, before and behind the step. -/
theorem Inv.rest (h : Inv s) {s' : State} (hbefore : s.cmd.holds = false)
    (hinflight : s'.videoInflight = s.videoInflight) (hscan : s'.scan = s.scan)
    (hparked : s'.parked = s.parked) (hbusy : s'.cmdBusy = s.cmdBusy)
    (hafter : s'.cmd.holds = false) : Inv s' := by
  refine h.command hinflight hscan (fun hh => ?_) (fun hb => ?_) (fun batch rounds k hk => ?_)
    fun c hc => ?_
  · rw [hafter] at hh
    cases hh
  · rw [hbusy] at hb
    rcases h.down hb with hh | hp
    · rw [hbefore] at hh
      cases hh
    · exact .inr (hparked.trans hp)
  · rw [hk] at hafter
    cases hafter
  · rw [passed_holds hc] at hafter
    cases hafter

/-- The batch has been carried out, as far as it goes. -/
theorem Inv.stop (h : Inv s) {batch : Mailbox} {late again : Bool}
    (hbefore : s.cmd = .executing batch late) {s' : State}
    (hinflight : s'.videoInflight = s.videoInflight) (hscan : s'.scan = s.scan)
    (hparked : s'.parked = s.parked) (hbusy : s'.cmdBusy = s.cmdBusy)
    (hafter : s'.cmd = .stopping batch again) : Inv s' := by
  have hholds : s'.cmd.holds = s.cmd.holds := by rw [hafter, hbefore]; rfl
  refine h.command hinflight hscan ?_ ?_ (fun b rounds k hk => ?_) fun c hc => ?_
  · rw [hholds, hbusy]
    exact h.raised
  · rw [hholds, hbusy, hparked]
    exact h.down
  · rw [hafter] at hk
    cases hk
  · rw [hafter] at hc
    cases hc

theorem inv_cmdStep (h : Inv s) : Inv s.cmdStep := by
  unfold State.cmdStep
  split
  case h_1 => exact h
  case h_2 hc =>
    have hbefore : s.cmd.holds = false := by rw [hc]; rfl
    split_ifs
    · exact h.rest hbefore rfl rfl rfl rfl rfl
    · exact h.rest hbefore rfl rfl rfl rfl rfl
  case h_3 batch hc =>
    have hbefore : s.cmd.holds = false := by rw [hc]; rfl
    split_ifs with hstream
    · refine h.command rfl rfl (fun _ => rfl) (fun _ => .inl rfl) (fun batch' rounds k hk => ?_)
        fun c hpassed => ?_
      · cases hk
        exact hstream
      · simp [Cmd.passed] at hpassed
    · refine h.rest hbefore rfl rfl rfl rfl ?_
      simpa [Cmd.holds] using hstream
  case h_4 batch k hc =>
    have hstream := h.waiting batch 0 k hc
    have hbusy := h.raised (by rw [hc]; rfl)
    refine h.command rfl rfl (fun _ => hbusy) (fun _ => .inl hstream) (fun batch' rounds k hk => ?_)
      fun c hpassed => ?_
    · cases hk
    · simp [Cmd.passed] at hpassed
  case h_5 batch rounds k hc =>
    have hstream := h.waiting batch (rounds + 1) k hc
    have hbusy := h.raised (by rw [hc]; rfl)
    have hclear : ∀ c : Fin 4, c.1 < k → (s.scan c).uses = false := by
      intro c hk
      refine h.clear c ?_
      rw [hc]
      simpa [Cmd.passed] using hk
    split_ifs with hk hflag
    · refine h.command rfl rfl (fun _ => hbusy) (fun _ => .inl rfl)
        (fun batch' rounds' k' hk' => ?_) fun c hpassed => ?_
      · cases hk'
        exact hstream
      · simp [Cmd.passed] at hpassed
    · refine h.command rfl rfl (fun _ => hbusy) (fun _ => .inl rfl)
        (fun batch' rounds' k' hk' => ?_) fun c hpassed => ?_
      · cases hk'
        exact hstream
      · simp only [Cmd.passed, decide_eq_true_eq] at hpassed
        by_cases heq : c.1 = k
        · -- its flag is down, so the worker of this connector has claimed nothing
          obtain rfl : c = ⟨k, hk⟩ := Fin.ext heq
          rw [← Bool.not_eq_true]
          intro huses
          exact hflag ((h.inflight _).trans (Scan.claims_of_uses huses))
        · exact hclear c (by omega)
    · refine h.command rfl rfl (fun _ => hbusy) (fun _ => .inl hstream)
        (fun batch' rounds' k' hk' => ?_) fun c _ => hclear c (by omega)
      cases hk'
  case h_6 => exact h
  case h_7 batch hc =>
    have hbefore : s.cmd.holds = false := by rw [hc]; rfl
    split_ifs
    · exact h.rest hbefore rfl rfl rfl rfl rfl
    · exact h.rest hbefore rfl rfl rfl rfl rfl
  case h_8 batch again hc =>
    exact h.lower (by rw [hc]; rfl) rfl rfl rfl rfl rfl fun _ => rfl
  case h_9 hc => exact h.rest (by rw [hc]; rfl) rfl rfl rfl rfl rfl
  case h_10 hc =>
    refine h.rest (by rw [hc]; rfl) rfl rfl rfl rfl ?_
    dsimp only
    split_ifs <;> rfl

theorem inv_step (s : State) (e : Event) (h : Inv s) : Inv (step s e) := by
  cases e with
  | publishReady => exact ⟨h.inflight, h.raised, h.down, h.waiting, h.clear⟩
  | shutDown => exact ⟨h.inflight, h.raised, h.down, h.waiting, h.clear⟩
  | publish c => exact ⟨h.inflight, h.raised, h.down, h.waiting, h.clear⟩
  | publishOther => exact ⟨h.inflight, h.raised, h.down, h.waiting, h.clear⟩
  | park => exact ⟨h.inflight, fun _ => rfl, fun _ => .inr rfl, h.waiting, h.clear⟩
  | scanStart c =>
      simp only [step]
      split_ifs with hidle
      · exact h.setScan (by simp [hidle.1, Scan.claims]) (by simp [Scan.uses])
      · exact h
  | cmdStart =>
      simp only [step]
      split
      case h_1 hc =>
        split_ifs
        · exact h.rest (by rw [hc]; rfl) rfl rfl rfl rfl rfl
        · exact h
      case h_2 => exact h
  | scan c selection pending => exact inv_scanStep h c selection pending
  | cmd => exact inv_cmdStep h
  | multiheadFail =>
      simp only [step]
      split
      case h_1 hc => exact h.lower (by rw [hc]; rfl) rfl rfl rfl rfl rfl fun _ => rfl
      case h_2 => exact h
  | retry rest =>
      simp only [step]
      split
      case h_1 hc =>
        split_ifs
        · exact h.stop hc rfl rfl rfl rfl rfl
        · exact h.stop hc rfl rfl rfl rfl rfl
      case h_2 => exact h
  | done =>
      simp only [step]
      split
      case h_1 hc => exact h.stop hc rfl rfl rfl rfl rfl
      case h_2 => exact h

/-- **Commands and video exclude each other.**  No scanout worker selects or transfers a frame while
a batch with a stream command is carried out, if the wait for them did not time out; and `cmd_busy`
is down whenever the command worker has no such batch in hand, the teardown excepted. -/
theorem commands_exclude_video (es : List Event) :
    (∀ batch, (run step .initial es).cmd = .executing batch false → batch.hasStream = true →
      ∀ c, (run step .initial es).scan c ≠ .selecting ∧
        (run step .initial es).scan c ≠ .transferring) ∧
    ((run step .initial es).cmd.holds = false → (run step .initial es).parked = false →
      (run step .initial es).cmdBusy = false) := by
  have hinitial : Inv .initial := by
    refine ⟨fun _ => rfl, fun h => ?_, fun h => ?_, fun batch rounds k h => ?_, fun c h => ?_⟩
    · cases h
    · cases h
    · cases h
    · cases h
  have hinv : Inv (run step .initial es) :=
    run_invariant (C := fun _ _ => True) (P := Inv) (fun s e h _ => inv_step s e h) es _ hinitial
      (along_of_forall es _ fun _ _ => trivial)
  refine ⟨fun batch hc hstream c => ?_, fun hholds hparked => ?_⟩
  · have huses := hinv.clear c (by rw [hc]; simp [Cmd.passed, hstream])
    constructor
    · intro hscan
      simp [hscan, Scan.uses] at huses
    · intro hscan
      simp [hscan, Scan.uses] at huses
  · rw [← Bool.not_eq_true]
    intro hbusy
    rcases hinv.down hbusy with h | h
    · rw [hholds] at h
      cases h
    · rw [hparked] at h
      cases h

/-- The command worker has drained a mode set while a worker was sending, and waited for it; another
worker backs off. -/
def blockedRun : List Event :=
  [.publishReady, .scanStart 0, .scan 0 .nothing false, .scan 0 .nothing false,
    .scan 0 .nothing false, .publish 1, .cmdStart, .cmd, .cmd, .cmd, .scan 0 .frame false,
    .scan 0 .nothing false, .scan 0 .nothing false, .scanStart 2, .scan 2 .nothing false,
    .scan 2 .nothing false, .scan 2 .nothing false, .cmd, .cmd, .cmd, .cmd, .cmd]

theorem blocked_by_batch :
    (∃ batch, (run step .initial blockedRun).cmd = .executing batch false ∧
      batch.hasStream = true) ∧
    (run step .initial blockedRun).cmdBusy = true ∧
    ∀ c, (run step .initial blockedRun).scan c ≠ .selecting ∧
      (run step .initial blockedRun).scan c ≠ .transferring :=
  ⟨⟨_, rfl, rfl⟩, rfl, (commands_exclude_video blockedRun).1 _ rfl rfl⟩

end Vino.Kms.Exclusion
