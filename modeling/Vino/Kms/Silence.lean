import Mathlib
import Vino.Lib.Run

/-!
# The Silence of the Dock

A dock that answers nothing for too long has its control session abandoned.  Every thread that
starts or ends a transaction measures the silence and may abandon the session, and so does a
watchdog that runs off the control path, because the thread that would notice may be stuck in the
very transfer that proves it.  Only the watchdog goes on to take the connectors down and to have the
dock reset.  The clock counts milliseconds; a measurement and what follows from it are two steps,
with any others in between.

* `silence_bounded`: a live session has never been silent for longer than the limit, one period of
  the watchdog and the time by which it is late, whatever the other threads do or fail to do,
* `answering_kept`: no thread abandons a session whose dock answers within the limit,
* `reset_iff_alarm`: a reset is asked for at most once, and exactly if the watchdog itself measured
  too long a silence behind a look at a live session, or a pipe that carries both planes failed; a
  session that is given up while the watchdog waits for its next run gets none.
-/

namespace Vino.Kms.Silence

open Vino.Lib.Run

/-! ### The session and its threads -/

def cpWatchdogPeriodMs : ℕ := 1000

/-- How long a dock may say nothing; longer where the control pipe carries the video as well. -/
def cpSilenceLimitMs (videoOnCtrlPipe : Bool) : ℕ := if videoOnCtrlPipe then 90000 else 5000

/-- Where the watchdog stands: armed, about to measure the silence of a session it found live, or in
one of the steps that follow an alarm. -/
inductive Watchdog where
  | armed
  | measuring
  | abandoning
  | dropping
  | resetting
  | stopped
  deriving DecidableEq, Repr

structure State (n : ℕ) where
  videoOnCtrlPipe : Bool
  now : ℕ
  cpLastReply : ℕ
  cpSessionLive : Bool
  cpResetQueued : Bool
  initialModesetQuiet : Bool
  shuttingDown : Bool
  /-- Whether the I/O window of the interface is open. -/
  ioOpen : Bool
  /-- The calls of `queue_reset_device`. -/
  resets : ℕ
  /-- The connectors that are driven, with a monitor or without. -/
  present : Fin n → Bool
  /-- Whether the keepalive loop runs. -/
  keepalive : Bool
  /-- The threads that found the silence too long and have yet to act on it. -/
  judged : ℕ → Bool
  watchdog : Watchdog
  /-- When the watchdog was last armed. -/
  armedAt : ℕ

inductive Event (n : ℕ) where
  /-- A millisecond passes. -/
  | tick
  /-- A reply, a push or an answered probe is noted. -/
  | noteCpReply
  /-- A thread measures the silence: ahead of a transaction, where it looks at the flags first, or
  behind one that failed or was not answered. -/
  | judge (thread : ℕ) (gated : Bool)
  | abandon (thread : ℕ)
  /-- The watchdog runs, and goes on. -/
  | wake
  | watch
  /-- A video queue fails, with one of the errors that a shared pipe does not recover from. -/
  | retireFailedVideoQueue
  /-- The keepalive loop looks at the session. -/
  | loopHead
  | setConnected (connector : Fin n)
  | setDisconnected (connector : Fin n)
  | holdCpForInitialModeset
  | releaseInitialModesetQuiet
  /-- The device goes away, or is about to be reset. -/
  | beginShutdown (reset : Bool)
  | closeIo

variable {n : ℕ}

namespace State

/-- A session that has just been published, with its watchdog started. -/
def published (n : ℕ) (videoOnCtrlPipe : Bool) (now : ℕ) (present : Fin n → Bool) : State n where
  videoOnCtrlPipe := videoOnCtrlPipe
  now := now
  cpLastReply := now
  cpSessionLive := true
  cpResetQueued := false
  initialModesetQuiet := false
  shuttingDown := false
  ioOpen := true
  resets := 0
  present := present
  keepalive := true
  judged := fun _ => false
  watchdog := .armed
  armedAt := now

def limit (s : State n) : ℕ := cpSilenceLimitMs s.videoOnCtrlPipe

/-- How long the dock has answered nothing. -/
def silentForMs (s : State n) : ℕ := s.now - s.cpLastReply

def abandonCpSession (s : State n) : State n := { s with cpSessionLive := false }

def dropConnectorsWithSession (s : State n) : State n := { s with present := fun _ => false }

/-- One attempt only, and none behind a window that is closed. -/
def resetAfterWedge (s : State n) : State n :=
  if s.cpResetQueued then s
  else { s with cpResetQueued := true, resets := if s.ioOpen then s.resets + 1 else s.resets }

/-- The watchdog arms itself again, unless the device is going away. -/
def startCpWatchdog (s : State n) : State n :=
  if s.shuttingDown then { s with watchdog := .stopped }
  else { s with watchdog := .armed, armedAt := s.now }

/-- The run of the watchdog, up to its look at the session. -/
def runCpWatchdog (s : State n) : State n :=
  if s.shuttingDown then { s with watchdog := .stopped }
  else if s.initialModesetQuiet then { s with cpLastReply := s.now }.startCpWatchdog
  else if s.cpSessionLive then { s with watchdog := .measuring }
  else s.startCpWatchdog

/-- The rest of its run: the measurement, and what follows an alarm. -/
def watch (s : State n) : State n :=
  match s.watchdog with
  | .measuring =>
      if s.limit ≤ s.silentForMs then { s with watchdog := .abandoning } else s.startCpWatchdog
  | .abandoning => { s.abandonCpSession with watchdog := .dropping }
  | .dropping => { s.dropConnectorsWithSession with watchdog := .resetting }
  | .resetting => s.resetAfterWedge.startCpWatchdog
  | .armed | .stopped => s

/-- A thread looks at the flags, if it is to start a transaction, and measures the silence. -/
def judge (s : State n) (thread : ℕ) (gated : Bool) : State n :=
  if gated && (s.shuttingDown || !s.cpSessionLive) then s
  else { s with judged := Function.update s.judged thread (decide (s.limit ≤ s.silentForMs)) }

def abandon (s : State n) (thread : ℕ) : State n :=
  if s.judged thread then
    { s.abandonCpSession with judged := Function.update s.judged thread false }
  else s

/-- The failure of a shared pipe ends the session; a video pipe of its own is drained and goes
on. -/
def retireFailedVideoQueue (s : State n) : State n :=
  if s.videoOnCtrlPipe then s.abandonCpSession.resetAfterWedge else s

/-- The loop leaves an abandoned session with its connectors taken down. -/
def loopHead (s : State n) : State n :=
  if s.keepalive && !s.cpSessionLive then { s.dropConnectorsWithSession with keepalive := false }
  else s

def beginShutdown (s : State n) (reset : Bool) : State n :=
  { s with
    cpSessionLive := s.cpSessionLive && !reset
    shuttingDown := true
    initialModesetQuiet := false }

end State

def step (s : State n) : Event n → State n
  | .tick => { s with now := s.now + 1 }
  | .noteCpReply => { s with cpLastReply := s.now }
  | .judge t gated => s.judge t gated
  | .abandon t => s.abandon t
  | .wake => if s.watchdog = .armed then s.runCpWatchdog else s
  | .watch => s.watch
  | .retireFailedVideoQueue => s.retireFailedVideoQueue
  | .loopHead => s.loopHead
  | .setConnected c =>
      if s.keepalive then { s with present := Function.update s.present c true } else s
  | .setDisconnected c => { s with present := Function.update s.present c false }
  | .holdCpForInitialModeset => { s with initialModesetQuiet := true }
  | .releaseInitialModesetQuiet => { s with initialModesetQuiet := false }
  | .beginShutdown reset => s.beginShutdown reset
  | .closeIo => { s with ioOpen := false }

/-! ### What the threads leave alone -/

/-- What every thread but the watchdog leaves alone, and where it may only go one way. -/
structure Frame (s s' : State n) : Prop where
  pipe : s'.videoOnCtrlPipe = s.videoOnCtrlPipe
  now : s'.now = s.now
  armedAt : s'.armedAt = s.armedAt
  watchdog : s'.watchdog = s.watchdog
  reply : s'.cpLastReply = s.cpLastReply ∨ s'.cpLastReply = s.now
  live : s'.cpSessionLive = true → s.cpSessionLive = true
  shuttingDown : s.shuttingDown = true → s'.shuttingDown = true

/-- The events that are not the clock's or the watchdog's. -/
def Event.threaded : Event n → Bool
  | .tick | .wake | .watch => false
  | _ => true

section Steps

variable {s : State n} {slack : ℕ}

theorem frame_resetAfterWedge : Frame s s.resetAfterWedge := by
  unfold State.resetAfterWedge
  split_ifs <;> constructor <;> simp

theorem Frame.abandoned {s' : State n} (h : Frame s.abandonCpSession s') : Frame s s' := by
  obtain ⟨h1, h2, h3, h4, h5, h6, h7⟩ := h
  refine ⟨h1, h2, h3, h4, h5, fun h => ?_, h7⟩
  exact absurd (h6 h) (by simp [State.abandonCpSession])

theorem frame_step (e : Event n) (he : e.threaded = true) : Frame s (step s e) := by
  cases e with
  | tick => cases he
  | wake => cases he
  | watch => cases he
  | noteCpReply => constructor <;> simp [step]
  | judge t gated =>
    show Frame s (s.judge t gated)
    unfold State.judge
    split_ifs <;> constructor <;> simp
  | abandon t =>
    show Frame s (s.abandon t)
    unfold State.abandon
    split_ifs <;> constructor <;> simp [State.abandonCpSession]
  | retireFailedVideoQueue =>
    show Frame s s.retireFailedVideoQueue
    unfold State.retireFailedVideoQueue
    split_ifs
    · exact frame_resetAfterWedge.abandoned
    · constructor <;> simp
  | loopHead =>
    show Frame s s.loopHead
    unfold State.loopHead
    split_ifs <;> constructor <;> simp [State.dropConnectorsWithSession]
  | setConnected c =>
    unfold step
    dsimp only
    split_ifs <;> constructor <;> simp
  | beginShutdown reset =>
    constructor <;> simp [step, State.beginShutdown]
    exact fun hlive _ => hlive
  | setDisconnected _ | holdCpForInitialModeset | releaseInitialModesetQuiet | closeIo =>
    constructor <;> simp [step]

theorem pipe_startCpWatchdog : s.startCpWatchdog.videoOnCtrlPipe = s.videoOnCtrlPipe := by
  unfold State.startCpWatchdog
  split_ifs <;> rfl

/-- The dock keeps its pipes. -/
theorem pipe_step (e : Event n) : (step s e).videoOnCtrlPipe = s.videoOnCtrlPipe := by
  cases he : e.threaded with
  | true => exact (frame_step e he).pipe
  | false =>
    cases e with
    | tick => rfl
    | wake =>
      show (if s.watchdog = .armed then s.runCpWatchdog else s).videoOnCtrlPipe = _
      unfold State.runCpWatchdog
      split_ifs
      · rfl
      · exact pipe_startCpWatchdog
      · rfl
      · exact pipe_startCpWatchdog
      · rfl
    | watch =>
      show s.watch.videoOnCtrlPipe = _
      unfold State.watch
      split
      · split_ifs
        · rfl
        · exact pipe_startCpWatchdog
      · rfl
      · rfl
      · exact pipe_startCpWatchdog.trans frame_resetAfterWedge.pipe
      · rfl
      · rfl
    | _ => cases he

/-! ### Silence is noticed -/

/-- The watchdog is through with its next run by one period and `slack` behind the last one. -/
def Prompt (slack : ℕ) (s : State n) : Event n → Prop
  | .tick => s.watchdog ≠ .stopped → s.now < s.armedAt + cpWatchdogPeriodMs + slack
  | _ => True

/-- The watchdog is on time, and when it was last armed it had not found a live session silent. -/
structure Watched (slack : ℕ) (s : State n) : Prop where
  reply : s.cpLastReply ≤ s.now
  armedAt : s.armedAt ≤ s.now
  due : s.watchdog ≠ .stopped → s.now ≤ s.armedAt + cpWatchdogPeriodMs + slack
  stopped : s.watchdog = .stopped → s.shuttingDown = true
  alarmed : s.watchdog = .dropping ∨ s.watchdog = .resetting → s.cpSessionLive = false
  fresh : s.cpSessionLive = true → s.armedAt < s.cpLastReply + s.limit

theorem Watched.frame {s' : State n} (hs : Watched slack s) (h : Frame s s') :
    Watched slack s' := by
  have hlimit : s'.limit = s.limit := by rw [State.limit, State.limit, h.pipe]
  have hreply := hs.reply
  have hge : s.cpLastReply ≤ s'.cpLastReply := by
    rcases h.reply with heq | heq <;> omega
  constructor
  · rw [h.now]
    rcases h.reply with heq | heq <;> omega
  · rw [h.now, h.armedAt]
    exact hs.armedAt
  · rw [h.watchdog, h.now, h.armedAt]
    exact hs.due
  · rw [h.watchdog]
    exact fun hstopped => h.shuttingDown (hs.stopped hstopped)
  · rw [h.watchdog]
    intro halarmed
    by_contra hlive
    rw [Bool.not_eq_false] at hlive
    have hdead := hs.alarmed halarmed
    rw [h.live hlive] at hdead
    cases hdead
  · intro hlive
    have hfresh := hs.fresh (h.live hlive)
    rw [h.armedAt, hlimit]
    omega

/-- The clock alone. -/
theorem run_ticks (k : ℕ) : ∀ s : State n,
    run step s (List.replicate k .tick) = { s with now := s.now + k } := by
  induction k with
  | zero => exact fun s => rfl
  | succ k ih =>
    intro s
    have hnow : s.now + 1 + k = s.now + (k + 1) := by omega
    rw [List.replicate_succ, run, List.foldl_cons]
    exact (ih (step s .tick)).trans (congrArg (fun t => { s with now := t }) hnow)

/-- The dock has answered within the limit whenever the silence is measured, no shared pipe fails,
and no reset is under way. -/
def Answering (s : State n) : Event n → Prop
  | .judge _ _ => s.silentForMs < s.limit
  | .watch => s.watchdog = .measuring → s.silentForMs < s.limit
  | .retireFailedVideoQueue => s.videoOnCtrlPipe = false
  | .beginShutdown reset => reset = false
  | _ => True

/-- Nobody has found the silence too long. -/
structure Trusted (s : State n) : Prop where
  live : s.cpSessionLive = true
  judged : ∀ t, s.judged t = false
  watchdog : s.watchdog = .armed ∨ s.watchdog = .measuring ∨ s.watchdog = .stopped

theorem Trusted.start {s : State n} (hs : Trusted s) : Trusted s.startCpWatchdog := by
  unfold State.startCpWatchdog
  split_ifs
  · exact ⟨hs.live, hs.judged, .inr (.inr rfl)⟩
  · exact ⟨hs.live, hs.judged, .inl rfl⟩

theorem trusted_judge (t : ℕ) (gated : Bool) (hs : Trusted s) (hshort : s.silentForMs < s.limit) :
    Trusted (s.judge t gated) := by
  unfold State.judge
  split_ifs
  · exact hs
  · refine ⟨hs.live, fun u => ?_, hs.watchdog⟩
    show Function.update s.judged t _ u = false
    rw [decide_eq_false (Nat.not_le.2 hshort)]
    by_cases hu : u = t
    · rw [hu, Function.update_self]
    · rw [Function.update_of_ne hu, hs.judged u]

theorem trusted_runCpWatchdog (hs : Trusted s) : Trusted s.runCpWatchdog := by
  unfold State.runCpWatchdog
  split_ifs
  · exact ⟨hs.live, hs.judged, .inr (.inr rfl)⟩
  · exact Trusted.start ⟨hs.live, hs.judged, hs.watchdog⟩
  · exact ⟨hs.live, hs.judged, .inr (.inl rfl)⟩
  · exact hs.start

theorem trusted_watch (hs : Trusted s)
    (hshort : s.watchdog = .measuring → s.silentForMs < s.limit) : Trusted s.watch := by
  unfold State.watch
  rcases hs.watchdog with h | h | h <;> rw [h]
  · exact hs
  · dsimp only
    rw [if_neg (Nat.not_le.2 (hshort h))]
    exact hs.start
  · exact hs

theorem trusted_step (e : Event n) (hs : Trusted s) (hanswer : Answering s e) :
    Trusted (step s e) := by
  cases e with
  | judge t gated => exact trusted_judge t gated hs hanswer
  | abandon t =>
    show Trusted (s.abandon t)
    unfold State.abandon
    rw [hs.judged t]
    exact hs
  | wake =>
    show Trusted (if s.watchdog = .armed then s.runCpWatchdog else s)
    split_ifs
    · exact trusted_runCpWatchdog hs
    · exact hs
  | watch => exact trusted_watch hs hanswer
  | retireFailedVideoQueue =>
    show Trusted s.retireFailedVideoQueue
    unfold State.retireFailedVideoQueue
    rw [hanswer]
    exact hs
  | loopHead =>
    show Trusted s.loopHead
    unfold State.loopHead
    rw [hs.live, Bool.not_true, Bool.and_false]
    exact hs
  | setConnected c =>
    show Trusted (if s.keepalive then _ else s)
    split_ifs
    · exact ⟨hs.live, hs.judged, hs.watchdog⟩
    · exact hs
  | beginShutdown reset =>
    refine ⟨?_, hs.judged, hs.watchdog⟩
    show (s.cpSessionLive && !reset) = true
    rw [hanswer, hs.live]
    rfl
  | tick | noteCpReply | setDisconnected _ | holdCpForInitialModeset
  | releaseInitialModesetQuiet | closeIo => exact ⟨hs.live, hs.judged, hs.watchdog⟩

/-- **No false alarm**: a session whose dock answers within the limit is kept, in every run and at
every point of it. -/
theorem answering_kept (videoOnCtrlPipe : Bool) (start : ℕ) (present : Fin n → Bool)
    (es : List (Event n))
    (hanswer : Along Answering step (.published n videoOnCtrlPipe start present) es) :
    (run step (.published n videoOnCtrlPipe start present) es).cpSessionLive = true := by
  have hstart : Trusted (.published n videoOnCtrlPipe start present) :=
    ⟨rfl, fun _ => rfl, .inl rfl⟩
  have hs : Trusted (run step (.published n videoOnCtrlPipe start present) es) :=
    run_invariant (fun _ e hs hc => trusted_step e hs hc) es _ hstart hanswer
  exact hs.live

theorem along_answering_ticks (k : ℕ) : ∀ s : State n,
    Along Answering step s (List.replicate k .tick) := by
  induction k with
  | zero => exact fun _ => trivial
  | succ k ih => exact fun s => ⟨trivial, ih _⟩

/-- The watchdog and a thread measure the silence in its last millisecond, and the dock answers. -/
def lastMillisecond : List (Event 1) :=
  List.replicate 4998 .tick ++
    ([.wake, .tick, .watch, .judge 0 false, .noteCpReply] : List (Event 1))

/-- It does so twice. -/
def justInTime : List (Event 1) :=
  lastMillisecond ++ (List.replicate 4999 .tick ++
    ([.judge 0 true, .abandon 0, .wake, .watch] : List (Event 1)))

theorem answering_kept_justInTime :
    (run step (.published 1 false 0 fun _ => true) justInTime).silentForMs = 4999 ∧
      (run step (.published 1 false 0 fun _ => true) justInTime).cpSessionLive = true := by
  have hfirst := run_ticks 4998 (.published 1 false 0 fun _ => true)
  have hanswered : run step (.published 1 false 0 fun _ => true) lastMillisecond =
      { State.published 1 false 0 (fun _ => true) with
        now := 4999
        cpLastReply := 4999
        armedAt := 4999
        judged := Function.update (fun _ => false) 0 false } := by
    rw [lastMillisecond, run_append, hfirst]
    rfl
  have hshort : 4999 < cpSilenceLimitMs false := by decide
  have hanswer : Along Answering step (.published 1 false 0 fun _ => true) justInTime := by
    rw [justInTime, along_append, hanswered, along_append, run_ticks, lastMillisecond, along_append,
      hfirst]
    exact ⟨⟨along_answering_ticks _ _, trivial, trivial, fun _ => hshort, hshort, trivial, trivial⟩,
      along_answering_ticks _ _, hshort, trivial, trivial, fun _ => hshort, trivial⟩
  refine ⟨?_, answering_kept false 0 (fun _ => true) justInTime hanswer⟩
  rw [justInTime, run_append, hanswered, run_append, run_ticks]
  rfl

/-! ### Who asks for a reset -/

/-- The watchdog has found the session live and measures too long a silence, or a pipe that carries
both planes fails. -/
def Alarm (s : State n) : Event n → Prop
  | .watch => s.watchdog = .measuring ∧ s.limit ≤ s.silentForMs
  | .retireFailedVideoQueue => s.videoOnCtrlPipe = true
  | _ => False

/-- The watchdog is past an alarm, or a reset has been asked for. -/
def Recovering (s : State n) : Prop :=
  s.cpResetQueued = true ∨
    s.watchdog = .abandoning ∨ s.watchdog = .dropping ∨ s.watchdog = .resetting

/-- The events that have no part in a reset. -/
def Event.bystander : Event n → Bool
  | .wake | .watch | .retireFailedVideoQueue => false
  | _ => true

theorem bystander_step (e : Event n) (he : e.bystander = true) :
    (step s e).watchdog = s.watchdog ∧ (step s e).cpResetQueued = s.cpResetQueued ∧
      (step s e).resets = s.resets := by
  cases e with
  | wake | watch | retireFailedVideoQueue => cases he
  | judge t gated =>
    unfold step State.judge
    dsimp only
    split_ifs <;> exact ⟨rfl, rfl, rfl⟩
  | abandon t =>
    unfold step State.abandon
    dsimp only
    split_ifs <;> exact ⟨rfl, rfl, rfl⟩
  | loopHead =>
    unfold step State.loopHead
    dsimp only
    split_ifs <;> exact ⟨rfl, rfl, rfl⟩
  | setConnected c =>
    unfold step
    dsimp only
    split_ifs <;> exact ⟨rfl, rfl, rfl⟩
  | tick | noteCpReply | setDisconnected _ | holdCpForInitialModeset
  | releaseInitialModesetQuiet | beginShutdown _ | closeIo => exact ⟨rfl, rfl, rfl⟩

theorem bystander_calm (e : Event n) (he : e.bystander = true) : ¬ Alarm s e := by
  cases e with
  | wake | watch | retireFailedVideoQueue => cases he
  | _ => exact not_false

theorem cpResetQueued_resetAfterWedge : s.resetAfterWedge.cpResetQueued = true := by
  unfold State.resetAfterWedge
  by_cases h : s.cpResetQueued = true
  · rw [if_pos h]
    exact h
  · rw [if_neg h]

theorem recovering_startCpWatchdog (ha : s.watchdog ≠ .abandoning) (hd : s.watchdog ≠ .dropping)
    (hr : s.watchdog ≠ .resetting) : Recovering s.startCpWatchdog ↔ Recovering s := by
  unfold State.startCpWatchdog
  split_ifs <;> simp [Recovering, ha, hd, hr]

theorem recovering_wake : Recovering (step s .wake) ↔ Recovering s := by
  show Recovering (if s.watchdog = .armed then s.runCpWatchdog else s) ↔ _
  by_cases harmed : s.watchdog = .armed
  · rw [if_pos harmed]
    unfold State.runCpWatchdog
    split_ifs
    · simp [Recovering, harmed]
    · have hstart : Recovering ({ s with cpLastReply := s.now }.startCpWatchdog) ↔ Recovering s :=
        recovering_startCpWatchdog (by simp [harmed]) (by simp [harmed]) (by simp [harmed])
      exact hstart
    · simp [Recovering, harmed]
    · exact recovering_startCpWatchdog (by simp [harmed]) (by simp [harmed]) (by simp [harmed])
  · rw [if_neg harmed]

theorem recovering_watch : Recovering s.watch ↔ Recovering s ∨ Alarm s .watch := by
  unfold State.watch Alarm
  cases hw : s.watchdog with
  | armed | stopped => simp
  | measuring =>
    dsimp only
    by_cases halarm : s.limit ≤ s.silentForMs
    · rw [if_pos halarm]
      simp [Recovering, halarm]
    · rw [if_neg halarm,
        recovering_startCpWatchdog (by simp [hw]) (by simp [hw]) (by simp [hw])]
      simp [halarm]
  | abandoning => simp [Recovering, hw]
  | dropping => simp [Recovering, hw]
  | resetting =>
    refine ⟨fun _ => .inl (.inr (.inr (.inr hw))), fun _ => .inl ?_⟩
    unfold State.startCpWatchdog
    split_ifs <;> exact cpResetQueued_resetAfterWedge

/-- Nothing but an alarm leads to a reset, and nothing takes one back. -/
theorem recovering_step (e : Event n) : Recovering (step s e) ↔ Recovering s ∨ Alarm s e := by
  cases he : e.bystander with
  | true =>
    obtain ⟨hw, hq, -⟩ := bystander_step e he (s := s)
    rw [or_iff_left (bystander_calm e he), Recovering, Recovering, hw, hq]
  | false =>
    cases e with
    | wake => exact recovering_wake.trans (or_iff_left not_false).symm
    | watch => exact recovering_watch
    | retireFailedVideoQueue =>
      show Recovering s.retireFailedVideoQueue ↔ _
      unfold State.retireFailedVideoQueue
      split_ifs with hpipe
      · exact ⟨fun _ => .inr hpipe, fun _ => .inl cpResetQueued_resetAfterWedge⟩
      · exact (or_iff_left hpipe).symm
    | _ => cases he

theorem recovering_run (es : List (Event n)) :
    ∀ s : State n, Recovering (run step s es) ↔
      Recovering s ∨ ¬ Along (fun s e => ¬ Alarm s e) step s es := by
  induction es with
  | nil => exact fun s => (or_iff_left fun h => h trivial).symm
  | cons e es ih =>
    intro s
    have hnext := ih (step s e)
    rw [recovering_step, or_assoc] at hnext
    refine hnext.trans (or_congr_right ?_)
    show _ ↔ ¬ (¬ Alarm s e ∧ _)
    rw [not_and_or, not_not]

/-- The core is asked at most once, and only behind the claim of that one attempt. -/
def Once (s : State n) : Prop := s.resets ≤ s.cpResetQueued.toNat

theorem once_resetAfterWedge (hs : Once s) : Once s.resetAfterWedge := by
  unfold State.resetAfterWedge
  split_ifs with hqueued hopen
  · exact hs
  · rw [Once, Bool.eq_false_iff.2 hqueued] at hs
    exact Nat.succ_le_succ hs
  · exact Nat.le_trans hs (Bool.toNat_le _)

theorem once_startCpWatchdog (hs : Once s) : Once s.startCpWatchdog := by
  unfold State.startCpWatchdog
  split_ifs <;> exact hs

theorem once_step (e : Event n) (hs : Once s) : Once (step s e) := by
  cases he : e.bystander with
  | true =>
    obtain ⟨-, hq, hr⟩ := bystander_step e he (s := s)
    rw [Once, hq, hr]
    exact hs
  | false =>
    cases e with
    | wake =>
      show Once (if s.watchdog = .armed then s.runCpWatchdog else s)
      unfold State.runCpWatchdog
      split_ifs
      · exact hs
      · exact once_startCpWatchdog (s := { s with cpLastReply := s.now }) hs
      · exact hs
      · exact once_startCpWatchdog hs
      · exact hs
    | watch =>
      show Once s.watch
      unfold State.watch
      split
      · split_ifs
        · exact hs
        · exact once_startCpWatchdog hs
      · exact hs
      · exact hs
      · exact once_startCpWatchdog (once_resetAfterWedge hs)
      · exact hs
      · exact hs
    | retireFailedVideoQueue =>
      show Once s.retireFailedVideoQueue
      unfold State.retireFailedVideoQueue
      split_ifs
      · exact once_resetAfterWedge (s := s.abandonCpSession) hs
      · exact hs
    | _ => cases he

/-- The session was given up, and nobody is about to ask for a reset. -/
structure GivenUp (s : State n) : Prop where
  pipe : s.videoOnCtrlPipe = false
  live : s.cpSessionLive = false
  queued : s.cpResetQueued = false
  resets : s.resets = 0
  watchdog : s.watchdog = .armed ∨ s.watchdog = .stopped

theorem GivenUp.start (hs : GivenUp s) : GivenUp s.startCpWatchdog := by
  unfold State.startCpWatchdog
  split_ifs
  · exact ⟨hs.pipe, hs.live, hs.queued, hs.resets, .inr rfl⟩
  · exact ⟨hs.pipe, hs.live, hs.queued, hs.resets, .inl rfl⟩

theorem givenUp_step (e : Event n) (hs : GivenUp s) : GivenUp (step s e) := by
  have hdead := Bool.eq_false_iff.1 hs.live
  have hbystander : e.bystander = true → e.threaded = true → GivenUp (step s e) := by
    intro hb ht
    obtain ⟨hw, hq, hr⟩ := bystander_step e hb (s := s)
    have hframe : Frame s (step s e) := frame_step e ht
    exact ⟨hframe.pipe.trans hs.pipe, Bool.eq_false_iff.2 fun h => hdead (hframe.live h),
      hq.trans hs.queued, hr.trans hs.resets, by rw [hw]; exact hs.watchdog⟩
  cases e with
  | tick => exact ⟨hs.pipe, hs.live, hs.queued, hs.resets, hs.watchdog⟩
  | wake =>
    show GivenUp (if s.watchdog = .armed then s.runCpWatchdog else s)
    unfold State.runCpWatchdog
    split_ifs
    · exact ⟨hs.pipe, hs.live, hs.queued, hs.resets, .inr rfl⟩
    · exact GivenUp.start ⟨hs.pipe, hs.live, hs.queued, hs.resets, hs.watchdog⟩
    · exact hs.start
    · exact hs
  | watch =>
    show GivenUp s.watch
    unfold State.watch
    rcases hs.watchdog with h | h <;> rw [h] <;> exact hs
  | retireFailedVideoQueue =>
    show GivenUp s.retireFailedVideoQueue
    rw [State.retireFailedVideoQueue, hs.pipe]
    exact hs
  | _ => exact hbystander rfl rfl

/-- **Who asks for a reset**: in every run the core is asked for at most one reset, and a reset has
been claimed, or is under way, exactly if at some step the watchdog, in a run that had found the
session live, measured too long a silence, or a shared pipe failed.  Where video has a pipe of its
own, a session that has been given up while the watchdog waits for its next run gets no reset, in
any continuation. -/
theorem reset_iff_alarm (videoOnCtrlPipe : Bool) (start : ℕ) (present : Fin n → Bool)
    (es : List (Event n)) :
    (Recovering (run step (.published n videoOnCtrlPipe start present) es) ↔
      ¬ Along (fun s e => ¬ Alarm s e) step (.published n videoOnCtrlPipe start present) es) ∧
      (run step (.published n videoOnCtrlPipe start present) es).resets ≤ 1 ∧
      (videoOnCtrlPipe = false →
        ¬ Recovering (run step (.published n videoOnCtrlPipe start present) es) →
        (run step (.published n videoOnCtrlPipe start present) es).cpSessionLive = false →
        (run step (.published n videoOnCtrlPipe start present) es).watchdog = .armed →
        ∀ fs, (run step (.published n videoOnCtrlPipe start present) (es ++ fs)).resets = 0) := by
  have hall : ∀ fs : List (Event n), ∀ s, Along (fun _ _ => True) step s fs := fun fs s =>
    along_of_forall (D := fun _ => True) fs s fun _ _ => trivial
  have honce : Once (run step (.published n videoOnCtrlPipe start present) es) :=
    run_invariant (fun _ e hs _ => once_step e hs) es _ (Nat.zero_le _) (hall es _)
  refine ⟨?_, Nat.le_trans honce (Bool.toNat_le _), ?_⟩
  · have hstart : ¬ Recovering (.published n videoOnCtrlPipe start present) := by
      rintro (h | h | h | h) <;> cases h
    rw [recovering_run, or_iff_right hstart]
  · intro hpipe hcalm hdead harmed fs
    have hown : (run step (.published n videoOnCtrlPipe start present) es).videoOnCtrlPipe =
        videoOnCtrlPipe :=
      run_invariant (P := fun s => s.videoOnCtrlPipe = videoOnCtrlPipe)
        (fun _ e hs _ => (pipe_step e).trans hs) es _ rfl (hall es _)
    have hqueued : (run step (.published n videoOnCtrlPipe start present) es).cpResetQueued =
        false := Bool.eq_false_iff.2 fun h => hcalm (.inl h)
    have hgiven : GivenUp (run step (.published n videoOnCtrlPipe start present) es) := by
      refine ⟨hown.trans hpipe, hdead, hqueued, ?_, .inl harmed⟩
      rw [Once, hqueued] at honce
      exact Nat.le_zero.1 honce
    rw [run_append]
    exact (run_invariant (fun _ e hs _ => givenUp_step e hs) fs _ hgiven (hall fs _)).resets

end Steps

end Vino.Kms.Silence
