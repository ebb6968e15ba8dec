import Vino.Lib.Run

/-!
# What the Keepalive Believes Is Plugged In

The keepalive loop learns from its probes which connectors have a monitor.  Every iteration first
retries the re-engage of connectors that have none, then probes all connectors, and last announces
arrivals that have settled.  A monitor is dropped behind a sustained absence, or for a repair when
its sink does not stop flapping.  The clock is read at every point the source reads it, in
nanoseconds; what the dock answers, and which connectors are blanked, is arbitrary.

* `presence_sound`: in every run a known monitor is dropped only behind a repair, or behind a run of
  negative answers long enough with its grace passed, and never while it is blanked; and what is
  not yet announced is due.
* `repairs_bounded`: a connector is dropped for repair at most `REPAIR_LIMIT` times in a run in
  which the probe brings no connector back that has been repaired.
* `repairs_go_on`: the tracker is replaced by such a reconnect, and the limit is exceeded.
-/

namespace Vino.Kms.Presence

open Vino.Lib.Run

/-! ### Readings of the clock -/

/-- How far the clock moves on before each reading of a step. -/
abbrev Ticks := ℕ → ℕ

/-- The readings of a step that begins at `base`. -/
def reading (base : ℕ) (ticks : Ticks) : ℕ → ℕ
  | 0 => base + ticks 0
  | k + 1 => reading base ticks k + ticks (k + 1)

theorem reading_mono (base : ℕ) (ticks : Ticks) : Monotone (reading base ticks) :=
  monotone_nat_of_le_succ fun k => Nat.le_add_right (reading base ticks k) (ticks (k + 1))

def nsecPerMsec : ℕ := 1000000

/-- `(now - since).as_millis() >= ms`. -/
def elapsed (now since ms : ℕ) : Bool := since + ms * nsecPerMsec ≤ now

/-- `(now - deadline).as_millis() < 0`: a whole millisecond is left. -/
def pending (now deadline : ℕ) : Bool := now + nsecPerMsec ≤ deadline

/-- `now + Delta::from_millis(ms)`. -/
def after (now ms : ℕ) : ℕ := now + ms * nsecPerMsec

def presencePeriod : ℕ := 1000
def presenceMinGap : ℕ := 50
def presenceRemoveMs : ℕ := 5000
def reengageRetry : ℕ := 4000
def presenceGrace : ℕ := 10000
def hotplugCoalesce : ℕ := 1500
def blindEngageAttempts : ℕ := 10
def cpSetupConnectors : ℕ := 4

/-! ### Flaps -/

structure FlapTracker where
  seen : ℕ
  since : Option ℕ
  repairs : ℕ
  deriving DecidableEq

namespace FlapTracker

def repairCount : ℕ := 3
def windowMs : ℕ := 60000
def repairLimit : ℕ := 3

def new : FlapTracker := ⟨0, none, 0⟩

/-- A window that is over begins again. -/
def window (f : FlapTracker) (now : ℕ) : FlapTracker :=
  if f.since.all fun t => elapsed now t windowMs then { f with since := some now, seen := 0 } else f

/-- Record a flap that healed on its own, and say whether this is the one to repair on. -/
def healed (f : FlapTracker) (now : ℕ) : FlapTracker × Bool :=
  let g := { f.window now with seen := (f.window now).seen + 1 }
  if g.seen < repairCount || repairLimit ≤ g.repairs then (g, false)
  else (⟨0, none, g.repairs + 1⟩, true)

/-- A tracker counts its repairs, up to the limit. -/
theorem healed_repairs (f : FlapTracker) (now : ℕ) :
    (f.healed now).1.repairs = f.repairs + (f.healed now).2.toNat ∧
      ((f.healed now).2 = true → f.repairs < repairLimit) := by
  have hwindow : (f.window now).repairs = f.repairs := by
    unfold window
    split <;> rfl
  simp only [healed]
  split
  · exact ⟨hwindow, by simp⟩
  · rename_i hrepair
    simp only [Bool.or_eq_true, decide_eq_true_eq, not_or, not_le] at hrepair
    exact ⟨by simp [hwindow], fun _ => by omega⟩

end FlapTracker

/-! ### The loop -/

structure Dock where
  connectorCount : ℕ
  reportsPresence : Bool
  sharedEdidHandler : Bool

/-- Where the loop is. -/
inductive Position where
  /-- Between two iterations. -/
  | top
  /-- At a connector of the recovery, which read the clock before the first one. -/
  | recovering (nowR h : ℕ)
  | deciding
  /-- At a connector of the presence probes. -/
  | probing (h : ℕ)
  | announcing
  deriving DecidableEq

structure State where
  position : Position
  clock : ℕ
  timelineWasExclusive : Bool
  nextPresence : ℕ
  connectorKnown : ℕ → Bool
  connectorProbed : ℕ → Option Bool
  connectorEverKnown : ℕ → Bool
  blindEngageLeft : ℕ → ℕ
  connectorDebounce : ℕ → ℕ
  connectorAbsentSince : ℕ → Option ℕ
  nextReengage : ℕ → ℕ
  flap : ℕ → FlapTracker
  presenceGrace : ℕ → ℕ
  hotplugDue : Option ℕ
  /-- `connectors_present`. -/
  connected : ℕ → Bool
  /-- What the last hotplug event announced. -/
  announced : ℕ → Bool
  /-- The decodable answers of a connector, the last one first. -/
  answers : ℕ → List (ℕ × Bool)
  /-- How often a connector was dropped for repair. -/
  repaired : ℕ → ℕ

/-- The loop begins behind the hotplug event of the bring-up. -/
def State.initial (connected : ℕ → Bool) : State where
  position := .top
  clock := 0
  timelineWasExclusive := false
  nextPresence := after 0 presencePeriod
  connectorKnown := connected
  connectorProbed := fun _ => none
  connectorEverKnown := connected
  blindEngageLeft := fun _ => blindEngageAttempts
  connectorDebounce := fun _ => 0
  connectorAbsentSince := fun _ => none
  nextReengage := fun _ => 0
  flap := fun _ => .new
  presenceGrace := fun _ => 0
  hotplugDue := none
  connected := connected
  announced := connected
  answers := fun _ => []
  repaired := fun _ => 0

/-- Who has the control link at the top of an iteration. -/
inductive Hold where
  | free
  | initialModesetQuiet
  | timelineExclusive
  deriving DecidableEq

/-- What the next step comes across: the readings of the clock, the answer to a probe, whether the
connector is blanked, whether a re-engage brings an EDID, and whether an event was pushed. -/
structure Input where
  ticks : Ticks
  hold : Hold
  answer : Option Bool
  selfBlanked : Bool
  reengaged : Bool
  downstreamEvent : Bool

/-- The last reading of a step. -/
def lastReading : ℕ := 7

namespace State

variable (dock : Dock) (s : State) (e : Input)

def now (k : ℕ) : ℕ := reading s.clock e.ticks k

/-- A probe was answered. -/
def record (h now : ℕ) : Option Bool → State
  | some present =>
      { s with answers := Function.update s.answers h ((now, present) :: s.answers h) }
  | none => s

/-- `sustained_absent`: a run of negative answers goes on, or begins. -/
def absentFrom (h now : ℕ) : State :=
  { s with
    connectorAbsentSince :=
      Function.update s.connectorAbsentSince h (some ((s.connectorAbsentSince h).getD now)) }

/-- Its run of negative answers has lasted. -/
def sustained (h now : ℕ) : Bool :=
  (s.connectorAbsentSince h).any fun since => elapsed now since presenceRemoveMs

def forget (h : ℕ) : State :=
  { s with connectorAbsentSince := Function.update s.connectorAbsentSince h none }

def setDebounce (h n : ℕ) : State :=
  { s with connectorDebounce := Function.update s.connectorDebounce h n }

def setProbed (h : ℕ) (p : Option Bool) : State :=
  { s with connectorProbed := Function.update s.connectorProbed h p }

def setReengage (h t : ℕ) : State :=
  { s with nextReengage := Function.update s.nextReengage h t }

def setGrace (h t : ℕ) : State :=
  { s with presenceGrace := Function.update s.presenceGrace h t }

def setFlap (h : ℕ) (f : FlapTracker) : State := { s with flap := Function.update s.flap h f }

/-- `set_connected`, with what the loop keeps of it. -/
def connect (h : ℕ) : State :=
  { s with
    connected := Function.update s.connected h true
    connectorKnown := Function.update s.connectorKnown h true
    connectorEverKnown := Function.update s.connectorEverKnown h true }

/-- `drm_dev.hotplug_event()`. -/
def hotplugEvent : State := { s with announced := s.connected }

/-- `set_disconnected`; a removal is announced at once. -/
def disconnect (h : ℕ) : State :=
  { s with
    connected := Function.update s.connected h false
    connectorKnown := Function.update s.connectorKnown h false
    hotplugDue := none }.hotplugEvent

/-- A negative answer counts as one only if it is about a socket that has had a monitor, and
lasts. -/
def negative (h now now' : ℕ) : State :=
  if s.connectorEverKnown h then
    if (s.absentFrom h now).sustained h now' then (s.absentFrom h now).setProbed h (some false)
    else s.absentFrom h now
  else s

/-- The recovery re-engages a connector. -/
def recoverySink (h : ℕ) : State :=
  if e.reengaged then
    { ((((s.forget h).connect h).setDebounce h 0).setGrace h
        (after (s.now e 3) Presence.presenceGrace)) with
      hotplugDue := some (after (s.now e 4) hotplugCoalesce)
      nextPresence := s.now e 5 }
  else { s.forget h with nextPresence := s.now e 5 }

/-- The recovery of a connector whose discovery was deferred. -/
def recover (nowR h : ℕ) : State :=
  if s.connectorProbed h = some false then s
  else if s.connectorKnown h || pending nowR (s.nextReengage h) then s
  else if !dock.reportsPresence then s
  else if e.selfBlanked then s
  else
    let s := (s.setReengage h (after (s.now e 0) reengageRetry)).record h (s.now e 1) e.answer
    if e.answer = some false then
      let s := s.negative h (s.now e 1) (s.now e 2)
      if dock.sharedEdidHandler then s
      else if s.connectorEverKnown h || (List.range cpSetupConnectors).any s.connectorKnown ||
          s.blindEngageLeft h == 0 then s
      else
        { s with blindEngageLeft := Function.update s.blindEngageLeft h (s.blindEngageLeft h - 1) }
          |>.recoverySink e h
    else s.recoverySink e h

/-- The probe says what the loop believes; a sink that has come back may be repaired. -/
def agree (present : Bool) (h : ℕ) : State :=
  let s := s.setDebounce h 0
  if present && (s.connectorAbsentSince h).isSome then
    let (f, repair) := (s.flap h).healed (s.now e 2)
    let s := (s.forget h).setFlap h f
    if repair then
      { (s.disconnect h).setReengage h (after (s.now e 2) reengageRetry) with
        repaired := Function.update s.repaired h (s.repaired h + 1)
        nextPresence := after (s.now e 3) presencePeriod }
    else s
  else s

/-- A connector that has no monitor is called present. -/
def arrive (h : ℕ) : State :=
  let s := s.forget h
  let debounce := min (s.connectorDebounce h + 1) 255
  if debounce < 2 then s.setDebounce h debounce
  else
    let s := s.setDebounce h 0
    if pending (s.now e 3) (s.nextReengage h) then s
    else if e.reengaged then
      { ((((s.connect h).setFlap h .new).setReengage h (after (s.now e 4) reengageRetry)).setGrace h
          (after (s.now e 5) Presence.presenceGrace)) with
        hotplugDue := some (after (s.now e 6) hotplugCoalesce)
        nextPresence := after (s.now e 7) presencePeriod }
    else s.setReengage h (after (s.now e 4) reengageRetry)

/-- A known monitor is called absent. -/
def vanish (h : ℕ) : State :=
  let s := s.absentFrom h (s.now e 3)
  if s.sustained h (s.now e 4) then
    { (((s.forget h).setDebounce h 0).disconnect h).setReengage h
        (after (s.now e 5) reengageRetry) with
      nextPresence := after (s.now e 6) presencePeriod }
  else s

/-- The presence probe of a connector. -/
def probe (h : ℕ) : State :=
  match e.answer with
  | none => s
  | some present =>
      let s := s.record h (s.now e 0) (some present)
      if e.selfBlanked then (s.setDebounce h 0).forget h
      else
        let s := if present then s.setProbed h (some true) else s.negative h (s.now e 0) (s.now e 1)
        if present = s.connectorKnown h then s.agree e present h
        else if !present && pending (s.now e 2) (s.presenceGrace h) then
          (s.setDebounce h 0).forget h
        else if present then s.arrive e h
        else s.vanish e h

/-- The top of an iteration. -/
def top : State :=
  match e.hold with
  | .initialModesetQuiet => s
  | .timelineExclusive => { s with timelineWasExclusive := true }
  | .free =>
      { s with
        position := .recovering (s.now e 1) 0
        timelineWasExclusive := false
        nextPresence :=
          if s.timelineWasExclusive then after (s.now e 0) presencePeriod else s.nextPresence }

/-- A downstream event brings the probes forward. -/
def schedule : State :=
  let next :=
    if e.downstreamEvent && after (s.now e 0) presenceMinGap + nsecPerMsec ≤ s.nextPresence then
      after (s.now e 0) presenceMinGap
    else s.nextPresence
  if pending (s.now e 1) next then { s with nextPresence := next, position := .announcing }
  else { s with nextPresence := after (s.now e 1) presencePeriod, position := .probing 0 }

/-- A settled burst of arrivals is announced as one change. -/
def announce : State :=
  match s.hotplugDue with
  | some due =>
      if pending (s.now e 0) due then s else { s with hotplugDue := none }.hotplugEvent
  | none => s

/-- What a step does, apart from the clock. -/
def act : State :=
  match s.position with
  | .top => s.top e
  | .recovering nowR h =>
      if h < dock.connectorCount then
        { s.recover dock e nowR h with position := .recovering nowR (h + 1) }
      else { s with position := .deciding }
  | .deciding => s.schedule e
  | .probing h =>
      if h < dock.connectorCount then { s.probe e h with position := .probing (h + 1) }
      else { s with position := .announcing }
  | .announcing => { s.announce e with position := .top }

end State

/-- One step of the loop. -/
def step (dock : Dock) (s : State) (e : Input) : State :=
  { s.act dock e with clock := s.now e lastReading }

/-! ### What a step can do -/

/-- The part of the state the results are about. -/
structure Core where
  known : ℕ → Bool
  absentSince : ℕ → Option ℕ
  answers : ℕ → List (ℕ × Bool)
  connected : ℕ → Bool
  announced : ℕ → Bool
  hotplugDue : Option ℕ
  flap : ℕ → FlapTracker
  repaired : ℕ → ℕ

namespace Core

variable (c : Core) (h : ℕ)

def note (now : ℕ) : Option Bool → Core
  | some present =>
      { c with answers := Function.update c.answers h ((now, present) :: c.answers h) }
  | none => c

def setSince (since : Option ℕ) : Core :=
  { c with absentSince := Function.update c.absentSince h since }

def setFlap (f : FlapTracker) : Core := { c with flap := Function.update c.flap h f }

def connect (due : ℕ) : Core :=
  { c with
    connected := Function.update c.connected h true
    known := Function.update c.known h true
    hotplugDue := some due }

def disconnect : Core :=
  { c with
    connected := Function.update c.connected h false
    known := Function.update c.known h false
    hotplugDue := none
    announced := Function.update c.connected h false }

def repair : Core :=
  { c.disconnect h with repaired := Function.update c.repaired h (c.repaired h + 1) }

end Core

def State.core (s : State) : Core where
  known := s.connectorKnown
  absentSince := s.connectorAbsentSince
  answers := s.answers
  connected := s.connected
  announced := s.announced
  hotplugDue := s.hotplugDue
  flap := s.flap
  repaired := s.repaired

/-- What an answer leaves of the run of negative ones: a positive one ends it. -/
def Leaves (before : Option ℕ) (now : ℕ) (answer : Option Bool) (since : Option ℕ) : Prop :=
  since = none ∨
    answer = some false ∧ (since = before ∨ ∃ t, now ≤ t ∧ since = some (before.getD t))

/-- What the recovery of a connector may do. -/
inductive Recovers (s : State) (e : Input) (h : ℕ) : Core → Prop where
  | skips : Recovers s e h s.core
  | notes (since : Option ℕ) : Leaves (s.connectorAbsentSince h) (s.now e 1) e.answer since →
      Recovers s e h ((s.core.note h (s.now e 1) e.answer).setSince h since)
  | connects (due : ℕ) :
      Recovers s e h (((s.core.note h (s.now e 1) e.answer).setSince h none).connect h due)

/-- What the probe of a connector may do. -/
inductive Probes (s : State) (e : Input) (h : ℕ) : Core → Prop where
  | skips : Probes s e h s.core
  | notes (since : Option ℕ) : Leaves (s.connectorAbsentSince h) (s.now e 0) e.answer since →
      Probes s e h ((s.core.note h (s.now e 0) e.answer).setSince h since)
  /-- A flap has healed. -/
  | heals : e.answer = some true → ((s.flap h).healed (s.now e 2)).2 = false →
      Probes s e h (((s.core.note h (s.now e 0) e.answer).setSince h none).setFlap h
        ((s.flap h).healed (s.now e 2)).1)
  | repairs : e.answer = some true → e.selfBlanked = false →
      ((s.flap h).healed (s.now e 2)).2 = true →
      Probes s e h ((((s.core.note h (s.now e 0) e.answer).setSince h none).setFlap h
        ((s.flap h).healed (s.now e 2)).1).repair h)
  | connects (due : ℕ) : e.answer = some true → e.selfBlanked = false → s.connectorKnown h = false →
      1 ≤ s.connectorDebounce h → pending (s.now e 3) (s.nextReengage h) = false →
      e.reengaged = true →
      Probes s e h ((((s.core.note h (s.now e 0) e.answer).setSince h none).setFlap h
        .new).connect h due)
  | removes (t : ℕ) : e.answer = some false → e.selfBlanked = false →
      pending (s.now e 2) (s.presenceGrace h) = false → s.now e 0 ≤ t →
      elapsed (s.now e 4) ((s.connectorAbsentSince h).getD t) presenceRemoveMs = true →
      Probes s e h (((s.core.note h (s.now e 0) e.answer).setSince h none).disconnect h)

namespace Core

variable {c : Core} {h : ℕ}

@[simp]
theorem setSince_setSince {a b : Option ℕ} : (c.setSince h a).setSince h b = c.setSince h b := by
  simp [setSince]

theorem setSince_note {now : ℕ} {answer : Option Bool} {since : Option ℕ}
    (hsame : c.absentSince h = since) :
    (c.note h now answer).setSince h since = c.note h now answer := by
  subst hsame
  cases answer <;> simp [note, setSince]

end Core

namespace State

variable {dock : Dock} {s : State} {e : Input} {h : ℕ}

/-- A negative answer lets its run go on, or leaves it alone. -/
theorem negative_core (now now' : ℕ) :
    (s.negative h now now').core = s.core ∨
      (s.negative h now now').core =
        s.core.setSince h (some ((s.connectorAbsentSince h).getD now)) := by
  unfold negative
  split
  · refine .inr ?_
    split <;> rfl
  · exact .inl rfl

theorem negative_frame (now now' : ℕ) :
    (s.negative h now now').clock = s.clock ∧
      (s.negative h now now').presenceGrace = s.presenceGrace := by
  unfold negative
  split
  · split <;> exact ⟨rfl, rfl⟩
  · exact ⟨rfl, rfl⟩

theorem absentFrom_now {now k : ℕ} : (s.absentFrom h now).now e k = s.now e k := rfl

theorem absentFrom_self {now : ℕ} :
    (s.absentFrom h now).connectorAbsentSince h = some ((s.connectorAbsentSince h).getD now) :=
  Function.update_self ..

theorem sustained_absentFrom {now now' : ℕ} :
    (s.absentFrom h now).sustained h now' =
      elapsed now' ((s.connectorAbsentSince h).getD now) presenceRemoveMs := by
  rw [sustained, absentFrom_self, Option.any_some]

theorem recoverySink_core :
    (e.reengaged = true ∧ ∃ due, (s.recoverySink e h).core = (s.core.setSince h none).connect h due)
      ∨ (s.recoverySink e h).core = s.core.setSince h none := by
  unfold recoverySink
  split
  · rename_i hre
    exact .inl ⟨hre, _, rfl⟩
  · exact .inr rfl

theorem record_core (now : ℕ) (answer : Option Bool) :
    (s.record h now answer).core = s.core.note h now answer := by
  cases answer <;> rfl

theorem record_since (now : ℕ) (answer : Option Bool) :
    (s.record h now answer).connectorAbsentSince = s.connectorAbsentSince := by
  cases answer <;> rfl

theorem record_clock (now : ℕ) (answer : Option Bool) :
    (s.record h now answer).clock = s.clock := by
  cases answer <;> rfl

/-- An answer that leaves the run alone. -/
theorem note_keeps {now : ℕ} {answer : Option Bool} {since : Option ℕ}
    (hsame : s.connectorAbsentSince h = since) :
    (s.core.note h now answer).setSince h since = s.core.note h now answer :=
  Core.setSince_note hsame

theorem recover_spec (dock : Dock) (s : State) (e : Input) (nowR h : ℕ) :
    Recovers s e h (s.recover dock e nowR h).core := by
  unfold recover
  split
  · exact .skips
  split
  · exact .skips
  split
  · exact .skips
  split
  · exact .skips
  generalize hs₁ : (s.setReengage h (after (s.now e 0) reengageRetry)).record h (s.now e 1) e.answer
    = s₁
  have hcore : s₁.core = s.core.note h (s.now e 1) e.answer := by
    rw [← hs₁, record_core]
    rfl
  have hnow : s₁.now e 1 = s.now e 1 := by
    rw [← hs₁, now, record_clock]
    rfl
  have hsince : s₁.connectorAbsentSince h = s.connectorAbsentSince h := by
    rw [← hs₁, record_since]
    rfl
  -- the re-engage, whatever the answer has left behind
  have hsink : ∀ (t : State) since, t.core = (s.core.note h (s.now e 1) e.answer).setSince h since →
      Recovers s e h (t.recoverySink e h).core := by
    intro t since ht
    rcases recoverySink_core (s := t) (e := e) (h := h) with ⟨-, due, hdue⟩ | hnone
    · rw [hdue, ht, Core.setSince_setSince]
      exact .connects due
    · rw [hnone, ht, Core.setSince_setSince]
      exact .notes none (.inl rfl)
  dsimp only
  split
  · rename_i hanswer
    obtain ⟨since, hleaves, hneg⟩ :
        ∃ since, Leaves (s.connectorAbsentSince h) (s.now e 1) e.answer since ∧
          (s₁.negative h (s₁.now e 1) (s₁.now e 2)).core =
            (s.core.note h (s.now e 1) e.answer).setSince h since := by
      rcases negative_core (s := s₁) (h := h) (s₁.now e 1) (s₁.now e 2) with hsame | hfrom
      · refine ⟨s.connectorAbsentSince h, .inr ⟨hanswer, .inl rfl⟩, ?_⟩
        rw [hsame, hcore, note_keeps rfl]
      · refine ⟨_, .inr ⟨hanswer, .inr ⟨s.now e 1, le_rfl, rfl⟩⟩, ?_⟩
        rw [hfrom, hcore, hsince, hnow]
    split
    · rw [hneg]
      exact .notes since hleaves
    · split
      · rw [hneg]
        exact .notes since hleaves
      · exact hsink _ since hneg
  · have hself : s₁.core = (s.core.note h (s.now e 1) e.answer).setSince h
        (s.connectorAbsentSince h) := by rw [hcore, note_keeps rfl]
    exact hsink _ _ hself

theorem probe_present (hanswer : e.answer = some true) (hblank : e.selfBlanked = false) :
    Probes s e h (s.probe e h).core := by
  have hnote : s.core.note h (s.now e 0) e.answer = s.core.note h (s.now e 0) (some true) := by
    rw [hanswer]
  have hnone : ∀ t : State, t.core = (s.core.note h (s.now e 0) (some true)).setSince h none →
      Probes s e h t.core := by
    intro t ht
    rw [ht, ← hnote]
    exact .notes none (.inl rfl)
  simp only [probe, hanswer, hblank, Bool.false_eq_true, if_false, if_true, Bool.not_true,
    Bool.false_and]
  generalize hs₁ : (s.record h (s.now e 0) (some true)).setProbed h (some true) = s₁
  split
  · -- a monitor that is known
    simp only [agree, Bool.true_and]
    split
    · split
      · rename_i hrepair
        subst hs₁
        have hprobes := Probes.repairs (s := s) (h := h) hanswer hblank hrepair
        rwa [hanswer] at hprobes
      · rename_i hrepair
        subst hs₁
        have hprobes := Probes.heals (s := s) (h := h) hanswer (Bool.eq_false_iff.mpr hrepair)
        rwa [hanswer] at hprobes
    · rename_i hsince
      subst hs₁
      have hsame : s.connectorAbsentSince h = none := by
        simpa [setDebounce, setProbed, record] using hsince
      refine hnone _ ?_
      rw [note_keeps hsame]
      rfl
  · rename_i hknown
    simp only [arrive]
    split
    · subst hs₁
      exact hnone _ rfl
    · rename_i hdebounce
      split
      · subst hs₁
        exact hnone _ rfl
      · rename_i hpending
        split
        · rename_i hre
          subst hs₁
          have hdue : 1 ≤ s.connectorDebounce h := by
            by_contra hlt
            refine hdebounce ?_
            have hzero : s.connectorDebounce h = 0 := by omega
            simp [forget, setProbed, record, hzero]
          have hprobes := Probes.connects (s := s) (h := h)
            (after (s.now e 6) hotplugCoalesce) hanswer hblank
            (Bool.eq_false_iff.mpr fun hk => hknown hk.symm) hdue
            (Bool.eq_false_iff.mpr hpending) hre
          rwa [hanswer] at hprobes
        · subst hs₁
          exact hnone _ rfl

theorem probe_absent (hanswer : e.answer = some false) (hblank : e.selfBlanked = false) :
    Probes s e h (s.probe e h).core := by
  have hnotes : ∀ (t : State) since, Leaves (s.connectorAbsentSince h) (s.now e 0) e.answer since →
      t.core = (s.core.note h (s.now e 0) (some false)).setSince h since →
      Probes s e h t.core := by
    intro t since hleaves ht
    rw [ht, ← hanswer]
    exact .notes since hleaves
  simp only [probe, hanswer, hblank, Bool.false_eq_true, if_false, Bool.not_false, Bool.true_and]
  generalize hs₁ : (s.record h (s.now e 0) (some false)).negative h
    ((s.record h (s.now e 0) (some false)).now e 0)
    ((s.record h (s.now e 0) (some false)).now e 1) = s₁
  obtain ⟨hclock, hgrace⟩ : s₁.clock = s.clock ∧ s₁.presenceGrace = s.presenceGrace := by
    subst hs₁
    exact negative_frame _ _
  obtain ⟨since, hleaves, hcore⟩ :
      ∃ since, (since = s.connectorAbsentSince h ∨
          since = some ((s.connectorAbsentSince h).getD (s.now e 0))) ∧
        s₁.core = (s.core.note h (s.now e 0) (some false)).setSince h since := by
    subst hs₁
    rcases negative_core (s := s.record h (s.now e 0) (some false)) (h := h)
      ((s.record h (s.now e 0) (some false)).now e 0)
      ((s.record h (s.now e 0) (some false)).now e 1) with hsame | hfrom
    · refine ⟨_, .inl rfl, ?_⟩
      rw [note_keeps rfl, hsame]
      rfl
    · exact ⟨_, .inr rfl, hfrom⟩
  have hleft : Leaves (s.connectorAbsentSince h) (s.now e 0) e.answer since := by
    refine .inr ⟨hanswer, ?_⟩
    rcases hleaves with hsame | hfrom
    · exact .inl hsame
    · exact .inr ⟨s.now e 0, le_rfl, hfrom⟩
  split
  · exact hnotes _ since hleft hcore
  split
  · refine hnotes _ none (.inl rfl) ?_
    calc ((s₁.setDebounce h 0).forget h).core = s₁.core.setSince h none := rfl
      _ = _ := by rw [hcore, Core.setSince_setSince]
  · rename_i hpending
    have hsince : s₁.connectorAbsentSince h = since := by
      have hself := congrArg (fun c => c.absentSince h) hcore
      simpa [Core.setSince, core] using hself
    obtain ⟨t, ht, hget⟩ : ∃ t, s.now e 0 ≤ t ∧
        (s₁.connectorAbsentSince h).getD (s₁.now e 3) = (s.connectorAbsentSince h).getD t := by
      rw [hsince]
      rcases hleaves with rfl | rfl
      · refine ⟨s₁.now e 3, ?_, rfl⟩
        rw [now, now, hclock]
        exact reading_mono _ _ (by omega)
      · exact ⟨s.now e 0, le_rfl, rfl⟩
    simp only [vanish]
    split
    · rename_i hsustained
      have helapsed : elapsed (s.now e 4) ((s.connectorAbsentSince h).getD t) presenceRemoveMs := by
        have hnow : s₁.now e 4 = s.now e 4 := by rw [now, now, hclock]
        rwa [sustained_absentFrom, absentFrom_now, hget, hnow] at hsustained
      have hprobes := Probes.removes (s := s) (h := h) t hanswer hblank
        (by simpa [now, hclock, hgrace] using hpending) ht helapsed
      rw [hanswer] at hprobes
      have hcore' : (((s₁.absentFrom h (s₁.now e 3)).forget h).disconnect h).core =
          ((s.core.note h (s.now e 0) (some false)).setSince h none).disconnect h := by
        calc (((s₁.absentFrom h (s₁.now e 3)).forget h).disconnect h).core
            = ((s₁.core.setSince h
                (some ((s₁.connectorAbsentSince h).getD (s₁.now e 3)))).setSince h
                none).disconnect h := rfl
          _ = _ := by rw [hcore, Core.setSince_setSince, Core.setSince_setSince]
      rw [← hcore'] at hprobes
      exact hprobes
    · refine hnotes _ (some ((s.connectorAbsentSince h).getD t))
        (.inr ⟨hanswer, .inr ⟨t, ht, rfl⟩⟩) ?_
      calc (s₁.absentFrom h (s₁.now e 3)).core
          = s₁.core.setSince h (some ((s₁.connectorAbsentSince h).getD (s₁.now e 3))) := rfl
        _ = _ := by rw [hcore, Core.setSince_setSince, hget]

theorem probe_spec (s : State) (e : Input) (h : ℕ) : Probes s e h (s.probe e h).core := by
  cases hanswer : e.answer with
  | none =>
    simp only [probe, hanswer]
    exact .skips
  | some present =>
    cases hblank : e.selfBlanked with
    | true =>
      have hprobes := Probes.notes (s := s) (e := e) (h := h) none (.inl rfl)
      simp only [probe, hanswer, hblank, if_true]
      rwa [hanswer] at hprobes
    | false =>
      cases present with
      | true => exact probe_present hanswer hblank
      | false => exact probe_absent hanswer hblank

theorem announce_spec (s : State) (e : Input) :
    (s.announce e).core = s.core ∨
      (s.announce e).core = { s.core with hotplugDue := none, announced := s.connected } := by
  unfold announce
  split
  · split
    · exact .inl rfl
    · exact .inr rfl
  · exact .inl rfl

end State

/-- What a step does: the recovery or the probe of one connector, an announcement, or nothing. -/
theorem step_spec (dock : Dock) (s : State) (e : Input) :
    (step dock s e).core = s.core ∨
      (step dock s e).core = { s.core with hotplugDue := none, announced := s.connected } ∨
      (∃ h, Recovers s e h (step dock s e).core) ∨
      ∃ h, s.position = .probing h ∧ h < dock.connectorCount ∧
        Probes s e h (step dock s e).core := by
  have hclock : (step dock s e).core = (s.act dock e).core := rfl
  rw [hclock, State.act]
  split
  · refine .inl ?_
    unfold State.top
    split <;> rfl
  · rename_i nowR h hposition
    split
    · exact .inr (.inr (.inl ⟨h, s.recover_spec dock e nowR h⟩))
    · exact .inl rfl
  · refine .inl ?_
    simp only [State.schedule]
    split <;> split <;> rfl
  · rename_i h hposition
    split
    · rename_i hlt
      exact .inr (.inr (.inr ⟨h, hposition, hlt, s.probe_spec e h⟩))
    · exact .inl rfl
  · rcases s.announce_spec e with hsame | hsent
    · exact .inl hsame
    · exact .inr (.inl hsent)

/-! ### Verdicts -/

/-- The last answers are all negative, from one on that came at `t` or before. -/
def Absent (answers : List (ℕ × Bool)) (t : ℕ) : Prop :=
  ∃ run a rest, answers = run ++ a :: rest ∧ (∀ x ∈ run, x.2 = false) ∧ a.2 = false ∧ a.1 ≤ t

theorem Absent.cons {answers : List (ℕ × Bool)} {now t : ℕ} (h : Absent answers t) :
    Absent ((now, false) :: answers) t := by
  obtain ⟨run, a, rest, rfl, hrun, ha, hle⟩ := h
  refine ⟨(now, false) :: run, a, rest, rfl, fun x hx => ?_, ha, hle⟩
  rcases List.mem_cons.mp hx with rfl | hx
  · rfl
  · exact hrun x hx

theorem absent_first {answers : List (ℕ × Bool)} {now t : ℕ} (h : now ≤ t) :
    Absent ((now, false) :: answers) t :=
  ⟨[], (now, false), answers, rfl, by simp, rfl, h⟩

/-- A negative answer continues a run, or begins one. -/
theorem absent_next {answers : List (ℕ × Bool)} {before : Option ℕ} {now t : ℕ}
    (hbefore : ∀ b ∈ before, Absent answers b) (hle : now ≤ t) :
    Absent ((now, false) :: answers) (before.getD t) := by
  cases before with
  | none => exact absent_first hle
  | some b => exact (hbefore b rfl).cons

structure Core.Sound (c : Core) : Prop where
  absent : ∀ h, ∀ t ∈ c.absentSince h, Absent (c.answers h) t
  due : ∀ h, c.connected h ≠ c.announced h → c.hotplugDue.isSome

namespace Core

variable {c : Core} {h : ℕ}

theorem Sound.note (hc : c.Sound) {now : ℕ} {answer : Option Bool} {since : Option ℕ}
    (hleaves : Leaves (c.absentSince h) now answer since) :
    ((c.note h now answer).setSince h since).Sound := by
  refine ⟨fun h' t ht => ?_, fun h' hne => ?_⟩
  · by_cases heq : h' = h
    · subst heq
      rcases hleaves with rfl | ⟨rfl, hsince⟩
      · simp [setSince] at ht
      · obtain rfl : since = some t := by simpa [setSince] using ht
        simp only [Core.note, setSince, Function.update_self]
        rcases hsince with hsame | ⟨t', hle, hfrom⟩
        · exact (hc.absent h' t hsame.symm).cons
        · rw [Option.some.inj hfrom]
          exact absent_next (hc.absent h') hle
    · have hold : t ∈ c.absentSince h' := by
        cases answer <;> simpa [Core.note, setSince, heq] using ht
      cases answer <;> simpa [Core.note, setSince, heq] using hc.absent h' t hold
  · cases answer <;> exact hc.due h' hne

theorem Sound.setFlap (hc : c.Sound) (f : FlapTracker) : (c.setFlap h f).Sound :=
  ⟨hc.absent, hc.due⟩

theorem Sound.connect (hc : c.Sound) (due : ℕ) : (c.connect h due).Sound :=
  ⟨hc.absent, fun _ _ => rfl⟩

theorem Sound.disconnect (hc : c.Sound) : (c.disconnect h).Sound :=
  ⟨hc.absent, fun _ hne => absurd rfl hne⟩

theorem Sound.repair (hc : c.Sound) : (c.repair h).Sound :=
  ⟨hc.absent, fun _ hne => absurd rfl hne⟩

end Core

variable {dock : Dock} {s : State} {e : Input}

theorem sound_step (dock : Dock) (s : State) (e : Input) (hs : s.core.Sound) :
    (step dock s e).core.Sound := by
  rcases step_spec dock s e with heq | heq | ⟨h, hrec⟩ | ⟨h, -, -, hprobe⟩
  · rwa [heq]
  · rw [heq]
    exact ⟨hs.absent, fun _ hne => absurd rfl hne⟩
  · generalize (step dock s e).core = c at hrec
    cases hrec with
    | skips => exact hs
    | notes since hleaves => exact hs.note hleaves
    | connects due => exact (hs.note (.inl rfl)).connect due
  · generalize (step dock s e).core = c at hprobe
    cases hprobe with
    | skips => exact hs
    | notes since hleaves => exact hs.note hleaves
    | heals => exact (hs.note (.inl rfl)).setFlap _
    | repairs => exact ((hs.note (.inl rfl)).setFlap _).repair
    | connects due => exact ((hs.note (.inl rfl)).setFlap _).connect due
    | removes => exact (hs.note (.inl rfl)).disconnect

theorem sound_run (dock : Dock) (connected : ℕ → Bool) (es : List Input) :
    (run (step dock) (.initial connected) es).core.Sound := by
  refine run_invariant (P := fun s => s.core.Sound) (fun s e hs _ => sound_step dock s e hs) es _ ?_
    (along_of_forall es _ fun _ _ => trivial)
  exact ⟨by simp [State.initial, State.core], fun _ hne => absurd rfl hne⟩

/-- A monitor is dropped only for a repair or behind a sustained absence. -/
theorem removal_justified (hs : s.core.Sound) {h : ℕ} (hknown : s.connectorKnown h = true)
    (hgone : (step dock s e).connectorKnown h = false) :
    e.selfBlanked = false ∧
      (e.answer = some true ∧ ((s.flap h).healed (s.now e 2)).2 = true ∨
        pending (s.now e 2) (s.presenceGrace h) = false ∧
          ∃ t, Absent ((step dock s e).answers h) t ∧
            elapsed (s.now e 4) t presenceRemoveMs = true) := by
  have hknown' : s.core.known h = true := hknown
  have hgone' : (step dock s e).core.known h = false := hgone
  change _ ∧ (_ ∨ _ ∧ ∃ t, Absent ((step dock s e).core.answers h) t ∧ _)
  rcases step_spec dock s e with heq | heq | ⟨h', hrec⟩ | ⟨h', -, -, hprobe⟩
  · rw [heq, hknown'] at hgone'
    cases hgone'
  · rw [heq] at hgone'
    simp [hknown'] at hgone'
  · generalize (step dock s e).core = c at hrec hgone'
    cases hrec with
    | skips => simp [hknown'] at hgone'
    | notes =>
      cases hanswer : e.answer <;> simp [Core.note, Core.setSince, hanswer, hknown'] at hgone'
    | connects due =>
      by_cases heq : h = h' <;> cases hanswer : e.answer <;>
        simp [Core.note, Core.setSince, Core.connect, hanswer, hknown', heq] at hgone'
  · generalize (step dock s e).core = c at hprobe hgone'
    cases hprobe with
    | skips => simp [hknown'] at hgone'
    | notes =>
      cases hanswer : e.answer <;> simp [Core.note, Core.setSince, hanswer, hknown'] at hgone'
    | heals hanswer => simp [Core.note, Core.setSince, Core.setFlap, hanswer, hknown'] at hgone'
    | connects due hanswer =>
      by_cases heq : h = h' <;>
        simp [Core.note, Core.setSince, Core.setFlap, Core.connect, hanswer, hknown', heq] at hgone'
    | repairs hanswer hblank hrepair =>
      obtain rfl : h = h' := by
        by_contra hne
        simp [Core.note, Core.setSince, Core.setFlap, Core.repair, Core.disconnect, hanswer,
          hknown', hne] at hgone'
      exact ⟨hblank, .inl ⟨hanswer, hrepair⟩⟩
    | removes t hanswer hblank hgrace hle helapsed =>
      obtain rfl : h = h' := by
        by_contra hne
        simp [Core.note, Core.setSince, Core.disconnect, hanswer, hknown', hne] at hgone'
      refine ⟨hblank, .inr ⟨hgrace, _, ?_, helapsed⟩⟩
      simp only [Core.note, Core.setSince, Core.disconnect, hanswer, Function.update_self]
      exact absent_next (hs.absent h) hle

/-- **Presence verdicts.**  In every run a known monitor is dropped only while it is not blanked,
and either because a repair fires or behind a run of negative answers of at least
`PRESENCE_REMOVE_MS` with its grace over; and between two iterations an event is due whenever what
the loop has set differs from what it has announced. -/
theorem presence_sound (dock : Dock) (connected : ℕ → Bool) (es : List Input) :
    let s := run (step dock) (.initial connected) es
    (∀ e h, s.connectorKnown h = true → (step dock s e).connectorKnown h = false →
      e.selfBlanked = false ∧
        (e.answer = some true ∧ ((s.flap h).healed (s.now e 2)).2 = true ∨
          pending (s.now e 2) (s.presenceGrace h) = false ∧
            ∃ t, Absent ((step dock s e).answers h) t ∧
              elapsed (s.now e 4) t presenceRemoveMs = true)) ∧
    (s.position = .top → s.connected ≠ s.announced → s.hotplugDue.isSome = true) := by
  intro s
  have hs := sound_run dock connected es
  refine ⟨fun e h hknown hgone => removal_justified hs hknown hgone, fun _ hne => ?_⟩
  obtain ⟨h, hh⟩ := Function.ne_iff.mp hne
  exact hs.due h hh

/-! ### Repairs -/

/-- The probe of a connector brings it back. -/
def State.reconnects (s : State) (e : Input) (h : ℕ) : Bool :=
  e.answer == some true && !e.selfBlanked && !s.connectorKnown h && 1 ≤ s.connectorDebounce h &&
    !pending (s.now e 3) (s.nextReengage h) && e.reengaged

/-- The probe brings no connector back whose tracker has counted a repair. -/
def Recovered (dock : Dock) (s : State) (e : Input) : Prop :=
  match s.position with
  | .probing h =>
      h < dock.connectorCount → s.reconnects e h = true → (s.flap h).repairs = 0
  | _ => True

instance decidableRecovered (dock : Dock) (s : State) (e : Input) :
    Decidable (Recovered dock s e) := by
  unfold Recovered
  split <;> infer_instance

/-- A tracker has counted every repair. -/
def Counted (s : State) : Prop :=
  ∀ h, s.repaired h = (s.flap h).repairs ∧ (s.flap h).repairs ≤ FlapTracker.repairLimit

theorem counted_step (s : State) (e : Input) (hs : Counted s) (hback : Recovered dock s e) :
    Counted (step dock s e) := by
  have hcounted : ∀ h, s.core.repaired h = (s.core.flap h).repairs ∧
      (s.core.flap h).repairs ≤ FlapTracker.repairLimit := hs
  suffices ∀ h, (step dock s e).core.repaired h = ((step dock s e).core.flap h).repairs ∧
      ((step dock s e).core.flap h).repairs ≤ FlapTracker.repairLimit from this
  rcases step_spec dock s e with heq | heq | ⟨h, hrec⟩ | ⟨h, hposition, hlt, hprobe⟩
  · rwa [heq]
  · rw [heq]
    exact hcounted
  · generalize (step dock s e).core = c at hrec
    cases hrec with
    | skips => exact hcounted
    | notes => cases hanswer : e.answer <;> simpa [Core.note, Core.setSince] using hcounted
    | connects =>
      cases hanswer : e.answer <;> simpa [Core.note, Core.setSince, Core.connect] using hcounted
  · generalize (step dock s e).core = c at hprobe
    have hhealed := (s.flap h).healed_repairs (s.now e 2)
    cases hprobe with
    | skips => exact hcounted
    | notes => cases hanswer : e.answer <;> simpa [Core.note, Core.setSince] using hcounted
    | heals hanswer hno =>
      intro h'
      by_cases heq : h' = h
      · subst heq
        simpa [State.core, Core.note, Core.setSince, Core.setFlap, hanswer, hhealed.1, hno]
          using hs h'
      · simpa [Core.note, Core.setSince, Core.setFlap, hanswer, heq] using hcounted h'
    | repairs hanswer hblank hrepair =>
      intro h'
      by_cases heq : h' = h
      · subst heq
        have hlimit := hhealed.2 hrepair
        have hold : s.core.repaired h' = (s.flap h').repairs := (hcounted h').1
        simp only [Core.note, Core.setSince, Core.setFlap, Core.repair, Core.disconnect, hanswer,
          Function.update_self, hhealed.1, hrepair, hold, Bool.toNat_true]
        exact ⟨trivial, hlimit⟩
      · simpa [Core.note, Core.setSince, Core.setFlap, Core.repair, Core.disconnect, hanswer, heq]
          using hcounted h'
    | connects due hanswer hblank hknown hdebounce hpending hre =>
      intro h'
      by_cases heq : h' = h
      · subst heq
        -- the new tracker begins at no repair, as the old one has counted none
        have hzero : (s.flap h').repairs = 0 := by
          simp only [Recovered, hposition] at hback
          refine hback hlt ?_
          simp [State.reconnects, hanswer, hblank, hknown, hdebounce, hpending, hre]
        have hold : s.core.repaired h' = 0 := (hcounted h').1.trans hzero
        simp [Core.note, Core.setSince, Core.setFlap, Core.connect, hanswer, hold, FlapTracker.new]
      · simpa [Core.note, Core.setSince, Core.setFlap, Core.connect, hanswer, heq] using hcounted h'
    | removes t hanswer =>
      simpa [Core.note, Core.setSince, Core.disconnect, hanswer] using hcounted

/-- **Repairs are bounded** as long as the recovery, and not the probe, brings a repaired connector
back. -/
theorem repairs_bounded (dock : Dock) (connected : ℕ → Bool) (es : List Input)
    (hback : Along (Recovered dock) (step dock) (.initial connected) es) (h : ℕ) :
    (run (step dock) (.initial connected) es).repaired h ≤ FlapTracker.repairLimit := by
  have hcounted := run_invariant (P := Counted) counted_step es (.initial connected)
    (fun _ => ⟨rfl, Nat.zero_le _⟩) hback
  rw [(hcounted h).1]
  exact (hcounted h).2

/-- The run of negative answers behind an answer began here. -/
def absence : List (ℕ × Bool) → Option ℕ
  | [] => none
  | (now, present) :: answers => if present then none else some ((absence answers).getD now)

/-- The monitor is never called absent for `PRESENCE_REMOVE_MS` in a row. -/
def onlyFlaps : List (ℕ × Bool) → Bool
  | [] => true
  | (now, present) :: answers =>
      (present || !elapsed now ((absence answers).getD now) presenceRemoveMs) && onlyFlaps answers

/-- A step that begins so many milliseconds later. -/
def input (ms : ℕ) (answer : Option Bool) : Input where
  ticks k := if k = 0 then ms * nsecPerMsec else 0
  hold := .free
  answer := answer
  selfBlanked := false
  reengaged := true
  downstreamEvent := false

/-- An iteration over one connector: it begins `wait` milliseconds behind the last one, and probes
`late` ones behind the recovery. -/
def iteration (wait late : ℕ) (answer : Bool) : List Input :=
  [input wait none, input 0 (some answer), input 0 none, input late none, input 0 (some answer),
    input 0 none, input 0 none]

/-- Three flaps in six seconds. -/
def flaps (wait : ℕ) : List Input :=
  iteration wait 0 false ++ iteration 1000 0 true ++ iteration 1000 0 false ++
    iteration 1000 0 true ++ iteration 1000 0 false ++ iteration 1000 0 true

/-- The deadline of the next re-engage passes between the recovery and the probe. -/
def broughtBack : List Input :=
  iteration 1000 0 true ++ iteration 1000 0 true ++ iteration 1000 0 true ++ iteration 999 1 true

theorem repaired_once :
    (run (step ⟨1, true, false⟩) (.initial fun h => h == 0) (flaps 1000)).repaired 0 = 1 ∧
      1 ≤ FlapTracker.repairLimit := by
  have hone :
      (run (step ⟨1, true, false⟩) (.initial fun h => h == 0) (flaps 1000)).repaired 0 = 1 := by
    decide +kernel
  refine ⟨hone, ?_⟩
  rw [← hone]
  exact repairs_bounded _ _ (flaps 1000) (by decide +kernel) 0

/-- A sink that only flaps is dropped for repair a fourth time. -/
theorem repairs_go_on :
    ¬ ∀ (dock : Dock) (connected : ℕ → Bool) (es : List Input) (h : ℕ),
      onlyFlaps ((run (step dock) (.initial connected) es).answers h) = true →
      (run (step dock) (.initial connected) es).repaired h ≤ FlapTracker.repairLimit := by
  intro hall
  have hfour := hall ⟨1, true, false⟩ (fun h => h == 0)
    (flaps 1000 ++ broughtBack ++ flaps 10000 ++ broughtBack ++ flaps 10000 ++ broughtBack ++
      flaps 10000) 0 (by decide +kernel)
  exact absurd hfour (by decide +kernel)

end Vino.Kms.Presence
