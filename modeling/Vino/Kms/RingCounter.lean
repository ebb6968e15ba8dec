import Vino.Lib.Run

/-!
# The Ring Counter

Every presentation names the ring slot it fills by a frame number.  `encode_and_send_haar` reads the
number once, counts its presentations itself and publishes the count behind the last of them;
`submit_prompt_training` publishes behind each one; `arm_stream_prologue` and the opening of a stream
start the count over.  One connector is modelled, with the two work items that present on it.

* `numbers_in_step`: in every run in which no frame is begun beside another, or behind one that was
  stopped between its presentations or published over a restart, and none is continued over a
  restart, each presentation names the number that follows the last one fully submitted,
* `stopped_keyframe_repeats`: behind a keyframe that fails at its second presentation the next frame
  names the slot of the first again.
-/

namespace Vino.Kms.RingCounter

open Vino.Lib.Run

/-! ### The state of a connector -/

/-- The work items that present. -/
inductive Thread where
  | scanout
  | command
  deriving DecidableEq

def Thread.other : Thread → Thread
  | .scanout => .command
  | .command => .scanout

/-- A frame or a carrier in flight. -/
structure Presentation where
  /-- A carrier of `submit_prompt_training`, which publishes behind each presentation. -/
  training : Bool
  /-- The first presentation carries the prefix that opens the stream, if it is owed. -/
  opens : Bool
  seq0 : UInt32
  /-- Presentations that named a slot, and how many of them are published. -/
  named : ℕ
  published : ℕ
  /-- Presentations still to come. -/
  left : ℕ
  /-- The stream was restarted meanwhile. -/
  overtaken : Bool
  deriving DecidableEq

inductive Presenter where
  | idle
  /-- `submit_prompt_training` has reset the count and not read it yet. -/
  | opening
  | presenting (p : Presentation)
  deriving DecidableEq

/-- What the dock sees of the count: a restart, or a presentation that names a slot, submitted in
full or not. -/
inductive Mark where
  | restart
  | named (seq : UInt32) (submitted : Bool)
  deriving DecidableEq

structure State where
  scanoutSeq : UInt32
  armPrefixPending : Bool
  scanout : Presenter
  command : Presenter
  trace : List Mark
  /-- The published count lags behind the dock, or a restart was overwritten. -/
  stale : Bool
  deriving DecidableEq

def State.initial : State where
  scanoutSeq := 0
  armPrefixPending := false
  scanout := .idle
  command := .idle
  trace := []
  stale := false

namespace State

def presenter (s : State) : Thread → Presenter
  | .scanout => s.scanout
  | .command => s.command

def setPresenter (s : State) (p : Presenter) : Thread → State
  | .scanout => { s with scanout := p }
  | .command => { s with command := p }

end State

inductive Event where
  /-- `arm_stream_prologue`. -/
  | armStreamPrologue
  /-- `encode_and_send_haar` reads the count, for a frame of some presentations. -/
  | frame (t : Thread) (presentations : ℕ)
  /-- `submit_prompt_training` opens the stream. -/
  | openStream (t : Thread)
  /-- It reads the count, behind an opening or without one. -/
  | train (t : Thread) (presentations : ℕ)
  /-- The next presentation is submitted, or fails. -/
  | present (t : Thread) (submitted : Bool)
  /-- The count is published. -/
  | publish (t : Thread)
  /-- The frame is superseded or fails, or the carrier ends. -/
  | leave (t : Thread)
  deriving DecidableEq

/-! ### One step -/

def Presenter.overtake : Presenter → Presenter
  | .presenting p => .presenting { p with overtaken := true }
  | p => p

/-- The count starts over; whoever presents does not know. -/
def State.restart (s : State) : State :=
  { s with
    scanoutSeq := 0
    scanout := s.scanout.overtake
    command := s.command.overtake
    trace := s.trace ++ [.restart]
    stale := false }

/-- A frame or a carrier begins at the published count. -/
def State.begin (s : State) (t : Thread) (training opens : Bool) (presentations : ℕ) : State :=
  s.setPresenter (.presenting ⟨training, opens, s.scanoutSeq, 0, 0, presentations, false⟩) t

/-- The frame number of the next presentation: `seq0.wrapping_add(named)`. -/
def Presentation.seq (p : Presentation) : UInt32 := p.seq0 + UInt32.ofNat p.named

/-- One step; a step that is not due changes nothing.  `shared` says that the dock carries video on
its control pipe. -/
def step (shared : Bool) (s : State) : Event → State
  | .armStreamPrologue =>
      if shared then { s.restart with armPrefixPending := true }
      else { s with armPrefixPending := true }
  | .frame t presentations =>
      match s.presenter t with
      | .idle => s.begin t false true presentations
      | _ => s
  | .openStream t =>
      match s.presenter t with
      | .idle => if s.armPrefixPending then s.restart.setPresenter .opening t else s
      | _ => s
  | .train t presentations =>
      match s.presenter t with
      | .idle => s.begin t true false presentations
      | .opening => s.begin t true true presentations
      | _ => s
  | .present t submitted =>
      match s.presenter t with
      | .presenting p =>
          if p.left = 0 ∨ (p.training = true ∧ p.published < p.named) then s
          else if submitted then
            { s.setPresenter (.presenting { p with named := p.named + 1, left := p.left - 1 }) t with
              armPrefixPending := s.armPrefixPending && !(p.opens && p.named == 0)
              trace := s.trace ++ [.named p.seq true] }
          else
            { s.setPresenter .idle t with
              trace := s.trace ++ [.named p.seq false]
              stale := s.stale || (!p.overtaken && decide (p.published < p.named)) }
      | _ => s
  | .publish t =>
      match s.presenter t with
      | .presenting p =>
          if p.training then
            { s.setPresenter (.presenting { p with published := p.named }) t with
              scanoutSeq := p.seq
              stale := s.stale || p.overtaken }
          else if p.left = 0 then
            { s.setPresenter .idle t with
              scanoutSeq := p.seq
              stale := s.stale || p.overtaken }
          else s
      | _ => s
  | .leave t =>
      match s.presenter t with
      | .presenting p =>
          if p.training = true ∧ p.published < p.named then s
          else
            { s.setPresenter .idle t with
              stale := s.stale || (!p.overtaken && decide (p.published < p.named)) }
      | _ => s.setPresenter .idle t

/-! ### Numbers in step -/

/-- The number the dock expects behind a trace, from `next` on. -/
def expected (next : UInt32) : List Mark → UInt32
  | [] => next
  | .restart :: marks => expected 0 marks
  | .named seq submitted :: marks => expected (if submitted then seq + 1 else next) marks

/-- Each presentation names the number that follows the last one fully submitted, or the start value
behind a restart. -/
def InStep (next : UInt32) : List Mark → Prop
  | [] => True
  | .restart :: marks => InStep 0 marks
  | .named seq submitted :: marks => seq = next ∧ InStep (if submitted then seq + 1 else next) marks

/-- No frame or carrier is begun while the other work item presents or while the published count is
stale, and none presents behind a restart it has not seen. -/
def Undisturbed (s : State) : Event → Prop
  | .frame t _ | .train t _ => s.presenter t.other = .idle ∧ s.stale = false
  | .openStream t => s.presenter t.other = .idle
  | .present t _ => ∀ p, s.presenter t = .presenting p → p.overtaken = false
  | _ => True

theorem expected_append (next : UInt32) (marks marks' : List Mark) :
    expected next (marks ++ marks') = expected (expected next marks) marks' := by
  induction marks generalizing next with
  | nil => rfl
  | cons m marks ih => cases m <;> exact ih _

theorem inStep_append (next : UInt32) (marks marks' : List Mark) :
    InStep next (marks ++ marks') ↔ InStep next marks ∧ InStep (expected next marks) marks' := by
  induction marks generalizing next with
  | nil => exact ⟨fun h => ⟨trivial, h⟩, fun h => h.2⟩
  | cons m marks ih =>
      cases m with
      | restart => exact ih 0
      | named seq submitted => exact (and_congr_right fun _ => ih _).trans and_assoc.symm

/-! ### The invariant -/

/-- A presenter agrees with the dock on its next number, and with the published count on what it has
published, unless it was overtaken. -/
def Agrees (s : State) : Presenter → Prop
  | .presenting p => p.overtaken = false → s.stale = false ∧ expected 0 s.trace = p.seq ∧
      s.scanoutSeq = p.seq0 + UInt32.ofNat p.published ∧ p.published ≤ p.named
  | _ => True

/-- The presenter has no count of its own to publish. -/
def Passive : Presenter → Prop
  | .presenting p => p.overtaken = true
  | _ => True

structure Inv (s : State) : Prop where
  inStep : InStep 0 s.trace
  alone : ∀ t, s.presenter t ≠ .idle → s.presenter t.other = .idle
  agrees : ∀ t, Agrees s (s.presenter t)
  settled : s.stale = false → (∀ t, Passive (s.presenter t)) → s.scanoutSeq = expected 0 s.trace

variable {s : State} {t : Thread} {p : Presentation}

@[simp]
theorem presenter_setPresenter (s : State) (q : Presenter) (t t' : Thread) :
    (s.setPresenter q t).presenter t' = if t' = t then q else s.presenter t' := by
  cases t <;> cases t' <;> rfl

@[simp]
theorem trace_setPresenter (s : State) (q : Presenter) (t : Thread) :
    (s.setPresenter q t).trace = s.trace := by
  cases t <;> rfl

@[simp]
theorem scanoutSeq_setPresenter (s : State) (q : Presenter) (t : Thread) :
    (s.setPresenter q t).scanoutSeq = s.scanoutSeq := by
  cases t <;> rfl

@[simp]
theorem stale_setPresenter (s : State) (q : Presenter) (t : Thread) :
    (s.setPresenter q t).stale = s.stale := by
  cases t <;> rfl

theorem eq_or_other (t t' : Thread) : t' = t ∨ t' = t.other := by
  cases t <;> cases t' <;> simp [Thread.other]

theorem other_ne (t : Thread) : t.other ≠ t := by
  cases t <;> nofun

@[simp]
theorem other_other (t : Thread) : t.other.other = t := by
  cases t <;> rfl

/-- One work item moves on while the other is idle. -/
theorem Inv.of {s' : State} (hother : s'.presenter t.other = .idle) (hstep : InStep 0 s'.trace)
    (hagrees : Agrees s' (s'.presenter t))
    (hsettled : s'.stale = false → Passive (s'.presenter t) → s'.scanoutSeq = expected 0 s'.trace) :
    Inv s' := by
  refine ⟨hstep, fun t' hbusy => ?_, fun t' => ?_, fun hstale hpassive =>
    hsettled hstale (hpassive t)⟩
  · rcases eq_or_other t t' with rfl | rfl
    · exact hother
    · exact absurd hother hbusy
  · rcases eq_or_other t t' with rfl | rfl
    · exact hagrees
    · rw [hother]
      trivial

theorem inv_restart (hs : Inv s) (pending : Bool) :
    Inv { s.restart with armPrefixPending := pending } := by
  have hpresenter : ∀ t, State.presenter { s.restart with armPrefixPending := pending } t =
      (s.presenter t).overtake := by
    intro t
    cases t <;> rfl
  have hpassive : ∀ q : Presenter, Passive q.overtake := by
    intro q
    cases q with
    | presenting p => exact rfl
    | idle => trivial
    | opening => trivial
  refine ⟨?_, fun t hbusy => ?_, fun t => ?_, fun _ _ => ?_⟩
  · exact (inStep_append 0 s.trace [.restart]).2 ⟨hs.inStep, trivial⟩
  · rw [hpresenter] at hbusy ⊢
    have hidle : s.presenter t.other = .idle := hs.alone t fun h => hbusy (by rw [h]; rfl)
    rw [hidle]
    rfl
  · rw [hpresenter]
    have h := hpassive (s.presenter t)
    cases hq : (s.presenter t).overtake with
    | presenting p =>
        rw [hq] at h
        exact fun hno => absurd (hno.symm.trans h) nofun
    | idle => trivial
    | opening => trivial
  · exact (expected_append 0 s.trace [.restart]).symm

theorem inv_begin (hs : Inv s) (hother : s.presenter t.other = .idle)
    (hpassive : Passive (s.presenter t)) (hstale : s.stale = false) (training opens : Bool)
    (presentations : ℕ) : Inv (s.begin t training opens presentations) := by
  have hseq := hs.settled hstale fun t' => by
    rcases eq_or_other t t' with rfl | rfl
    · exact hpassive
    · rw [hother]
      trivial
  refine Inv.of (t := t) ?_ ?_ ?_ ?_
  · simp [State.begin, other_ne, hother]
  · simpa [State.begin] using hs.inStep
  · simp [State.begin, Agrees, Presentation.seq, hstale, hseq]
  · simp [State.begin, Passive]

theorem inv_present {shared submitted : Bool} (hs : Inv s)
    (hc : Undisturbed s (.present t submitted)) : Inv (step shared s (.present t submitted)) := by
  simp only [step]
  split
  case h_2 => exact hs
  case h_1 p hp =>
    have hfollows : p.overtaken = false := hc p hp
    have hagrees := hs.agrees t
    rw [hp] at hagrees
    obtain ⟨hstale, hexpected, hseq, hle⟩ := hagrees hfollows
    have hother : s.presenter t.other = .idle := hs.alone t (by rw [hp]; nofun)
    have hnamed : ∀ submitted, InStep 0 (s.trace ++ [.named p.seq submitted]) := fun submitted =>
      (inStep_append _ _ _).2 ⟨hs.inStep, hexpected.symm, trivial⟩
    split_ifs with hdue hsubmitted
    · exact hs
    · refine Inv.of (t := t) ?_ (hnamed true) ?_ ?_
      · exact (presenter_setPresenter s _ t t.other).trans ((if_neg (other_ne t)).trans hother)
      · have hpresenter : State.presenter { s.setPresenter (.presenting
              { p with named := p.named + 1, left := p.left - 1 }) t with
            armPrefixPending := s.armPrefixPending && !(p.opens && p.named == 0)
            trace := s.trace ++ [.named p.seq true] } t =
              .presenting { p with named := p.named + 1, left := p.left - 1 } := by
          cases t <;> rfl
        rw [hpresenter]
        intro _
        refine ⟨?_, ?_, ?_, ?_⟩
        · simpa using hstale
        · rw [expected_append]
          simp only [expected, if_true, Presentation.seq]
          rw [UInt32.ofNat_add, UInt32.add_assoc]
          rfl
        · simpa using hseq
        · dsimp only
          omega
      · intro _ hpassive
        have hpresenter : State.presenter { s.setPresenter (.presenting
              { p with named := p.named + 1, left := p.left - 1 }) t with
            armPrefixPending := s.armPrefixPending && !(p.opens && p.named == 0)
            trace := s.trace ++ [.named p.seq true] } t =
              .presenting { p with named := p.named + 1, left := p.left - 1 } := by
          cases t <;> rfl
        rw [hpresenter] at hpassive
        exact absurd (hfollows.symm.trans hpassive) nofun
    · have hpresenter : ∀ t', State.presenter { s.setPresenter .idle t with
          trace := s.trace ++ [.named p.seq false]
          stale := s.stale || (!p.overtaken && decide (p.published < p.named)) } t' =
            (s.setPresenter .idle t).presenter t' := by
        intro t'
        cases t' <;> rfl
      refine Inv.of (t := t) ?_ (hnamed false) ?_ ?_
      · rw [hpresenter, presenter_setPresenter, if_neg (other_ne t)]
        exact hother
      · rw [hpresenter, presenter_setPresenter, if_pos rfl]
        trivial
      · intro hfresh _
        dsimp only at hfresh ⊢
        rw [hstale, hfollows] at hfresh
        have hall : p.published = p.named := by
          simp at hfresh
          omega
        rw [expected_append]
        simp only [expected, Bool.false_eq_true, if_false]
        rw [scanoutSeq_setPresenter, hseq, hexpected, Presentation.seq, hall]

theorem inv_publish {shared : Bool} (hs : Inv s) : Inv (step shared s (.publish t)) := by
  simp only [step]
  split
  case h_2 => exact hs
  case h_1 p hp =>
    have hagrees := hs.agrees t
    rw [hp] at hagrees
    have hother : s.presenter t.other = .idle := hs.alone t (by rw [hp]; nofun)
    have hpresenter : ∀ q t', State.presenter { s.setPresenter q t with
        scanoutSeq := p.seq
        stale := s.stale || p.overtaken } t' = (s.setPresenter q t).presenter t' := by
      intro q t'
      cases t' <;> rfl
    split_ifs with htraining hleft
    · refine Inv.of (t := t) ?_ ?_ ?_ ?_
      · rw [hpresenter, presenter_setPresenter, if_neg (other_ne t)]
        exact hother
      · simpa using hs.inStep
      · rw [hpresenter, presenter_setPresenter, if_pos rfl]
        intro hfollows
        replace hfollows : p.overtaken = false := hfollows
        obtain ⟨hstale, hexpected, -, -⟩ := hagrees hfollows
        refine ⟨by simp [hstale, hfollows], ?_, rfl, Nat.le_refl _⟩
        rw [trace_setPresenter]
        exact hexpected
      · rw [hpresenter, presenter_setPresenter, if_pos rfl]
        intro hfresh hpassive
        replace hpassive : p.overtaken = true := hpassive
        simp [hpassive] at hfresh
    · refine Inv.of (t := t) ?_ ?_ ?_ ?_
      · rw [hpresenter, presenter_setPresenter, if_neg (other_ne t)]
        exact hother
      · simpa using hs.inStep
      · rw [hpresenter, presenter_setPresenter, if_pos rfl]
        trivial
      · intro hfresh _
        have hfollows : p.overtaken = false := by
          dsimp only at hfresh
          simpa using (Bool.or_eq_false_iff.1 hfresh).2
        simpa using (hagrees hfollows).2.1.symm
    · exact hs

theorem inv_leave {shared : Bool} (hs : Inv s) : Inv (step shared s (.leave t)) := by
  simp only [step]
  split
  case h_1 p hp =>
    have hagrees := hs.agrees t
    rw [hp] at hagrees
    have hother : s.presenter t.other = .idle := hs.alone t (by rw [hp]; nofun)
    split_ifs with hpending
    · exact hs
    · have hpresenter : ∀ t', State.presenter { s.setPresenter .idle t with
          stale := s.stale || (!p.overtaken && decide (p.published < p.named)) } t' =
            (s.setPresenter .idle t).presenter t' := by
        intro t'
        cases t' <;> rfl
      refine Inv.of (t := t) ?_ ?_ ?_ ?_
      · rw [hpresenter, presenter_setPresenter, if_neg (other_ne t)]
        exact hother
      · simpa using hs.inStep
      · rw [hpresenter, presenter_setPresenter, if_pos rfl]
        trivial
      · intro hfresh _
        obtain ⟨hstale, hfresh⟩ := Bool.or_eq_false_iff.1 hfresh
        dsimp only
        rw [scanoutSeq_setPresenter, trace_setPresenter]
        cases hovertaken : p.overtaken with
        | true =>
            refine hs.settled hstale fun t' => ?_
            rcases eq_or_other t t' with rfl | rfl
            · rw [hp]
              exact hovertaken
            · rw [hother]
              trivial
        | false =>
            obtain ⟨-, hexpected, hseq, hle⟩ := hagrees hovertaken
            rw [hovertaken] at hfresh
            have hall : p.published = p.named := by
              simp at hfresh
              omega
            rw [hseq, hexpected, Presentation.seq, hall]
  case h_2 hnot =>
    have hpassive : Passive (s.presenter t) := by
      cases hq : s.presenter t with
      | presenting p => exact absurd hq (hnot p)
      | idle => trivial
      | opening => trivial
    refine ⟨by simpa using hs.inStep, fun t' hbusy => ?_, fun t' => ?_, fun hstale hall => ?_⟩
    · rw [presenter_setPresenter] at hbusy ⊢
      split_ifs with hsame
      · rfl
      · refine hs.alone t' fun hidle => hbusy ?_
        split_ifs
        · rfl
        · exact hidle
    · rw [presenter_setPresenter]
      split_ifs
      · trivial
      · have h := hs.agrees t'
        cases hq : s.presenter t' with
        | presenting p =>
            rw [hq] at h
            intro hfollows
            simpa using h hfollows
        | idle => trivial
        | opening => trivial
    · rw [scanoutSeq_setPresenter, trace_setPresenter]
      refine hs.settled (by simpa using hstale) fun t' => ?_
      rcases eq_or_other t t' with rfl | rfl
      · exact hpassive
      · have h := hall t.other
        rwa [presenter_setPresenter, if_neg (other_ne t)] at h

/-- **One step keeps the count.** -/
theorem inv_step (shared : Bool) (s : State) (e : Event) (hs : Inv s) (hc : Undisturbed s e) :
    Inv (step shared s e) := by
  cases e with
  | armStreamPrologue =>
      simp only [step]
      split_ifs
      · exact inv_restart hs true
      · exact ⟨hs.inStep, hs.alone, hs.agrees, hs.settled⟩
  | frame t presentations =>
      simp only [step]
      split
      case h_2 => exact hs
      case h_1 hidle => exact inv_begin hs hc.1 (by rw [hidle]; trivial) hc.2 _ _ _
  | openStream t =>
      simp only [step]
      split
      case h_2 => exact hs
      case h_1 hidle =>
        split_ifs
        · have hrestart := inv_restart hs s.armPrefixPending
          have hother : (s.restart).presenter t.other = .idle := by
            have h : (s.restart).presenter t.other = (s.presenter t.other).overtake := by
              cases t <;> rfl
            rw [h, hc]
            rfl
          refine Inv.of (t := t) ?_ ?_ ?_ ?_
          · simp [other_ne, hother]
          · simpa using hrestart.inStep
          · simp [Agrees]
          · intro _ _
            simp [State.restart, expected_append, expected]
        · exact hs
  | train t presentations =>
      simp only [step]
      split
      case h_1 hidle => exact inv_begin hs hc.1 (by rw [hidle]; trivial) hc.2 _ _ _
      case h_2 hopening => exact inv_begin hs hc.1 (by rw [hopening]; trivial) hc.2 _ _ _
      case h_3 => exact hs
  | present t submitted => exact inv_present hs hc
  | publish t => exact inv_publish hs
  | leave t => exact inv_leave hs

/-! ### Runs -/

theorem inv_initial : Inv State.initial :=
  ⟨trivial, fun t h => absurd (by cases t <;> rfl) h, fun t => by cases t <;> trivial,
    fun _ _ => rfl⟩

/-- **The frame numbers stay in step with the dock** in every run in which no frame is begun beside
another one or while the published count is stale, and none is continued over a restart. -/
theorem numbers_in_step (shared : Bool) (es : List Event)
    (hrun : Along Undisturbed (step shared) State.initial es) :
    InStep 0 (run (step shared) State.initial es).trace :=
  (run_invariant (P := Inv) (inv_step shared) es State.initial inv_initial hrun).inStep

instance decidableUndisturbed (s : State) : (e : Event) → Decidable (Undisturbed s e)
  | .frame t _ => inferInstanceAs (Decidable (s.presenter t.other = .idle ∧ s.stale = false))
  | .train t _ => inferInstanceAs (Decidable (s.presenter t.other = .idle ∧ s.stale = false))
  | .openStream t => inferInstanceAs (Decidable (s.presenter t.other = .idle))
  | .present t _ =>
      match h : s.presenter t with
      | .presenting p => decidable_of_iff (p.overtaken = false)
          ⟨fun hp q hq => by rw [h] at hq; cases hq; exact hp, fun hp => hp p h⟩
      | .idle => .isTrue fun q hq => by rw [h] at hq; cases hq
      | .opening => .isTrue fun q hq => by rw [h] at hq; cases hq
  | .armStreamPrologue => .isTrue trivial
  | .publish _ => .isTrue trivial
  | .leave _ => .isTrue trivial

/-- A stream is opened by a carrier of two presentations; a keyframe follows that is stopped behind
its first presentation, and the stream is opened again. -/
def reopened : List Event :=
  [.armStreamPrologue, .openStream .command, .train .command 2, .present .command true,
    .publish .command, .present .command true, .publish .command, .leave .command,
    .frame .scanout 3, .present .scanout true, .leave .scanout, .armStreamPrologue,
    .openStream .command, .train .command 1, .present .command true, .publish .command,
    .leave .command, .frame .scanout 1, .present .scanout true, .publish .scanout]

theorem numbers_in_step_reopened : Along Undisturbed (step false) State.initial reopened ∧
    (run (step false) State.initial reopened).trace =
      [.restart, .named 0 true, .named 1 true, .named 2 true, .restart, .named 0 true,
        .named 1 true] ∧
    InStep 0 (run (step false) State.initial reopened).trace := by
  have hrun : Along Undisturbed (step false) State.initial reopened := by decide
  exact ⟨hrun, by decide, numbers_in_step false reopened hrun⟩

/-- **A keyframe that fails at its second presentation** leaves the count where it was, and the next
frame names the slot of the first presentation again. -/
theorem stopped_keyframe_repeats : ¬ InStep 0 (run (step false) State.initial
    [.frame .scanout 2, .present .scanout true, .present .scanout false, .frame .scanout 1,
      .present .scanout true, .publish .scanout]).trace := by
  have htrace : (run (step false) State.initial
      [.frame .scanout 2, .present .scanout true, .present .scanout false, .frame .scanout 1,
        .present .scanout true, .publish .scanout]).trace =
          [.named 0 true, .named 1 false, .named 0 true] := by decide
  rw [htrace]
  rintro ⟨-, -, hrepeat, -⟩
  exact absurd hrepeat (by decide)

end Vino.Kms.RingCounter
