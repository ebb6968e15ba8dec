import Vino.Session.Presented

/-!
# Power

A compositor switches an output on by giving it a mode or waking it, and off by putting it to
sleep.  The service follows it as long as three things do not happen: a mode that is recorded
already is given again to an output that sleeps, a connector is woken that the dock declines beside
a lit one, or the whole dock is programmed while an output with a mode sleeps.

* `Followed`: every output that is owed nothing is active exactly if it was last switched on,
* `Heeds`: the step is none of the three,
* `power_exact`: an output is followed at every point of a session exactly if every step heeds.
-/

namespace Vino.Session.Daemon

open Vino.Cp.Seal Vino.Lib.Run Vino.Profile

/-- An output was told a mode exactly if it has one or is owed one. -/
def Told (s : State) : Prop := ∀ i, ∀ o ∈ s.outputs i, (s.heard i).mode = o.wants.isSome

/-- **Power follows the compositor**, for the outputs that are owed no mode. -/
def Followed (s : State) : Prop :=
  ∀ i, ∀ o ∈ s.outputs i, o.deferredMode = none →
    o.active = ((s.heard i).mode && (s.heard i).on)

/-- An event leaves its output as its sender wants it. -/
def Output.Heeds (o : Output) (w : World) (i : Connector) : DeviceEvent → Prop
  | .mode m => o.mode = some m → o.active = true
  | .dpms state => state = 0 → o.active = false → o.mode.isSome = true →
      declined w (headOf i) = false
  | _ => True

/-- **The condition**: none of the three. -/
def Heeds (s : State) : Step → Prop
  | .event i event => ∀ o ∈ s.outputs i, o.deferredMode = none → o.Heeds s.world i event
  | .reconfigure => Owed s.outputs →
      ∀ i, ∀ o ∈ s.outputs i, o.wants.isSome = true → (s.heard i).on = true
  | _ => True

section Steps

variable {s₀ s s₁ : State} {i : Connector} {o o' : Output} {w₀ w : World} {event : DeviceEvent}
  {step : Step} {grab : Option Grab} {surface : Surface}

theorem wants_of_deferred_none (h : o.deferredMode = none) : o.wants = o.mode := by
  unfold Output.wants
  rw [h]
  rfl

theorem wants_isSome : o.wants.isSome = (o.deferredMode.isSome || o.mode.isSome) := by
  unfold Output.wants
  cases o.deferredMode with
  | none => rfl
  | some m => rfl

/-- A property of each output and what it was told, where one output changes. -/
theorem forall_update {P : Output → Heard → Prop} {o : Option Output} {heard : Heard}
    (h : ∀ j, ∀ o' ∈ s₀.outputs j, P o' (s₀.heard j)) (ho : ∀ o' ∈ o, P o' heard) :
    ∀ j, ∀ o' ∈ Function.update s₀.outputs i o j, P o' (Function.update s₀.heard i heard j) := by
  intro j o' ho'
  rcases eq_or_ne j i with rfl | hji
  · rw [Function.update_self] at ho'
    rw [Function.update_self]
    exact ho o' ho'
  · rw [Function.update_of_ne hji] at ho'
    rw [Function.update_of_ne hji]
    exact h j o' ho'

/-- The same, where the output was told nothing new. -/
theorem forall_update_output {P : Output → Heard → Prop} {o : Option Output}
    (h : ∀ j, ∀ o' ∈ s₀.outputs j, P o' (s₀.heard j)) (ho : ∀ o' ∈ o, P o' (s₀.heard i)) :
    ∀ j, ∀ o' ∈ Function.update s₀.outputs i o j, P o' (s₀.heard j) := by
  have hall := forall_update (i := i) h ho
  rwa [Function.update_eq_self] at hall

/-! ### What was told -/

theorem Handled.told (h : Handled w₀ i o event o' w) {heard : Heard}
    (ho : heard.mode = o.wants.isSome) : (heard.hear event).mode = o'.wants.isSome := by
  cases h with
  | kept hidles hpower howed _ =>
    rw [wants_isSome, hpower.mode, howed, ← wants_isSome]
    cases event with
    | mode m =>
      rw [wants_isSome, show o.mode = some m from hidles]
      simp [Heard.hear]
    | _ => exact ho
  | lit => simp [Heard.hear, wants_isSome]
  | deferred => simp [Heard.hear, wants_isSome]
  | woken => exact ho
  | asleep => exact ho
  | darkened => exact ho

theorem Sends.told (h : Sends s₀ i grab s₁ o surface) (hdriven : Driven s₀) (htold : Told s₀) :
    (s₀.heard i).mode = o.wants.isSome := by
  cases h with
  | repeated ho _ _ _ => exact htold i _ ho
  | @framed o₁ o₂ _ _ _ ho hactive hadopted _ =>
    obtain ⟨m, hm, -⟩ := (hdriven i o₁ ho).active hactive
    have hmode : (s₀.heard i).mode = true := by
      rw [htold i o₁ ho, wants_isSome, hm]
      simp
    rw [hmode, wants_isSome]
    cases hadopted with
    | recorded hrecorded => simp [hrecorded]
    | programmed => simp
    | owed => simp

theorem Noticed.told (h : Noticed s₀ s) (htold : Told s₀) : Told s := by
  cases h with
  | world => exact htold
  | @counted i o o' ho hpower howed =>
    refine forall_update_output (P := fun o heard => heard.mode = o.wants.isSome) htold
      fun o'' ho'' => ?_
    obtain rfl := Option.some.inj ho''
    rw [wants_isSome, hpower.mode, howed, ← wants_isSome]
    exact htold i o ho
  | gone i =>
    exact forall_update_output (P := fun o heard => heard.mode = o.wants.isSome) htold (by simp)
  | connected i =>
    refine forall_update (P := fun o heard => heard.mode = o.wants.isSome) htold fun o ho => ?_
    obtain rfl := Option.some.inj ho
    rfl

theorem wants_reconfigured (o : Output) : o.reconfigured.wants = o.wants := by
  unfold Output.reconfigured
  cases hwants : o.wants with
  | none => exact hwants
  | some m => rfl

theorem Moved.told (h : Moved s₀ step s) (hdriven : Driven s₀) (htold : Told s₀) : Told s := by
  cases h with
  | looked _ hlooked => exact hlooked.keeps (fun _ _ hs hone => hone.told hs) htold
  | absent => exact htold
  | @delivered i event o o' w ho hhandled =>
    refine forall_update (P := fun o heard => heard.mode = o.wants.isSome) htold fun o'' ho'' => ?_
    obtain rfl := Option.some.inj ho''
    exact hhandled.told (htold i o ho)
  | idle => exact htold
  | @sent i grab s₁ o surface w hsends hsame =>
    refine forall_update_output (P := fun o heard => heard.mode = o.wants.isSome) htold
      fun o' ho' => ?_
    obtain rfl := Option.some.inj ho'
    exact hsends.told hdriven htold
  | unowed => exact htold
  | batched =>
    intro i o' ho'
    obtain ⟨o, ho, rfl⟩ := Option.mem_map.1 ho'
    rw [wants_reconfigured]
    exact htold i o ho

/-! ### Following -/

/-- What `Followed` says of one output. -/
def Output.Follows (o : Output) (heard : Heard) : Prop :=
  o.deferredMode = none → o.active = (heard.mode && heard.on)

/-- **An event is followed** exactly if it is heeded. -/
theorem Handled.follows_iff (h : Handled w₀ i o event o' w) {heard : Heard}
    (hdriven : o.DrivenBy i w₀) (htold : heard.mode = o.wants.isSome) (hfollows : o.Follows heard) :
    o'.Follows (heard.hear event) ↔ (o.deferredMode = none → o.Heeds w₀ i event) := by
  unfold Output.Follows at hfollows ⊢
  cases h with
  | kept hidles hpower howed _ =>
    rw [howed, hpower.active]
    refine forall_congr' fun hnone => ?_
    rw [wants_of_deferred_none hnone] at htold
    have hactive := hfollows hnone
    cases event with
    | mode m =>
      have hmode : o.mode = some m := hidles
      simp [Heard.hear, Output.Heeds, hmode]
    | dpms state =>
      rcases hidles with ⟨rfl, hon | hmode⟩ | ⟨hstate, hoff⟩
      · rw [hon] at hactive
        have htrue : heard.mode = true := by
          cases hm : heard.mode with
          | true => rfl
          | false => simp [hm] at hactive
        simp [Heard.hear, Output.Heeds, hon, htrue]
      · unfold Output.DrivenBy at hdriven
        rw [hmode] at hdriven htold
        simp [Heard.hear, Output.Heeds, hmode, htold, show o.active = false from hdriven]
      · simp [Heard.hear, Output.Heeds, hstate, hoff]
    | crtcState _ => exact iff_of_true hactive trivial
    | cursorSet _ => exact iff_of_true hactive trivial
    | cursorMove _ _ => exact iff_of_true hactive trivial
    | ddcci _ _ _ => exact iff_of_true hactive trivial
  | lit hnew _ _ => exact iff_of_true (fun _ => rfl) fun _ hmode => absurd hmode hnew
  | deferred hnew _ _ =>
    exact iff_of_true (fun hnone => absurd hnone (by simp)) fun _ hmode => absurd hmode hnew
  | woken hdark hmode hfree _ =>
    refine iff_of_true (fun _ => ?_) fun _ _ _ _ => hfree
    rw [wants_isSome, hmode] at htold
    simp [Heard.hear, htold]
  | asleep hdark hmode hdeclined _ =>
    refine forall_congr' fun hnone => ?_
    have hwants : o.wants = o.mode := wants_of_deferred_none hnone
    rw [hwants, hmode] at htold
    simp [Heard.hear, Output.Heeds, htold, hdark, hmode, hdeclined]
  | darkened hstate _ _ _ =>
    refine iff_of_true (fun _ => ?_) fun _ hzero => absurd hzero hstate
    simp [Heard.hear, hstate]

theorem Sends.follows (h : Sends s₀ i grab s₁ o surface) (hfollowed : Followed s₀) :
    o.Follows (s₀.heard i) := by
  cases h with
  | repeated ho _ _ _ => exact hfollowed i _ ho
  | @framed o₁ _ _ _ _ ho _ hadopted _ =>
    cases hadopted with
    | recorded => exact hfollowed i o₁ ho
    | programmed => exact hfollowed i o₁ ho
    | owed => exact fun hnone => absurd hnone (by simp)

theorem Noticed.followed (h : Noticed s₀ s) (hfollowed : Followed s₀) : Followed s := by
  cases h with
  | world => exact hfollowed
  | @counted i o o' ho hpower howed =>
    refine forall_update_output (P := Output.Follows) hfollowed fun o'' ho'' => ?_
    obtain rfl := Option.some.inj ho''
    unfold Output.Follows
    rw [howed, hpower.active]
    exact hfollowed i o ho
  | gone i => exact forall_update_output (P := Output.Follows) hfollowed (by simp)
  | connected i =>
    refine forall_update (P := Output.Follows) hfollowed fun o ho => ?_
    obtain rfl := Option.some.inj ho
    exact fun _ => rfl

/-- A batch leaves an output as it was told, or on. -/
theorem follows_reconfigured (hdriven : o.DrivenBy i w₀) {heard : Heard}
    (htold : heard.mode = o.wants.isSome) :
    o.reconfigured.Follows heard ↔ (o.wants.isSome = true → heard.on = true) := by
  unfold Output.reconfigured Output.Follows
  cases hwants : o.wants with
  | none =>
    refine iff_of_true (fun hnone => ?_) (by simp)
    have hmode : o.mode = none := by rwa [wants_of_deferred_none hnone] at hwants
    unfold Output.DrivenBy at hdriven
    rw [hmode] at hdriven
    rw [hwants] at htold
    rw [show o.active = false from hdriven, htold]
    rfl
  | some m =>
    have hmode : heard.mode = true := by rw [htold, hwants, Option.isSome_some]
    rw [hmode, Bool.true_and]
    exact ⟨fun h _ => (h rfl).symm, fun h _ => (h rfl).symm⟩

/-- **A step follows the compositor** exactly if it heeds. -/
theorem Moved.followed_iff (h : Moved s₀ step s) (hdriven : Driven s₀) (htold : Told s₀)
    (hfollowed : Followed s₀) : Followed s ↔ Heeds s₀ step := by
  cases h with
  | looked hstep hlooked =>
    refine iff_of_true (hlooked.keeps (fun _ _ hs hone => hone.followed hs) hfollowed) ?_
    cases step with
    | event => exact absurd hstep not_false
    | reconfigure => exact absurd hstep not_false
    | _ => trivial
  | absent hout =>
    exact iff_of_true hfollowed fun o ho => absurd ho (by simp [hout])
  | @delivered i event o o' w ho hhandled =>
    have hown := hhandled.follows_iff (hdriven i o ho) (htold i o ho) (hfollowed i o ho)
    have hheeds : Heeds s₀ (.event i event) ↔
        (o.deferredMode = none → o.Heeds s₀.world i event) := by
      simp [Heeds, ho]
    rw [hheeds, ← hown]
    constructor
    · intro hall
      have hi := hall i o' (by simp)
      dsimp only at hi
      rw [Function.update_self] at hi
      exact hi
    · intro hone
      refine forall_update (P := Output.Follows) hfollowed fun o'' ho'' => ?_
      obtain rfl := Option.some.inj ho''
      exact hone
  | idle => exact iff_of_true hfollowed trivial
  | @sent i grab s₁ o surface w hsends hsame =>
    refine iff_of_true ?_ trivial
    refine forall_update_output (P := Output.Follows) hfollowed fun o' ho' => ?_
    obtain rfl := Option.some.inj ho'
    exact hsends.follows hfollowed
  | unowed howed => exact iff_of_true hfollowed fun h => absurd h howed
  | batched howed hlights =>
    have hown (i : Connector) (o : Output) (ho : o ∈ s₀.outputs i) :=
      follows_reconfigured (hdriven i o ho) (htold i o ho)
    constructor
    · intro hall _ i o ho
      exact (hown i o ho).1 (hall i o.reconfigured (Option.mem_map_of_mem _ ho))
    · intro hheeds i o' ho'
      obtain ⟨o, ho, rfl⟩ := Option.mem_map.1 ho'
      exact (hown i o ho).2 (hheeds howed i o ho)

end Steps

/-! ### Runs -/

/-- The condition on a step that the session survives. -/
def Attentive (c : Crypto) (t : Service) (step : Step) : Prop :=
  (advance c t step).running = true → Heeds t.state step

/-- **Power follows the compositor** at every point of a session, for every output that is owed no
mode, exactly if no step of the session is one of the three. -/
theorem power_exact (c : Crypto) (w : World) (looks : Connector → Look) (ticks : List Tick) :
    (∀ k, (serviceRun c w ((sessionSteps looks ticks).take k)).running = true →
        Followed (serviceRun c w ((sessionSteps looks ticks).take k)).state) ↔
      Along (Attentive c) (advance c) (idle w) (sessionSteps looks ticks) := by
  refine forall_take_iff_along
    (P := fun t : Service => t.running = true → Driven t.state ∧ Told t.state)
    (F := fun t : Service => t.running = true → Followed t.state) (fun t step h => ?_)
    (fun t step h hfollowed => ?_) _ _ (fun _ => ⟨?_, ?_⟩) fun _ => ?_
  · intro hrunning'
    cases hrunning : t.running with
    | false =>
      rw [advance_stopped hrunning] at hrunning'
      exact absurd (hrunning.symm.trans hrunning') (by simp)
    | true =>
      obtain ⟨hdriven, htold⟩ := h hrunning
      rcases advance_running c step hrunning with ⟨s, hs, hmoved⟩ | ⟨s, hs, -⟩
      · rw [hs]
        exact ⟨hmoved.driven hdriven, hmoved.told hdriven htold⟩
      · rw [hs] at hrunning'
        exact absurd hrunning' (by simp)
  · unfold Attentive
    refine forall_congr' fun hrunning' => ?_
    cases hrunning : t.running with
    | false =>
      rw [advance_stopped hrunning] at hrunning'
      exact absurd (hrunning.symm.trans hrunning') (by simp)
    | true =>
      obtain ⟨hdriven, htold⟩ := h hrunning
      rcases advance_running c step hrunning with ⟨s, hs, hmoved⟩ | ⟨s, hs, -⟩
      · rw [hs]
        exact hmoved.followed_iff hdriven htold (hfollowed hrunning)
      · rw [hs] at hrunning'
        exact absurd hrunning' (by simp)
  · exact fun i o ho => absurd ho (by simp [idle])
  · exact fun i o ho => absurd ho (by simp [idle])
  · exact fun i o ho => absurd ho (by simp [idle])

end Vino.Session.Daemon
