import Vino.Session.Outputs
import Vino.Session.Readiness

/-!
# What the Service Drives and Presents

The service decides by its own record of an output what to present on its connector.  The record
agrees with the connector over a whole session: an active output is lit at its recorded mode, and
an inactive one with a mode is dark.  So every surface is presented on a lit connector; its size is
that of the programmed mode exactly if the frame came in time for it.

* `Driven`: the outputs agree with the connectors; `Moved.driven`: every step keeps this,
* `Timely`: the frame of a step is of the mode that is or can be programmed,
* `outputs_driven`, `presented_exact`: what holds at every point of every session.
-/

namespace Vino.Session.Daemon

open Vino.Cp.EdidBlocks Vino.Cp.Messages Vino.Cp.Replies Vino.Cp.Seal Vino.Lib.Effect
open Vino.Lib.Run Vino.Profile Vino.Scanout
open Vino.Session.Readiness

/-! ### The invariant -/

/-- The connector is dark unless the output is active, and then at the recorded mode. -/
def Output.DrivenBy (o : Output) (i : Connector) (w : World) : Prop :=
  match o.mode with
  | none => o.active = false
  | some m => w.modeActive i = o.active ∧ (o.active = true → m.Programmed (w.programmedMode i))

/-- **The outputs agree with the connectors.** -/
def Driven (s : State) : Prop := ∀ i, ∀ o ∈ s.outputs i, o.DrivenBy i s.world

/-- Only one connector is touched. -/
structure Touches (w₀ : World) (i : Connector) (w : World) : Prop where
  modeActive : ∀ j, j ≠ i → w.modeActive j = w₀.modeActive j
  programmedMode : ∀ j, j ≠ i → w.programmedMode j = w₀.programmedMode j

section Invariant

variable {w₀ w : World} {i : Connector} {m : Mode} {o o' : Output} {s₀ s : State}

theorem SameMarks.touches (h : SameMarks w₀ w) : Touches w₀ i w where
  modeActive _ _ := by rw [h.modeActive]
  programmedMode _ _ := by rw [h.programmedMode]

theorem LitBy.touches (h : LitBy w₀ i m w) : Touches w₀ i w := by
  obtain ⟨size, -, hmode⟩ := h.programmedMode
  constructor
  · intro j hj
    rw [h.modeActive, Function.update_of_ne hj]
  · intro j hj
    rw [hmode, Function.update_of_ne hj]

theorem DarkBy.touches (h : DarkBy w₀ i w) : Touches w₀ i w := by
  constructor
  · intro j hj
    rw [h.modeActive, Function.update_of_ne hj]
  · intro j _
    rw [h.programmedMode]

theorem Touches.trans {w' : World} (h : Touches w₀ i w) (h' : Touches w i w') :
    Touches w₀ i w' where
  modeActive j hj := (h'.modeActive j hj).trans (h.modeActive j hj)
  programmedMode j hj := (h'.programmedMode j hj).trans (h.programmedMode j hj)

theorem LitBy.programmed (h : LitBy w₀ i m w) :
    w.modeActive i = true ∧ m.Programmed (w.programmedMode i) := by
  obtain ⟨size, hsize, hmode⟩ := h.programmedMode
  constructor
  · rw [h.modeActive, Function.update_self]
  · rwa [hmode, Function.update_self]

theorem Output.DrivenBy.congr (h : o.DrivenBy i w₀) (hpower : SamePower o o')
    (hactive : w.modeActive i = w₀.modeActive i)
    (hmode : w.programmedMode i = w₀.programmedMode i) : o'.DrivenBy i w := by
  unfold Output.DrivenBy at h ⊢
  rw [hpower.mode, hpower.active, hactive, hmode]
  exact h

theorem Output.DrivenBy.same (h : o.DrivenBy i w₀) (hpower : SamePower o o')
    (hsame : SameMarks w₀ w) : o'.DrivenBy i w :=
  h.congr hpower (congrFun hsame.modeActive i) (congrFun hsame.programmedMode i)

theorem Output.DrivenBy.of_lit (h : LitBy w₀ i m w) (hmode : o.mode = some m)
    (hactive : o.active = true) : o.DrivenBy i w := by
  unfold Output.DrivenBy
  rw [hmode, hactive]
  exact ⟨h.programmed.1, fun _ => h.programmed.2⟩

/-- An active output has a recorded mode, at which its connector is lit. -/
theorem Output.DrivenBy.active (h : o.DrivenBy i w) (hactive : o.active = true) :
    ∃ m, o.mode = some m ∧ w.modeActive i = true ∧ m.Programmed (w.programmedMode i) := by
  unfold Output.DrivenBy at h
  cases hmode : o.mode with
  | none =>
    rw [hmode] at h
    exact absurd (hactive.symm.trans h) (by simp)
  | some m =>
    rw [hmode] at h
    exact ⟨m, rfl, h.1.trans hactive, h.2 hactive⟩

/-- The other outputs, when one connector is touched. -/
theorem Driven.elsewhere (h : Driven s₀) (ht : Touches s₀.world i w) :
    ∀ j, j ≠ i → ∀ o ∈ s₀.outputs j, o.DrivenBy j w := fun j hj o ho =>
  (h j o ho).congr ⟨rfl, rfl⟩ (ht.modeActive j hj) (ht.programmedMode j hj)

/-- An output that changes with its own connector. -/
theorem driven_update (h : ∀ j, j ≠ i → ∀ o ∈ s₀.outputs j, o.DrivenBy j w) {o : Option Output}
    {presented : List Presented} {heard : Connector → Heard} (ho : ∀ o' ∈ o, o'.DrivenBy i w) :
    Driven ⟨w, Function.update s₀.outputs i o, presented, heard⟩ := by
  intro j o' ho'
  change o' ∈ Function.update s₀.outputs i o j at ho'
  rcases eq_or_ne j i with rfl | hji
  · rw [Function.update_self] at ho'
    exact ho o' ho'
  · rw [Function.update_of_ne hji] at ho'
    exact h j hji o' ho'

theorem Handled.touches {event : DeviceEvent} (h : Handled w₀ i o event o' w) :
    Touches w₀ i w := by
  cases h with
  | kept _ _ _ hsame => exact hsame.touches
  | lit _ _ hlit => exact hlit.touches
  | deferred _ _ hsame => exact hsame.touches
  | woken _ _ _ hlit => exact hlit.touches
  | asleep _ _ _ hsame => exact hsame.touches
  | darkened _ _ _ hdark => exact hdark.touches

/-- **An event** keeps its output driven. -/
theorem Handled.drivenBy {event : DeviceEvent} (h : Handled w₀ i o event o' w)
    (ho : o.DrivenBy i w₀) : o'.DrivenBy i w := by
  cases h with
  | kept _ hpower _ hsame => exact ho.same hpower hsame
  | lit _ _ hlit => exact .of_lit hlit rfl rfl
  | deferred _ _ hsame => exact ho.same ⟨rfl, rfl⟩ hsame
  | woken _ hmode _ hlit => exact .of_lit hlit hmode rfl
  | asleep hdark hmode _ hsame => exact ho.same ⟨rfl, hdark.symm⟩ hsame
  | darkened _ _ hmode hdark =>
    unfold Output.DrivenBy
    rw [hmode]
    refine ⟨?_, fun h => absurd h (by simp)⟩
    rw [hdark.modeActive, Function.update_self]

/-- **The mode of a frame** keeps its output driven. -/
theorem Adopted.drivenBy (h : Adopted w₀ i o m o' w) (hactive : o.active = true)
    (ho : o.DrivenBy i w₀) :
    Touches w₀ i w ∧ w.dock = w₀.dock ∧ o'.DrivenBy i w ∧ o'.active = true := by
  cases h with
  | recorded _ => exact ⟨(SameMarks.refl _).touches, rfl, ho, hactive⟩
  | programmed _ hlit => exact ⟨hlit.touches, hlit.dock, .of_lit hlit rfl hactive, hactive⟩
  | owed _ hsame => exact ⟨hsame.touches, hsame.dock, ho.same ⟨rfl, rfl⟩ hsame, hactive⟩

/-- What is presented belongs to an active output, driven in the state it is presented in. -/
theorem Sends.drivenBy {grab : Option Grab} {s₁ : State} {surface : Surface}
    (h : Sends s₀ i grab s₁ o surface) (hdriven : Driven s₀) :
    Touches s₀.world i s₁.world ∧ s₁.world.dock = s₀.world.dock ∧ o.DrivenBy i s₁.world ∧
      o.active = true := by
  cases h with
  | repeated ho hactive _ _ => exact ⟨(SameMarks.refl _).touches, rfl, hdriven i _ ho, hactive⟩
  | framed ho hactive hadopted _ =>
    obtain ⟨htouches, hdock, hown, hactive'⟩ := hadopted.drivenBy hactive (hdriven i _ ho)
    exact ⟨htouches, hdock, hown.same ⟨rfl, rfl⟩ (SameMarks.refl _), hactive'⟩

theorem Noticed.driven (h : Noticed s₀ s) (hdriven : Driven s₀) : Driven s := by
  have hothers (i : Connector) := hdriven.elsewhere (SameMarks.refl s₀.world).touches (i := i)
  cases h with
  | world hsame => exact fun i o ho => (hdriven i o ho).same ⟨rfl, rfl⟩ hsame
  | @counted i o o' ho hpower _ =>
    refine driven_update (hothers i) fun o'' ho'' => ?_
    obtain rfl := Option.some.inj ho''
    exact (hdriven i o ho).same hpower (SameMarks.refl _)
  | gone i => exact driven_update (hothers i) (by simp)
  | connected i =>
    refine driven_update (hothers i) fun o ho => ?_
    obtain rfl := Option.some.inj ho
    rfl

/-- A batch drives every output that has a mode, at that mode. -/
theorem drivenBy_reconfigured (ho : s₀.outputs i = some o) (hown : o.DrivenBy i s₀.world)
    (hlights : Lights s₀.outputs w i) : o.reconfigured.DrivenBy i w := by
  unfold Lights at hlights
  rw [ho, Option.bind_some] at hlights
  unfold Output.reconfigured
  cases hwants : o.wants with
  | none =>
    have hmode : o.mode = none := by
      unfold Output.wants at hwants
      cases hdeferred : o.deferredMode with
      | none => rwa [hdeferred] at hwants
      | some m => simp [hdeferred] at hwants
    unfold Output.DrivenBy at hown ⊢
    rw [hmode] at hown ⊢
    exact hown
  | some m =>
    rw [hwants] at hlights
    exact ⟨hlights.1, fun _ => hlights.2⟩

/-- **Every step** keeps the outputs driven. -/
theorem Moved.driven {step : Step} (h : Moved s₀ step s) (hdriven : Driven s₀) : Driven s := by
  cases h with
  | looked _ hlooked => exact hlooked.keeps (fun _ _ hs hone => hone.driven hs) hdriven
  | @delivered i event o o' w ho hhandled =>
    refine driven_update (hdriven.elsewhere hhandled.touches) fun o'' ho'' => ?_
    obtain rfl := Option.some.inj ho''
    exact hhandled.drivenBy (hdriven i o ho)
  | absent => exact hdriven
  | idle => exact hdriven
  | unowed => exact hdriven
  | sent hsends hsame =>
    obtain ⟨htouches, -, hown, -⟩ := hsends.drivenBy hdriven
    refine driven_update (hdriven.elsewhere (htouches.trans hsame.touches)) fun o' ho' => ?_
    obtain rfl := Option.some.inj ho'
    exact hown.same ⟨rfl, rfl⟩ hsame
  | batched _ hlights =>
    intro i o' ho'
    obtain ⟨o, ho, rfl⟩ := Option.mem_map.1 ho'
    exact drivenBy_reconfigured ho (hdriven i o ho) (hlights i)

end Invariant

/-! ### Frames in time -/

/-- The padded size of a mode. -/
def Mode.padded (m : Mode) (d : Dock) : ℕ × ℕ := Session.padded d m.width m.height

/-- **The frame of a step comes in time.**  A frame in another mode than the recorded one has to be
programmed first, unless both pad to one size; a last surface has to be of the recorded mode. -/
def Timely (s : State) : Step → Prop
  | .serve i grab => ∀ o ∈ s.outputs i, o.active = true →
      match grab with
      | none => ∀ surface ∈ o.lastSurface, owesRepaint s.world (headOf i) = true →
          ∃ m ∈ o.mode, m.padded s.world.dock = (surface.width, surface.height)
      | some grab => declined s.world (headOf i) = false ∨
          ∃ m ∈ o.mode, m.padded s.world.dock = grab.mode.padded s.world.dock
  | _ => True

/-- The size of a presented surface is that of the mode that is programmed. -/
def Presented.Fits (p : Presented) : Prop := p.size = p.programmed

/-- What a step presents: one surface at most, on a lit connector. -/
inductive Shown (s₀ : State) (timely : Prop) (s : State) : Prop
  | nothing (hsame : s.presented = s₀.presented) (htimely : timely)
  | surface (p : Presented) (hone : s.presented = s₀.presented ++ [p]) (hlit : p.lit = true)
      (hfits : p.Fits ↔ timely)

section Frames

variable {s₀ s s₁ : State} {i : Connector} {grab : Option Grab} {o : Output} {surface : Surface}
  {step : Step}

theorem padRgb_size (d : Dock) (rgb : List UInt8) (width height : ℕ) :
    ((padRgb d rgb width height).width, (padRgb d rgb width height).height) =
      padded d width height := by
  unfold padRgb
  dsimp only
  split_ifs with h
  · exact h.symm
  · rfl

/-- A mode that is looked at with a frame: recorded behind it, or it was declined. -/
theorem Adopted.mode {w₀ w : World} {o o' : Output} {mode m : Mode} (d : Dock)
    (h : Adopted w₀ i o mode o' w) (hmode : o.mode = some m) :
    ∃ m', o'.mode = some m' ∧ (mode.padded d = m'.padded d ↔
      declined w₀ (headOf i) = false ∨ m.padded d = mode.padded d) := by
  cases h with
  | recorded hrecorded =>
    obtain rfl := Option.some.inj (hmode.symm.trans hrecorded)
    exact ⟨m, hmode, fun _ => .inr rfl, fun _ => rfl⟩
  | programmed hfree _ => exact ⟨mode, rfl, fun _ => .inl hfree, fun _ => rfl⟩
  | owed hdeclined _ =>
    refine ⟨m, hmode, fun hsize => .inr hsize.symm, fun hsize => ?_⟩
    rcases hsize with hfree | hsize
    · exact absurd (hdeclined.symm.trans hfree) (by simp)
    · exact hsize.symm

/-- The surface fits the mode that is recorded behind it exactly if it came in time. -/
theorem Sends.fits {m : Mode} (h : Sends s₀ i grab s₁ o surface) (hdriven : Driven s₀)
    (hmode : o.mode = some m) :
    (surface.width, surface.height) = m.padded s₀.world.dock ↔ Timely s₀ (.serve i grab) := by
  cases h with
  | repeated ho hactive hlast howes =>
    unfold Timely
    simp only [ho, hmode, hlast, Option.mem_some_iff, forall_eq', hactive, howes, exists_eq_left',
      true_imp_iff]
    exact eq_comm
  | @framed o₁ _ grab _ w ho hactive hadopted hsurface =>
    obtain ⟨m₁, hm₁, -⟩ := (hdriven i o₁ ho).active hactive
    obtain ⟨m', hm', hsize⟩ := hadopted.mode s₀.world.dock hm₁
    have hdock : w.dock = s₀.world.dock := (hadopted.drivenBy hactive (hdriven i o₁ ho)).2.1
    obtain rfl : m' = m := Option.some.inj (hm'.symm.trans hmode)
    rw [hsurface, padRgb_size, hdock]
    unfold Timely
    simp only [ho, hm₁, Option.mem_some_iff, forall_eq', hactive, exists_eq_left', true_imp_iff]
    exact hsize

/-- **What is presented**, is presented on a lit connector. -/
theorem Sends.shown (h : Sends s₀ i grab s₁ o surface) (hdriven : Driven s₀)
    (hone : s.presented = s₀.presented ++ [s₁.presenting i surface]) :
    Shown s₀ (Timely s₀ (.serve i grab)) s := by
  obtain ⟨-, hdock, hown, hactive⟩ := h.drivenBy hdriven
  obtain ⟨m, hmode, hlit, hprogrammed⟩ := hown.active hactive
  refine .surface _ hone hlit ?_
  rw [← h.fits hdriven hmode]
  unfold Presented.Fits State.presenting Mode.padded
  dsimp only
  rw [hprogrammed.1, hprogrammed.2, hdock]

theorem Moved.shown (h : Moved s₀ step s) (hdriven : Driven s₀) :
    Shown s₀ (Timely s₀ step) s := by
  cases h with
  | looked hstep hlooked =>
    refine .nothing hlooked.presented ?_
    cases step with
    | serve i grab => exact absurd hstep not_false
    | _ => trivial
  | absent => exact .nothing rfl trivial
  | delivered => exact .nothing rfl trivial
  | idle hidle =>
    refine .nothing rfl fun o ho hactive => ?_
    obtain ⟨rfl, hquiet⟩ := hidle o ho hactive
    exact fun surface hsurface howes =>
      absurd ((hquiet surface hsurface).symm.trans howes) (by simp)
  | sent hsends => exact hsends.shown hdriven rfl
  | unowed => exact .nothing rfl trivial
  | batched => exact .nothing rfl trivial

theorem Stopped.shown (h : Stopped s₀ step s) (hdriven : Driven s₀) :
    Shown s₀ (Timely s₀ step) s := by
  cases h with
  | silent hsame hserve =>
    refine .nothing hsame ?_
    cases step with
    | serve i grab =>
      obtain ⟨hgrab, hfree⟩ := hserve i grab rfl
      obtain ⟨grab, rfl⟩ := Option.isSome_iff_exists.1 hgrab
      exact fun _ _ _ => .inl hfree
    | _ => trivial
  | sending hsends hone => exact hsends.shown hdriven hone

end Frames

/-! ### Runs -/

/-- The condition on a step of the service. -/
def Prompt (t : Service) (step : Step) : Prop := t.running = true → Timely t.state step

/-- The outputs are driven while the session is served, and what was presented was presented on lit
connectors. -/
structure Serves (t : Service) : Prop where
  driven : t.running = true → Driven t.state
  lit : ∀ p ∈ t.state.presented, p.lit = true

/-- **One step of the service.** -/
theorem Serves.advance {t : Service} (h : Serves t) (c : Crypto) (step : Step) :
    Serves (advance c t step) ∧
      ((∀ p ∈ (Daemon.advance c t step).state.presented, p.Fits) ↔
        (∀ p ∈ t.state.presented, p.Fits) ∧ Prompt t step) := by
  cases hrunning : t.running with
  | false =>
    rw [advance_stopped hrunning]
    refine ⟨h, fun hfits => ⟨hfits, fun hrun => ?_⟩, fun hfits => hfits.1⟩
    exact absurd (hrunning.symm.trans hrun) (by simp)
  | true =>
    have hdriven := h.driven hrunning
    have hshown (s : State) (hs : Shown t.state (Timely t.state step) s) :
        (∀ p ∈ s.presented, p.lit = true) ∧ ((∀ p ∈ s.presented, p.Fits) ↔
          (∀ p ∈ t.state.presented, p.Fits) ∧ Prompt t step) := by
      have hprompt : Prompt t step ↔ Timely t.state step := ⟨fun h => h hrunning, fun h _ => h⟩
      rw [hprompt]
      cases hs with
      | nothing hsame htimely =>
        rw [hsame]
        exact ⟨h.lit, fun hfits => ⟨hfits, htimely⟩, fun hfits => hfits.1⟩
      | surface p hone hlit hfits =>
        rw [hone, List.forall_mem_append, List.forall_mem_append, List.forall_mem_singleton,
          List.forall_mem_singleton, hfits]
        exact ⟨⟨h.lit, hlit⟩, Iff.rfl⟩
    rcases advance_running c step hrunning with ⟨s, hs, hmoved⟩ | ⟨s, hs, hstopped⟩
    · rw [hs]
      have := hshown s (hmoved.shown hdriven)
      exact ⟨⟨fun _ => hmoved.driven hdriven, this.1⟩, this.2⟩
    · rw [hs]
      have := hshown s (hstopped.shown hdriven)
      exact ⟨⟨fun h => absurd h (by simp), this.1⟩, this.2⟩

theorem Serves.run (c : Crypto) : ∀ (steps : List Step) {t : Service}, Serves t →
    Serves (run (Daemon.advance c) t steps) ∧
      ((∀ p ∈ (Lib.Run.run (Daemon.advance c) t steps).state.presented, p.Fits) ↔
        (∀ p ∈ t.state.presented, p.Fits) ∧ Along Prompt (Daemon.advance c) t steps)
  | [], _, h => ⟨h, (and_iff_left trivial).symm⟩
  | step :: steps, t, h => by
    obtain ⟨hnext, hone⟩ := h.advance c step
    obtain ⟨hrest, hall⟩ := Serves.run c steps hnext
    refine ⟨hrest, hall.trans ?_⟩
    rw [hone]
    exact and_assoc

theorem serves_idle (w : World) : Serves (idle w) where
  driven _ := fun i o ho => absurd ho (by simp [idle])
  lit := fun p hp => absurd hp (by simp [idle])

/-- **The service drives what it records.**  At every point of every session an active output is
lit at its recorded mode, and the connector of an inactive one that has a mode is dark. -/
theorem outputs_driven (c : Crypto) (w : World) (looks : Connector → Look) (ticks : List Tick)
    (k : ℕ) (hrunning : (serviceRun c w ((sessionSteps looks ticks).take k)).running = true) :
    Driven (serviceRun c w ((sessionSteps looks ticks).take k)).state :=
  ((serves_idle w).run c _).1.driven hrunning

/-- A dock with one connector, whose monitor is ready and states what it is. -/
def oneMonitor : World :=
  (start (freshSession navarro 1)).facing
    (twoReplies (replyOf readyPlaintext) (replyOf blockPlaintext))

theorem advance_ok {c : Crypto} {t : Service} {step : Step} {s : State}
    (hrunning : t.running = true) (h : act c step t.state = .ok () s) :
    advance c t step = ⟨s, true⟩ := by
  unfold advance
  rw [hrunning, if_pos rfl, h]

/-- Discovery on a dock with one connector that does not share its EDID handler. -/
theorem discover_single (c : Crypto) (looks : Connector → Look) {s : State}
    (hdock : s.world.dock.profile.quirks.sharedEdidHandler = false)
    (hone : s.world.connectors.val = 1) :
    discover c looks s =
      (connectOutput c ⟨0, by decide⟩ (looks ⟨0, by decide⟩) >>= fun _ => pure ()) s := by
  have hfilter : ((List.finRange maxConnectors).filter fun i => decide (i.val < 1)) =
      [⟨0, by decide⟩] := by decide
  have hconnector : ∀ i, discoverConnector c looks i s = connectOutput c i (looks i) s := by
    intro i
    show (if (!s.world.dock.profile.quirks.sharedEdidHandler ||
      !s.world.dock.profile.protocol.reportsPresence) = true then _ else _ : DaemonM Unit) s = _
    rw [if_pos (by rw [hdock]; rfl)]
  show ((List.finRange maxConnectors).filter fun i =>
    decide (i.val < s.world.connectors.val)).forM (discoverConnector c looks) s = _
  rw [hone, hfilter]
  show EStateM.bind (discoverConnector c looks ⟨0, by decide⟩) _ s = EStateM.bind _ _ s
  unfold EStateM.bind
  rw [hconnector]
  rfl

/-- A dark connector is lit by its first mode, in quiet surroundings. -/
theorem mode_lights (c : Crypto) {d : Dock} {n : ℕ} (hd : d.Known) {i : Connector} {m : Mode}
    (hm : (m.request i).Supported) (hi : (headOf i).toNat < n) {s : State}
    (hquiet : Quiet d n s.world) (hdark : ∀ j, s.world.modeActive j = false)
    (hout : s.outputs i = some .connected) :
    ∃ s', act c (.event i (.mode m)) s = .ok () s' ∧ ∃ o ∈ s'.outputs i, o.active = true := by
  have hprogram : ∃ w, programMode (headOf i) m.width m.height m.refreshHz.toNat s.world =
      .ok true w := by
    have htriple : Triple (Quiet d n)
        (programMode (headOf i) m.width m.height m.refreshHz.toNat) _ _ :=
      programMode_quiet hd hm hi
    have hrun := htriple s.world hquiet
    cases hprogram : programMode (headOf i) m.width m.height m.refreshHz.toNat s.world with
    | ok lit w =>
        rw [hprogram] at hrun
        exact ⟨w, by rw [hrun.1]⟩
    | error e w =>
        rw [hprogram] at hrun
        exact hrun.elim
  obtain ⟨w, hprogram⟩ := hprogram
  have hfree : declined s.world (headOf i) = false := by
    simp [declined, hdark]
  have hsame : activateMode (headOf i) m.width m.height m.refreshHz.toNat s.world = .ok true w := by
    rw [← hprogram]
    show (if declined s.world (headOf i) then _ else _ : SessionM Bool) s.world = _
    rw [hfree, if_neg (by simp)]
  have hactivate : activate i m s = .ok true { s with world := w } := by
    unfold activate call
    rw [hsame]
  have hhandle : handleEvent c i .connected (.mode m) s =
      .ok { Output.connected with mode := some m, active := true } { s with world := w } := by
    unfold handleEvent
    exact (congrFun (if_pos (show some m ≠ Output.connected.mode from nofun)) s).trans
      (bind_ok hactivate)
  have hdeliver : deliver c i (.mode m) s = (handleEvent c i .connected (.mode m) >>= fun output => do
      setOutput i (some output)
      modifyThe State fun s =>
        { s with heard := Function.update s.heard i ((s.heard i).hear (.mode m)) }) s := by
    unfold deliver
    refine (bind_ok rfl).trans ?_
    rw [hout]
  show ∃ s', deliver c i (.mode m) s = .ok () s' ∧ _
  rw [hdeliver]
  exact ⟨_, bind_ok hhandle, { Output.connected with mode := some m, active := true },
    Function.update_self .., rfl⟩

/-- The discovery connects an output and changes nothing else of the session. -/
theorem discover_oneMonitor :
    ∃ s t, act openCrypto (.discover fun _ => ⟨true, true⟩) (idle oneMonitor).state = .ok () s ∧
      s.outputs ⟨0, by decide⟩ = some .connected ∧
      Faces (freshSession navarro 1)
        (twoReplies (replyOf readyPlaintext) (replyOf blockPlaintext)) t s.world := by
  obtain ⟨hedid, hpoll, hstatus⟩ := block_read
  obtain ⟨hnone, hpoll', -⟩ := ready_read
  have hlearned := learned_fresh hnone hpoll' hedid
  have hstart : Faces (freshSession navarro 1)
      (twoReplies (replyOf readyPlaintext) (replyOf blockPlaintext)) 0 oneMonitor := ⟨rfl, rfl, rfl⟩
  have hdecoders : decoders openCrypto (freshSession navarro 1).controlKey
      (freshSession navarro 1).controlNonce = openDecoders := rfl
  obtain ⟨w', t, hrun, hfaces⟩ := fetchLogged_two openCrypto 0 hstart rfl
    (by rw [hdecoders, hlearned]; rfl) (by rw [hdecoders, hlearned])
  rw [hdecoders, hlearned] at hrun
  have hfetch : fetchEdid openCrypto (headOf ⟨0, by decide⟩) oneMonitor =
      .ok (edidMagic ++ List.replicate 118 0 ++ [0, 6]) w' := by
    rw [fetchEdid_eq]
    exact bind_ok hrun
  have hattempt : attempt (fetchEdid openCrypto (headOf ⟨0, by decide⟩)) (idle oneMonitor).state =
      .ok (some (edidMagic ++ List.replicate 118 0 ++ [0, 6]))
        { (idle oneMonitor).state with world := w' } := by
    unfold attempt
    rw [show (idle oneMonitor).state.world = oneMonitor from rfl, hfetch]
  have hdiscover : act openCrypto (.discover fun _ => ⟨true, true⟩) (idle oneMonitor).state = _ :=
    discover_single openCrypto (fun _ => ⟨true, true⟩) rfl rfl
  rw [hdiscover, connectOutput]
  refine ⟨_, t, bind_ok (bind_ok hattempt), ?_, hfaces⟩
  show Function.update (idle oneMonitor).state.outputs ⟨0, by decide⟩ (some Output.connected)
    ⟨0, by decide⟩ = _
  exact Function.update_self ..

/-- Full HD, as the compositor selects it. -/
def fullHdMode : Mode := ⟨1920, 1080, 60, 32, 0⟩

/-- One turn in which the compositor selects it for the monitor. -/
def modeTurn : Tick where
  events i := if i.val = 0 then [.mode fullHdMode] else []
  grab _ := none
  topology := none
  keepalive := false
  heartbeat := false

/-- The discovery and the event. -/
def discoverAndLight : List Step :=
  (sessionSteps (fun _ => ⟨true, true⟩) [modeTurn]).take 2

theorem discoverAndLight_eq :
    discoverAndLight =
      [.discover fun _ => ⟨true, true⟩, .event ⟨0, by decide⟩ (.mode fullHdMode)] :=
  rfl

theorem outputs_driven_lit :
    ((serviceRun openCrypto oneMonitor discoverAndLight).running = true ∧
      ∃ o ∈ (serviceRun openCrypto oneMonitor discoverAndLight).state.outputs ⟨0, by decide⟩,
        o.active = true) ∧
      Driven (serviceRun openCrypto oneMonitor discoverAndLight).state := by
  obtain ⟨s, t, hdiscover, hout, hfaces⟩ := discover_oneMonitor
  have hcalm : ∀ t, (twoReplies (replyOf readyPlaintext) (replyOf blockPlaintext) t).Calm := by
    intro t
    refine ⟨rfl, ?_, rfl⟩
    unfold twoReplies
    dsimp only
    split_ifs
    · exact .inr ⟨_, rfl⟩
    · exact .inr ⟨_, rfl⟩
    · exact .inl rfl
  have hdock := congrArg ControlSession.dock hfaces.session
  have hconnectors := congrArg (fun s : ControlSession => s.connectors.val) hfaces.session
  have hcursor := congrArg ControlSession.cursorShot hfaces.session
  have hactive := congrArg ControlSession.modeActive hfaces.session
  have hquiet : Quiet navarro 1 s.world :=
    ⟨fun t => hfaces.answers ▸ hcalm t, hdock, hconnectors, fun i => congrFun hcursor i⟩
  obtain ⟨s', hmode, hlit⟩ := mode_lights openCrypto known_navarro (m := fullHdMode)
    (i := ⟨0, by decide⟩) (by decide) (by decide) hquiet (fun j => congrFun hactive j) hout
  have hrun : serviceRun openCrypto oneMonitor discoverAndLight = ⟨s', true⟩ := by
    rw [discoverAndLight_eq, serviceRun, run, List.foldl_cons, List.foldl_cons, List.foldl_nil]
    rw [advance_ok (t := idle oneMonitor) rfl hdiscover, advance_ok (t := ⟨s, true⟩) rfl hmode]
  have hrunning : (serviceRun openCrypto oneMonitor discoverAndLight).running = true := by rw [hrun]
  refine ⟨⟨hrunning, ?_⟩, ?_⟩
  · rw [hrun]
    exact hlit
  · exact outputs_driven openCrypto oneMonitor (fun _ => ⟨true, true⟩) [modeTurn] 2 hrunning

/-- **What the service presents.**  At every point of every session, everything that was presented
was presented on a lit connector, and all of it had the size of the programmed mode exactly if
every frame came in time. -/
theorem presented_exact (c : Crypto) (w : World) (looks : Connector → Look) (ticks : List Tick)
    (k : ℕ) :
    (∀ p ∈ (serviceRun c w ((sessionSteps looks ticks).take k)).state.presented, p.lit = true) ∧
      ((∀ p ∈ (serviceRun c w ((sessionSteps looks ticks).take k)).state.presented, p.Fits) ↔
        Along Prompt (Daemon.advance c) (idle w) ((sessionSteps looks ticks).take k)) := by
  obtain ⟨hserves, hall⟩ := (serves_idle w).run c ((sessionSteps looks ticks).take k)
  refine ⟨hserves.lit, hall.trans (and_iff_right fun p hp => ?_)⟩
  exact absurd hp (by simp [idle])

end Vino.Session.Daemon
