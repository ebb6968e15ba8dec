import Vino.Session.Daemon
import Vino.Session.DockWide

/-!
# Outputs and Connectors

What the steps of the service do to its outputs, to the lit connectors and to the modes programmed
on them.

* `SameMarks`, `LitBy`, `DarkBy`: what a call of the session does to the connectors,
* `Handled`: everything an event can do; `Sends`: what is presented for an output, and how,
* `Looked`: everything that following the topology can do,
* `act_spec`: what a step does, `Moved`, and how it can fail, `Stopped`.
-/

namespace Vino.Session.Daemon

open Vino.Cp.Messages Vino.Cp.Seal Vino.Lib.Effect Vino.Lib.Run Vino.Profile Vino.Scanout
open Vino.Stream
open Vino.Haar.Records hiding fill

/-! ### Lit connectors and their modes -/

/-- A property of which connectors are lit, and of the modes programmed on them. -/
def marks (P : Dock → (Connector → Bool) → (Connector → UInt16 × UInt16) → Prop)
    (w : World) : Prop :=
  P w.dock w.modeActive w.programmedMode

/-- The mode that is programmed, as the session records it. -/
def Mode.Programmed (m : Mode) (size : UInt16 × UInt16) : Prop :=
  size.1.toNat = m.width ∧ size.2.toNat = m.height

/-- Nothing is lit or darkened, and no mode programmed. -/
structure SameMarks (w₀ w : World) : Prop where
  dock : w.dock = w₀.dock
  modeActive : w.modeActive = w₀.modeActive
  programmedMode : w.programmedMode = w₀.programmedMode

/-- A connector is lit at a mode. -/
structure LitBy (w₀ : World) (i : Connector) (m : Mode) (w : World) : Prop where
  dock : w.dock = w₀.dock
  modeActive : w.modeActive = Function.update w₀.modeActive i true
  programmedMode : ∃ size, m.Programmed size ∧
    w.programmedMode = Function.update w₀.programmedMode i size

/-- A connector is taken down. -/
structure DarkBy (w₀ : World) (i : Connector) (w : World) : Prop where
  dock : w.dock = w₀.dock
  modeActive : w.modeActive = Function.update w₀.modeActive i false
  programmedMode : w.programmedMode = w₀.programmedMode

theorem SameMarks.refl (w : World) : SameMarks w w := ⟨rfl, rfl, rfl⟩

section Marks

variable {P : Dock → (Connector → Bool) → (Connector → UInt16 × UInt16) → Prop} {w₀ : World}

theorem marks_stable {R : World → Prop} (hR : ∀ w, marks P w → R w) : Stable (marks P) R where
  tick _ hw := hw
  weaken := hR
  cursor _ _ hw := hw
  receive := keeps_receiveOptional (fun _ hw => hw) hR
  transmit _ _ _ := triple_transmit (fun _ hw _ => hw.1) fun _ _ hw _ => hR _ hw.1

theorem marks_flows (head : UInt8) (i : Connector) : Flows head i (marks P) (fun _ => True) where
  toWire := (marks_stable fun _ _ => trivial).toWire
  submit _ := keeps_submitVideo (fun _ hw => hw) (fun _ _ => trivial) fun _ _ hw => hw
  plain _ := keeps_sendPlainVideo (fun _ hw => hw) (fun _ _ => trivial) fun _ _ hw => hw
  sealed _ _ _ hw := hw
  restated _ hw := hw
  frameSeq _ _ hw := hw

/-- **Programming** lights a connector at the mode. -/
theorem marks_programMode {Q : Dock → (Connector → Bool) → (Connector → UInt16 × UInt16) → Prop}
    (i : Connector) (m : Mode)
    (hlit : ∀ d a p size, m.Programmed size → P d a p →
      Q d (Function.update a i true) (Function.update p i size)) :
    Triple (marks P) (programMode (headOf i) m.width m.height m.refreshHz.toNat)
      (fun lit w => lit = true ∧ marks Q w) (fun _ => True) := by
  refine triple_programMode (fun _ _ => trivial) fun j hj hwidth hheight _ => ?_
  obtain rfl : i = j := Option.some.inj ((connector?_headOf i).symm.trans hj)
  have hsize : m.Programmed (UInt16.ofNat m.width, UInt16.ofNat m.height) := by
    constructor
    · exact Nat.mod_eq_of_lt (by omega)
    · exact Nat.mod_eq_of_lt (by omega)
  have h : Flows (headOf i) i (marks P) (fun _ => True) := marks_flows _ i
  have h' : Flows (headOf i) i (marks fun d a p => Q d (Function.update a i true) p)
      (fun _ => True) := marks_flows _ i
  refine h.programConnector h' (fun _ _ => trivial) (fun content => ?_) (fun w hw => ?_)
    (fun w seq hw => hw) ((marks_stable fun _ _ => trivial).rearmCursor _) _
  · exact Triple.bind (triple_transmit (fun _ hw _ => hw) fun _ _ _ _ => trivial) fun _ =>
      (marks_stable fun _ _ => trivial).receive
  · exact hlit w.dock w.modeActive w.programmedMode _ hsize hw

/-- The call keeps what it does not touch. -/
theorem sameMarks_of_keeps {α : Type} {m : SessionM α}
    (h : Keeps (marks fun d a p => d = w₀.dock ∧ a = w₀.modeActive ∧ p = w₀.programmedMode)
      (fun _ => True) m) :
    Triple (fun w => w = w₀) m (fun _ w => SameMarks w₀ w) (fun _ => True) := by
  refine h.mono (fun w hw => ?_) (fun _ w hw => ⟨hw.1, hw.2.1, hw.2.2⟩) fun _ h => h
  subst hw
  exact ⟨rfl, rfl, rfl⟩

/-- **Activating** a connector: it is declined, or lit at the mode. -/
theorem activateMode_spec (i : Connector) (m : Mode) :
    Triple (fun w => w = w₀) (activateMode (headOf i) m.width m.height m.refreshHz.toNat)
      (fun lit w => lit = !declined w₀ (headOf i) ∧
        if lit then LitBy w₀ i m w else SameMarks w₀ w)
      (fun _ => declined w₀ (headOf i) = false) := by
  refine Triple.get_bind ?_
  cases hdeclined : declined w₀ (headOf i) with
  | true =>
    refine Triple.pure fun w' hw' => ⟨rfl, ?_⟩
    subst hw'
    exact SameMarks.refl _
  | false =>
    rw [if_neg (by simp)]
    refine (marks_programMode (P := fun d a p => d = w₀.dock ∧ a = w₀.modeActive ∧
        p = w₀.programmedMode)
      (Q := fun d a p => d = w₀.dock ∧ a = Function.update w₀.modeActive i true ∧
        ∃ size, m.Programmed size ∧ p = Function.update w₀.programmedMode i size)
      i m ?_).mono (fun w' hw' => ?_) (fun lit w' hw' => ?_) fun _ _ => rfl
    · rintro d a p size hsize ⟨rfl, rfl, rfl⟩
      exact ⟨rfl, rfl, size, hsize, rfl⟩
    · subst hw'
      exact ⟨rfl, rfl, rfl⟩
    · obtain ⟨rfl, hdock, hactive, hmode⟩ := hw'
      exact ⟨rfl, hdock, hactive, hmode⟩

/-- **Taking a connector down.** -/
theorem deactivateMode_spec (i : Connector) (width height : ℕ) :
    Triple (fun w => w = w₀) (deactivateMode (headOf i) width height) (fun _ w => DarkBy w₀ i w)
      (fun _ => True) := by
  have h : Stable (marks fun d a p => d = w₀.dock ∧
      a = Function.update w₀.modeActive i false ∧ p = w₀.programmedMode) fun _ => True :=
    marks_stable fun _ _ => trivial
  refine (h.toWire.deactivateMode (P := fun w => w = w₀) (fun _ _ => trivial) (fun w hw => ?_)
    (fun frames => keeps_submitVideo (fun _ hw => hw) (fun _ _ => trivial) fun _ _ hw => hw)
    width height).mono (fun _ h => h) (fun _ w hw => ⟨hw.1, hw.2.1, hw.2.2⟩) fun _ h => h
  subst hw
  rw [World.darkened, connector?_headOf]
  exact ⟨rfl, rfl, rfl⟩

/-- Presenting lights nothing. -/
theorem presentRgb_spec (i : Connector) (surface : Surface) :
    Triple (fun w => w = w₀) (presentRgb (headOf i) surface.width surface.height surface.padded)
      (fun _ w => SameMarks w₀ w) (fun _ => True) :=
  sameMarks_of_keeps (Flows.presentRgb (marks_stable fun _ _ => trivial).toWire
    (fun i _ => marks_flows _ i) (fun _ _ => trivial) (fun _ _ _ _ hw => hw) _ _ _)

end Marks

/-- The upload keeps what `setCursor` keeps, up to a panic. -/
theorem keeps_setCursorOrPanic {I R : World → Prop} (h : Stable I R) (head : UInt8)
    (width height : ℕ) (bgra : List UInt8) :
    Triple I (setCursorOrPanic head width height bgra)
      (fun shown w => if shown.isSome then I w else R w) R := by
  intro w hw
  have hset := h.setCursor head width height bgra w hw
  rw [setCursor_eq] at hset
  simp only [Bind.bind, EStateM.bind] at hset
  cases hrun : setCursorOrPanic head width height bgra w with
  | error e w' =>
    rw [hrun] at hset
    exact hset
  | ok shown w' =>
    rw [hrun] at hset
    cases shown with
    | none => exact hset
    | some _ => exact hset

/-! ### A batch -/

/-- Every output with a mode is lit at it, and nothing else. -/
def Lights (outputs : Connector → Option Output) (w : World) (i : Connector) : Prop :=
  match (outputs i).bind Output.wants with
  | none => w.modeActive i = false
  | some m => w.modeActive i = true ∧ m.Programmed (w.programmedMode i)

section Batch

variable {outputs : Connector → Option Output} {d₀ : Dock}

/-- What a batch has lit when some connectors are still to come. -/
def LitSoFar (outputs : Connector → Option Output) (d₀ : Dock) (rest : List Connector) :
    World → Prop :=
  fun w => w.dock = d₀ ∧ (∀ i ∈ rest, w.modeActive i = false) ∧ ∀ i ∉ rest, Lights outputs w i

theorem litSoFar_programs : ∀ rest : List Connector, rest.Nodup →
    Triple (LitSoFar outputs d₀ rest)
      ((rest.filterMap fun i => ((outputs i).bind Output.wants).map fun m => m.request i).forM
        fun r => do
          let _ ← programMode r.head r.width r.height r.refreshHz)
      (fun _ => LitSoFar outputs d₀ []) (fun _ => True)
  | [], _ => Keeps.pure _
  | i :: rest, hnodup => by
    obtain ⟨hi, hrest⟩ := List.nodup_cons.1 hnodup
    have ih := litSoFar_programs rest hrest
    cases hwants : (outputs i).bind Output.wants with
    | none =>
      rw [List.filterMap_cons, hwants]
      refine ih.mono (fun w hw => ?_) (fun _ _ h => h) fun _ h => h
      obtain ⟨hdock, hdark, hlit⟩ := hw
      refine ⟨hdock, fun j hj => hdark j (List.mem_cons_of_mem i hj), fun j hj => ?_⟩
      rcases eq_or_ne j i with rfl | hji
      · unfold Lights
        rw [hwants]
        exact hdark j List.mem_cons_self
      · exact hlit j (by simp [hji, hj])
    | some m =>
      rw [List.filterMap_cons, hwants]
      refine Triple.bind (Q := fun _ => LitSoFar outputs d₀ rest) ?_ fun _ => ih
      refine Triple.bind ?_ fun _ => Triple.pure fun _ hw => hw
      refine (marks_programMode (P := fun d a p => d = d₀ ∧ (∀ j ∈ i :: rest, a j = false) ∧
          ∀ j ∉ i :: rest, match (outputs j).bind Output.wants with
            | none => a j = false
            | some m => a j = true ∧ m.Programmed (p j))
        (Q := fun d a p => d = d₀ ∧ (∀ j ∈ rest, a j = false) ∧
          ∀ j ∉ rest, match (outputs j).bind Output.wants with
            | none => a j = false
            | some m => a j = true ∧ m.Programmed (p j)) i m ?_).mono
        (fun _ h => h) (fun _ _ h => h.2) fun _ h => h
      rintro d a p size hsize ⟨hdock, hdark, hlit⟩
      refine ⟨hdock, fun j hj => ?_, fun j hj => ?_⟩
      · have hji : j ≠ i := by
          rintro rfl
          exact hi hj
        rw [Function.update_of_ne hji]
        exact hdark j (List.mem_cons_of_mem i hj)
      · rcases eq_or_ne j i with rfl | hji
        · rw [hwants, Function.update_self, Function.update_self]
          exact ⟨rfl, hsize⟩
        · rw [Function.update_of_ne hji, Function.update_of_ne hji]
          exact hlit j (by simp [hji, hj])

/-- **A batch** lights the outputs that have a mode, each at its own, and nothing else. -/
theorem activateModes_spec {w₀ : World} :
    Triple (fun w => w = w₀) (activateModes (requests outputs))
      (fun _ w => w.dock = w₀.dock ∧ ∀ i, Lights outputs w i) (fun _ => True) := by
  refine Triple.bind (Q := fun _ => LitSoFar outputs w₀.dock (List.finRange maxConnectors)) ?_
    fun _ => (litSoFar_programs _ (List.nodup_finRange _)).mono (fun _ h => h)
      (fun _ w hw => ⟨hw.1, fun i => hw.2.2 i List.not_mem_nil⟩) fun _ h => h
  refine ((darken_all w₀.connectors.val).and (Keeps.forM _ fun i _ =>
    (dock_steady w₀.dock).darken i)).mono (fun w hw => ?_) (fun _ w hw => ?_) fun _ _ => trivial
  · subst hw
    exact ⟨rfl, rfl⟩
  · obtain ⟨⟨-, hdark⟩, hdock⟩ := hw
    exact ⟨hdock, fun i _ => hdark i, fun i hi => absurd (List.mem_finRange i) hi⟩

end Batch

/-! ### Events -/

/-- The state with the session in another world. -/
def State.facing (s : State) (w : World) : State := { s with world := w }

/-- The event says nothing about the power of an output, or nothing new. -/
def Idles (o : Output) : DeviceEvent → Prop
  | .mode m => o.mode = some m
  | .dpms state =>
      state = 0 ∧ (o.active = true ∨ o.mode = none) ∨ state ≠ 0 ∧ o.active = false
  | _ => True

/-- The outputs agree about what is driven. -/
structure SamePower (o o' : Output) : Prop where
  mode : o'.mode = o.mode
  active : o'.active = o.active

/-- **Everything an event can do**, to an output and to the world. -/
inductive Handled (w₀ : World) (i : Connector) (o : Output) : DeviceEvent → Output → World → Prop
  | kept {event : DeviceEvent} {o' : Output} {w : World} (hidles : Idles o event)
      (hpower : SamePower o o') (howed : o'.deferredMode = o.deferredMode)
      (hsame : SameMarks w₀ w) : Handled w₀ i o event o' w
  | lit {m : Mode} {w : World} (hnew : o.mode ≠ some m)
      (hfree : declined w₀ (headOf i) = false) (hlit : LitBy w₀ i m w) :
      Handled w₀ i o (.mode m) { o with mode := some m, active := true } w
  | deferred {m : Mode} {w : World} (hnew : o.mode ≠ some m)
      (hdeclined : declined w₀ (headOf i) = true) (hsame : SameMarks w₀ w) :
      Handled w₀ i o (.mode m) { o with deferredMode := some m } w
  | woken {m : Mode} {w : World} (hdark : o.active = false) (hmode : o.mode = some m)
      (hfree : declined w₀ (headOf i) = false) (hlit : LitBy w₀ i m w) :
      Handled w₀ i o (.dpms 0) { o with active := true } w
  | asleep {m : Mode} {w : World} (hdark : o.active = false) (hmode : o.mode = some m)
      (hdeclined : declined w₀ (headOf i) = true) (hsame : SameMarks w₀ w) :
      Handled w₀ i o (.dpms 0) { o with active := false } w
  | darkened {state : ℤ} {m : Mode} {w : World} (hstate : state ≠ 0) (hactive : o.active = true)
      (hmode : o.mode = some m) (hdark : DarkBy w₀ i w) :
      Handled w₀ i o (.dpms state) { o with active := false } w

section Events

variable {s₀ : State} {R : State → Prop} {α : Type}

/-- A call, from what it does in one world. -/
theorem triple_call_from {m : SessionM α} {J : α → World → Prop} {E : World → Prop}
    (h : Triple (fun w => w = s₀.world) m J E) (hR : ∀ w, E w → R (s₀.facing w)) :
    Triple (fun s => s = s₀) (call m) (fun a s => ∃ w, s = s₀.facing w ∧ J a w) R := by
  refine triple_call fun s hs => ?_
  subst hs
  exact h.mono (fun _ h => h) (fun a w hw => ⟨w, rfl, hw⟩) hR

/-- A call of the control channel lights nothing. -/
theorem triple_call_stable {m : SessionM α}
    (h : ∀ {P : Dock → (Connector → Bool) → (Connector → UInt16 × UInt16) → Prop},
      Stable (marks P) (fun _ => True) → Keeps (marks P) (fun _ => True) m)
    (hR : ∀ w, R (s₀.facing w)) :
    Triple (fun s => s = s₀) (call m) (fun _ s => ∃ w, s = s₀.facing w ∧ SameMarks s₀.world w) R :=
  triple_call_from (sameMarks_of_keeps (h (marks_stable fun _ _ => trivial))) fun w _ => hR w

/-- Nor does one whose error is forgotten. -/
theorem triple_attempt_stable {m : SessionM α}
    (h : ∀ {P : Dock → (Connector → Bool) → (Connector → UInt16 × UInt16) → Prop},
      Stable (marks P) (marks P) → Keeps (marks P) (marks P) m) :
    Triple (fun s => s = s₀) (attempt m)
      (fun _ s => ∃ w, s = s₀.facing w ∧ SameMarks s₀.world w) R := by
  refine triple_attempt fun s hs => ?_
  subst hs
  have hkeeps := h (marks_stable (P := fun d a p => d = s.world.dock ∧ a = s.world.modeActive ∧
    p = s.world.programmedMode) fun _ h => h)
  refine hkeeps.mono (fun w hw => ?_) (fun _ w hw => ⟨w, rfl, hw.1, hw.2.1, hw.2.2⟩)
    fun w hw => ⟨w, rfl, hw.1, hw.2.1, hw.2.2⟩
  subst hw
  exact ⟨rfl, rfl, rfl⟩

theorem activate_spec (i : Connector) (m : Mode)
    (hR : declined s₀.world (headOf i) = false → ∀ w, R (s₀.facing w)) :
    Triple (fun s => s = s₀) (activate i m)
      (fun lit s => ∃ w, s = s₀.facing w ∧ lit = !declined s₀.world (headOf i) ∧
        if lit then LitBy s₀.world i m w else SameMarks s₀.world w) R :=
  triple_call_from (activateMode_spec i m) fun w hfree => hR hfree w

/-- What follows an activation: one thing if it was accepted, another if it was declined. -/
theorem triple_activate (i : Connector) (m : Mode)
    (hR : declined s₀.world (headOf i) = false → ∀ w, R (s₀.facing w))
    {f : Bool → DaemonM α} {Q : α → State → Prop}
    (hlit : declined s₀.world (headOf i) = false → ∀ w, LitBy s₀.world i m w →
      Triple (fun s => s = s₀.facing w) (f true) Q R)
    (hdeclined : declined s₀.world (headOf i) = true → ∀ w, SameMarks s₀.world w →
      Triple (fun s => s = s₀.facing w) (f false) Q R) :
    Triple (fun s => s = s₀) (activate i m >>= f) Q R := by
  refine Triple.bind (activate_spec i m hR) fun lit => ?_
  rintro s ⟨w, rfl, hlit', hw⟩
  cases hcase : declined s₀.world (headOf i) with
  | false =>
    rw [hcase] at hlit'
    subst hlit'
    exact hlit hcase w hw _ rfl
  | true =>
    rw [hcase] at hlit'
    subst hlit'
    exact hdeclined hcase w hw _ rfl

/-- The picture of a cursor is cut out, or the session given up. -/
theorem cursorPicture_spec (cursor : Cursor) (hR : R s₀) :
    Triple (fun s => s = s₀) (cursorPicture cursor) (fun _ s => s = s₀) R := by
  unfold cursorPicture
  split
  · exact Triple.throw fun s hs => hs ▸ hR
  · exact Triple.throw fun s hs => hs ▸ hR
  · exact Triple.pure fun s hs => hs

theorem showCursor_spec (i : Connector) (cursor : Cursor) (hR : ∀ w, R (s₀.facing w)) :
    Triple (fun s => s = s₀) (showCursor i cursor)
      (fun _ s => ∃ w, s = s₀.facing w ∧ SameMarks s₀.world w) R := by
  refine Triple.bind (cursorPicture_spec cursor (hR s₀.world)) fun bgra => ?_
  have hset : Triple (fun w => w = s₀.world)
      (setCursorOrPanic (headOf i) cursor.width.toNat cursor.height.toNat bgra)
      (fun shown w => shown.isSome = true → SameMarks s₀.world w) (fun _ => True) := by
    have h := keeps_setCursorOrPanic (marks_stable (P := fun d a p => d = s₀.world.dock ∧
      a = s₀.world.modeActive ∧ p = s₀.world.programmedMode) fun _ _ => trivial) (headOf i)
      cursor.width.toNat cursor.height.toNat bgra
    refine h.mono (fun w hw => ?_) (fun shown w hw hsome => ?_) fun _ h => h
    · subst hw
      exact ⟨rfl, rfl, rfl⟩
    · rw [if_pos hsome] at hw
      exact ⟨hw.1, hw.2.1, hw.2.2⟩
  refine Triple.bind (triple_call_from hset fun w _ => hR w) fun shown => ?_
  cases shown with
  | none =>
    refine Triple.throw ?_
    rintro s ⟨w, rfl, -⟩
    exact hR w
  | some _ =>
    refine Triple.pure ?_
    rintro s ⟨w, rfl, hw⟩
    exact ⟨w, rfl, hw rfl⟩

/-- **What an event does.** -/
theorem handleEvent_spec (c : Crypto) (i : Connector) (o : Output) (event : DeviceEvent)
    (hR : ∀ w, R (s₀.facing w)) :
    Triple (fun s => s = s₀) (handleEvent c i o event)
      (fun o' s => ∃ w, s = s₀.facing w ∧ Handled s₀.world i o event o' w) R := by
  have hkept (hidles : Idles o event) : ∀ s, s = s₀ → ∃ w, s = s₀.facing w ∧
      Handled s₀.world i o event o w := by
    rintro s rfl
    exact ⟨s.world, rfl, .kept hidles ⟨rfl, rfl⟩ rfl (SameMarks.refl _)⟩
  unfold handleEvent
  cases event with
  | mode m =>
    dsimp only
    split_ifs with hnew
    · refine triple_activate i m (fun _ => hR) (fun hfree w hw => ?_) fun hdeclined w hw => ?_
      · refine Triple.pure ?_
        rintro s rfl
        exact ⟨w, rfl, .lit (Ne.symm hnew) hfree hw⟩
      · refine Triple.pure ?_
        rintro s rfl
        exact ⟨w, rfl, .deferred (Ne.symm hnew) hdeclined hw⟩
    · exact Triple.pure (hkept (not_not.1 hnew).symm)
  | crtcState state => exact Triple.pure (hkept trivial)
  | dpms state =>
    dsimp only
    by_cases hstate : state = 0
    · subst hstate
      rw [if_pos rfl]
      cases hactive : o.active with
      | true =>
        exact Triple.pure (hkept (.inl ⟨rfl, .inl hactive⟩))
      | false =>
        cases hmode : o.mode with
        | none =>
          exact Triple.pure (hkept (.inl ⟨rfl, .inr hmode⟩))
        | some m =>
          refine triple_activate i m (fun _ => hR) (fun hfree w hw => ?_) fun hdeclined w hw => ?_
          · refine Triple.pure ?_
            rintro s rfl
            have hwoken := Handled.woken hactive hmode hfree hw
            rw [hmode] at hwoken
            exact ⟨w, rfl, hwoken⟩
          · refine Triple.pure ?_
            rintro s rfl
            have hasleep := Handled.asleep hactive hmode hdeclined hw
            rw [hmode] at hasleep
            exact ⟨w, rfl, hasleep⟩
    · rw [if_neg hstate]
      cases hactive : o.active with
      | false =>
        exact Triple.pure (hkept (.inr ⟨hstate, hactive⟩))
      | true =>
        rw [if_pos rfl]
        cases hmode : o.mode with
        | none => exact Triple.throw fun s hs => hs ▸ hR s₀.world
        | some m =>
          refine Triple.bind (triple_call_from (deactivateMode_spec i m.width m.height)
            fun w _ => hR w) fun _ => Triple.pure ?_
          rintro s ⟨w, rfl, hw⟩
          have hdarkened := Handled.darkened hstate hactive hmode hw
          rw [hmode] at hdarkened
          exact ⟨w, rfl, hdarkened⟩
  | cursorSet cursor =>
    refine Triple.bind (Q := fun _ s => s = s₀) (Triple.get fun s hs => hs) fun s => ?_
    split_ifs
    · refine Triple.bind (showCursor_spec i cursor hR) fun _ => Triple.pure ?_
      rintro s ⟨w, rfl, hw⟩
      exact ⟨w, rfl, .kept trivial ⟨rfl, rfl⟩ rfl hw⟩
    · refine Triple.bind (triple_call_stable (fun h => h.hideCursor _) hR) fun _ => Triple.pure ?_
      rintro s ⟨w, rfl, hw⟩
      exact ⟨w, rfl, .kept trivial ⟨rfl, rfl⟩ rfl hw⟩
    · exact Triple.pure (hkept trivial)
  | cursorMove x y =>
    refine Triple.bind (Q := fun _ s => s = s₀) (Triple.get fun s hs => hs) fun s => ?_
    split_ifs
    · refine Triple.bind (triple_call_stable (fun h => h.moveCursor _ _ _) hR) fun _ =>
        Triple.pure ?_
      rintro s ⟨w, rfl, hw⟩
      exact ⟨w, rfl, .kept trivial ⟨rfl, rfl⟩ rfl hw⟩
    · exact Triple.pure (hkept trivial)
  | ddcci address flags buffer =>
    refine Triple.bind (triple_attempt_stable fun h => h.ddcci c _ _ _ _) fun _ => Triple.pure ?_
    rintro s ⟨w, rfl, hw⟩
    exact ⟨w, rfl, .kept trivial ⟨rfl, rfl⟩ rfl hw⟩

end Events

/-! ### Frames -/

/-- What a frame's mode becomes of an output: recorded already, programmed, or owed. -/
inductive Adopted (w₀ : World) (i : Connector) (o : Output) (m : Mode) : Output → World → Prop
  | recorded (hmode : o.mode = some m) : Adopted w₀ i o m o w₀
  | programmed {w : World} (hfree : declined w₀ (headOf i) = false) (hlit : LitBy w₀ i m w) :
      Adopted w₀ i o m { o with mode := some m } w
  | owed {w : World} (hdeclined : declined w₀ (headOf i) = true) (hsame : SameMarks w₀ w) :
      Adopted w₀ i o m { o with deferredMode := some m } w

/-- **What is presented for an output**: its last surface, while strips are owed, or a frame, in the
state behind the adoption of its mode. -/
inductive Sends (s₀ : State) (i : Connector) : Option Grab → State → Output → Surface → Prop
  | repeated {o : Output} {surface : Surface} (ho : s₀.outputs i = some o)
      (hactive : o.active = true) (hlast : o.lastSurface = some surface)
      (howes : owesRepaint s₀.world (headOf i) = true) : Sends s₀ i none s₀ o surface
  | framed {o o' : Output} {grab : Grab} {surface : Surface} {w : World}
      (ho : s₀.outputs i = some o) (hactive : o.active = true)
      (hadopted : Adopted s₀.world i o grab.mode o' w)
      (hsurface : surface = padRgb w.dock grab.rgb grab.mode.width grab.mode.height) :
      Sends s₀ i (some grab) (s₀.facing w) { o' with lastSurface := some surface } surface

section Frames

variable {s₀ : State} {R : State → Prop} {i : Connector}

theorem adopt_spec (i : Connector) (o : Output) (m : Mode)
    (hR : declined s₀.world (headOf i) = false → ∀ w, R (s₀.facing w)) :
    Triple (fun s => s = s₀) (adopt i o m)
      (fun o' s => ∃ w, s = s₀.facing w ∧ Adopted s₀.world i o m o' w) R := by
  unfold adopt
  split_ifs with hnew
  · refine triple_activate i m hR (fun hfree w hw => Triple.pure ?_)
      fun hdeclined w hw => Triple.pure ?_
    · rintro s rfl
      exact ⟨w, rfl, .programmed hfree hw⟩
    · rintro s rfl
      exact ⟨w, rfl, .owed hdeclined hw⟩
  · refine Triple.pure ?_
    rintro s rfl
    exact ⟨s.world, rfl, .recorded (not_not.1 hnew).symm⟩

/-- **Presenting** is noted, and touches no connector. -/
theorem present_spec (i : Connector) (surface : Surface)
    (hR : ∀ s, s.presented = s₀.presented ++ [s₀.presenting i surface] → R s) :
    Triple (fun s => s = s₀) (present i surface)
      (fun _ s => ∃ w, SameMarks s₀.world w ∧
        s = ⟨w, s₀.outputs, s₀.presented ++ [s₀.presenting i surface], s₀.heard⟩) R := by
  refine Triple.bind (Q := fun _ s => s =
    { s₀ with presented := s₀.presented ++ [s₀.presenting i surface] }) (Triple.modify ?_)
    fun _ => ?_
  · rintro s rfl
    rfl
  · refine (triple_call_from (presentRgb_spec i surface) fun _ _ => hR _ rfl).mono
      (fun _ h => h) ?_ fun _ h => h
    rintro _ s ⟨w, rfl, hw⟩
    exact ⟨w, hw, rfl⟩

end Frames

/-! ### Looks -/

/-- What a look at a connector can do. -/
inductive Noticed (s : State) : State → Prop
  | world {w : World} (hsame : SameMarks s.world w) : Noticed s (s.facing w)
  | counted {i : Connector} {o o' : Output} (ho : s.outputs i = some o) (hpower : SamePower o o')
      (howed : o'.deferredMode = o.deferredMode) :
      Noticed s { s with outputs := Function.update s.outputs i (some o') }
  | gone (i : Connector) : Noticed s { s with outputs := Function.update s.outputs i none }
  | connected (i : Connector) : Noticed s
      { s with
        outputs := Function.update s.outputs i (some Output.connected)
        heard := Function.update s.heard i Heard.nothing }

/-- **Everything that following the topology can do.** -/
def Looked : State → State → Prop := Relation.ReflTransGen Noticed

/-- What every look keeps is kept. -/
theorem Looked.keeps {P : State → Prop} {s s' : State} (h : Looked s s')
    (hP : ∀ s s', P s → Noticed s s' → P s') (hs : P s) : P s' := by
  induction h with
  | refl => exact hs
  | tail _ hone ih => exact hP _ _ ih hone

/-- A look presents nothing. -/
theorem Looked.presented {s s' : State} (h : Looked s s') : s'.presented = s.presented := by
  refine h.keeps (P := fun s' => s'.presented = s.presented) (fun s₁ s₂ hs₁ hone => ?_) rfl
  cases hone with
  | world => exact hs₁
  | counted => exact hs₁
  | gone => exact hs₁
  | connected => exact hs₁

/-- A computation that only looks. -/
def Looks (s₀ : State) {α : Type} (m : DaemonM α) : Prop :=
  Triple (fun s => s = s₀) m (fun _ s => Looked s₀ s) fun s => s.presented = s₀.presented

section Looks

variable {s₀ s₁ : State} {α : Type}

/-- A look behind another. -/
theorem Looks.behind {m : DaemonM α} (h : Looked s₀ s₁) (hm : Looks s₁ m) :
    Triple (fun s => s = s₁) m (fun _ s => Looked s₀ s) fun s => s.presented = s₀.presented :=
  hm.mono (fun _ h => h) (fun _ _ hs => h.trans hs) fun _ hs => hs.trans h.presented

/-- A call of the control channel. -/
theorem looks_call {m : SessionM α}
    (h : ∀ {P : Dock → (Connector → Bool) → (Connector → UInt16 × UInt16) → Prop},
      Stable (marks P) (fun _ => True) → Keeps (marks P) (fun _ => True) m) :
    Looks s₀ (call m) := by
  refine (triple_call_stable h fun _ => rfl).mono (fun _ h => h) ?_ fun _ h => h
  rintro _ s ⟨w, rfl, hw⟩
  exact .single (.world hw)

theorem looks_connectOutput (c : Crypto) (i : Connector) (look : Look) :
    Looks s₀ (connectOutput c i look) := by
  refine Triple.bind (triple_attempt_stable fun h => h.fetchEdid c _) fun edid => ?_
  split_ifs
  · refine Triple.modify ?_
    rintro s ⟨w, rfl, hw⟩
    exact (Relation.ReflTransGen.single (.world hw)).tail (.connected i)
  · refine Triple.pure ?_
    rintro s ⟨w, rfl, hw⟩
    exact .single (.world hw)

/-- A probe either takes an output away or leaves its mode and its power alone. -/
theorem noticed_probed {i : Connector} {o : Output} (ho : s₀.outputs i = some o) (look : Look)
    (present : Option Bool) :
    Noticed s₀ { s₀ with outputs := Function.update s₀.outputs i (o.probed look present) } := by
  have hanswered (o' : Output) (present : Bool) (hpower : SamePower o o')
      (howed : o'.deferredMode = o.deferredMode) :
      Noticed s₀ { s₀ with
        outputs := Function.update s₀.outputs i (o'.answered look present) } := by
    unfold Output.answered
    dsimp only
    split_ifs
    · exact .counted ho ⟨hpower.mode, hpower.active⟩ howed
    · exact .gone i
    · exact .counted ho ⟨hpower.mode, hpower.active⟩ howed
  unfold Output.probed
  cases present with
  | some present => exact hanswered _ present ⟨rfl, rfl⟩ rfl
  | none =>
    dsimp only
    split_ifs
    · exact .counted ho ⟨rfl, rfl⟩ rfl
    · exact hanswered _ false ⟨rfl, rfl⟩ rfl

theorem looks_refreshConnector (c : Crypto) (looks : Connector → Look) (i : Connector) :
    Looks s₀ (refreshConnector c looks i) := by
  refine Triple.get_bind ?_
  have hprobe : Triple (fun s => s = s₀) (call (probeHeadPresent c (headOf i)))
      (fun _ s => ∃ w, s = s₀.facing w ∧ SameMarks s₀.world w)
      (fun s => s.presented = s₀.presented) :=
    triple_call_stable (fun h => h.probeHeadPresent c _) fun _ => rfl
  cases hout : s₀.outputs i with
  | none =>
    refine Triple.bind hprobe fun present => ?_
    rintro s ⟨w, rfl, hw⟩
    have hlooked : Looked s₀ (s₀.facing w) := .single (.world hw)
    split_ifs
    · exact (looks_connectOutput c i (looks i)).behind hlooked _ rfl
    · exact hlooked
  | some o =>
    dsimp only
    split_ifs
    · refine Triple.pure ?_
      rintro s rfl
      exact .refl
    · refine Triple.bind hprobe fun present => Triple.modify ?_
      rintro s ⟨w, rfl, hw⟩
      exact (Relation.ReflTransGen.single (.world hw)).tail
        (@noticed_probed (s₀.facing w) i _ hout (looks i) present)

/-- A loop over connectors. -/
theorem looks_forM {f : Connector → DaemonM PUnit} (l : List Connector)
    (h : ∀ i s₁, Looks s₁ (f i)) : Looks s₀ (l.forM f) := by
  have hkeeps : Keeps (fun s => Looked s₀ s) (fun s => s.presented = s₀.presented) (l.forM f) :=
    Keeps.forM l fun i _ => Triple.of_each fun s₁ hs₁ => (h i s₁).behind hs₁
  refine hkeeps.mono (fun s hs => ?_) (fun _ _ h => h) fun _ h => h
  subst hs
  exact .refl

theorem looks_refreshTopology (c : Crypto) (looks : Connector → Look) :
    Looks s₀ (refreshTopology c looks) := by
  refine Triple.get_bind ?_
  split_ifs
  · exact looks_forM _ fun i s₁ => looks_refreshConnector c looks i
  · refine Triple.pure ?_
    rintro s rfl
    exact .refl

theorem looks_discoverConnector (c : Crypto) (looks : Connector → Look) (i : Connector) :
    Looks s₀ (discoverConnector c looks i) := by
  refine Triple.get_bind ?_
  dsimp only
  split_ifs
  · exact looks_connectOutput c i (looks i)
  · refine Triple.bind (looks_call fun h => h.probeHeadPresent c _) fun present => ?_
    refine Triple.of_each fun s₁ hs₁ => ?_
    split_ifs
    · exact (looks_connectOutput c i (looks i)).behind hs₁
    · refine Triple.pure ?_
      rintro s rfl
      exact hs₁

theorem looks_discover (c : Crypto) (looks : Connector → Look) : Looks s₀ (discover c looks) := by
  refine Triple.get_bind ?_
  exact looks_forM _ fun i s₁ => looks_discoverConnector c looks i

end Looks

/-! ### What a step does -/

/-- The steps that only look. -/
def Step.Looks : Step → Prop
  | .discover _ => True
  | .topology _ => True
  | .keepalive => True
  | .heartbeat => True
  | _ => False

/-- **What a step does** while the session is served. -/
inductive Moved (s₀ : State) : Step → State → Prop
  | looked {step : Step} {s : State} (hstep : step.Looks) (hlooked : Looked s₀ s) :
      Moved s₀ step s
  | absent {i : Connector} {event : DeviceEvent} (hout : s₀.outputs i = none) :
      Moved s₀ (.event i event) s₀
  | delivered {i : Connector} {event : DeviceEvent} {o o' : Output} {w : World}
      (ho : s₀.outputs i = some o) (hhandled : Handled s₀.world i o event o' w) :
      Moved s₀ (.event i event) ⟨w, Function.update s₀.outputs i (some o'), s₀.presented,
        Function.update s₀.heard i ((s₀.heard i).hear event)⟩
  | idle {i : Connector} {grab : Option Grab} (hidle : ∀ o ∈ s₀.outputs i, o.active = true →
      grab = none ∧ ∀ surface ∈ o.lastSurface, owesRepaint s₀.world (headOf i) = false) :
      Moved s₀ (.serve i grab) s₀
  | sent {i : Connector} {grab : Option Grab} {s₁ : State} {o : Output} {surface : Surface}
      {w : World} (hsends : Sends s₀ i grab s₁ o surface) (hsame : SameMarks s₁.world w) :
      Moved s₀ (.serve i grab) ⟨w, Function.update s₀.outputs i (some o),
        s₀.presented ++ [s₁.presenting i surface], s₀.heard⟩
  | unowed (howed : ¬Owed s₀.outputs) : Moved s₀ .reconfigure s₀
  | batched {w : World} (howed : Owed s₀.outputs) (hlights : ∀ i, Lights s₀.outputs w i) :
      Moved s₀ .reconfigure ⟨w, fun i => (s₀.outputs i).map Output.reconfigured, s₀.presented,
        s₀.heard⟩

/-- **How a step fails**, as far as what it presented. -/
inductive Stopped (s₀ : State) : Step → State → Prop
  | silent {step : Step} {s : State} (hsame : s.presented = s₀.presented)
      (hserve : ∀ i grab, step = .serve i grab →
        grab.isSome = true ∧ declined s₀.world (headOf i) = false) : Stopped s₀ step s
  | sending {i : Connector} {grab : Option Grab} {s₁ s : State} {o : Output} {surface : Surface}
      (hsends : Sends s₀ i grab s₁ o surface)
      (hone : s.presented = s₀.presented ++ [s₁.presenting i surface]) :
      Stopped s₀ (.serve i grab) s

section Steps

variable {s₀ : State}

theorem deliver_spec (c : Crypto) (i : Connector) (event : DeviceEvent) :
    Triple (fun s => s = s₀) (deliver c i event) (fun _ s => Moved s₀ (.event i event) s)
      (fun s => s.presented = s₀.presented) := by
  refine Triple.get_bind ?_
  cases hout : s₀.outputs i with
  | none =>
    refine Triple.pure ?_
    rintro s rfl
    exact .absent hout
  | some o =>
    refine Triple.bind (handleEvent_spec c i o event fun _ => rfl) fun o' => ?_
    refine Triple.bind (Q := fun _ s => ∃ w, Handled s₀.world i o event o' w ∧
      s = ⟨w, Function.update s₀.outputs i (some o'), s₀.presented, s₀.heard⟩)
      (Triple.modify ?_) fun _ => Triple.modify ?_
    · rintro s ⟨w, rfl, hw⟩
      exact ⟨w, hw, rfl⟩
    · rintro s ⟨w, hw, rfl⟩
      exact .delivered hout hw

theorem serve_spec (i : Connector) (grab : Option Grab) :
    Triple (fun s => s = s₀) (serve i grab) (fun _ s => Moved s₀ (.serve i grab) s)
      (fun s => Stopped s₀ (.serve i grab) s) := by
  have hidle (h : ∀ o ∈ s₀.outputs i, o.active = true →
      grab = none ∧ ∀ surface ∈ o.lastSurface, owesRepaint s₀.world (headOf i) = false) :
      ∀ s, s = s₀ → Moved s₀ (.serve i grab) s := by
    rintro s rfl
    exact .idle h
  refine Triple.get_bind ?_
  cases hout : s₀.outputs i with
  | none => exact Triple.pure (hidle (by simp [hout]))
  | some o =>
    dsimp only
    cases hactive : o.active with
    | false => exact Triple.pure (hidle (by simp [hout, hactive]))
    | true =>
      rw [if_pos rfl]
      cases grab with
      | none =>
        dsimp only
        cases hlast : o.lastSurface with
        | none => exact Triple.pure (hidle (by simp [hout, hlast]))
        | some surface =>
          dsimp only
          split_ifs with howes
          · have hsends : Sends s₀ i none s₀ o surface := .repeated hout hactive hlast howes
            refine (present_spec i surface fun s hs => .sending hsends hs).mono (fun _ h => h) ?_
              fun _ h => h
            rintro _ s ⟨w, hw, rfl⟩
            have hmoved := Moved.sent hsends hw
            rwa [Function.update_eq_self_iff.2 hout.symm] at hmoved
          · exact Triple.pure (hidle (by simp [hout, howes]))
      | some grab =>
        refine Triple.bind (adopt_spec i o grab.mode fun hfree w =>
          .silent rfl fun j grab' h => ?_) fun o' => ?_
        · obtain ⟨rfl, rfl⟩ := Step.serve.inj h
          exact ⟨rfl, hfree⟩
        · refine Triple.of_each fun s₁ hs₁ => ?_
          obtain ⟨w, rfl, hadopted⟩ := hs₁
          refine Triple.get_bind ?_
          have hsends := Sends.framed hout hactive hadopted rfl
          refine Triple.bind (present_spec i _ fun s hs => .sending hsends hs) fun _ =>
            Triple.modify ?_
          rintro s ⟨w', hw', rfl⟩
          exact .sent hsends hw'

theorem reconfigure_spec :
    Triple (fun s => s = s₀) reconfigure (fun _ s => Moved s₀ .reconfigure s)
      (fun s => s.presented = s₀.presented) := by
  refine Triple.get_bind ?_
  split_ifs with howed
  · refine Triple.bind (triple_call_from activateModes_spec fun _ _ => rfl) fun _ =>
      Triple.modify ?_
    rintro s ⟨w, rfl, -, hlights⟩
    exact .batched howed hlights
  · refine Triple.pure ?_
    rintro s rfl
    exact .unowed howed

/-- **What any step does.** -/
theorem act_spec (c : Crypto) (step : Step) :
    Triple (fun s => s = s₀) (act c step) (fun _ s => Moved s₀ step s)
      (fun s => Stopped s₀ step s) := by
  have hlooks (m : DaemonM Unit) (hstep : step.Looks) (hserve : ∀ i grab, step ≠ .serve i grab)
      (h : Looks s₀ m) :
      Triple (fun s => s = s₀) m (fun _ s => Moved s₀ step s) (fun s => Stopped s₀ step s) :=
    h.mono (fun _ h => h) (fun _ _ hs => .looked hstep hs)
      fun _ hs => .silent hs fun i grab h => absurd h (hserve i grab)
  cases step with
  | discover looks => exact hlooks _ trivial nofun (looks_discover c looks)
  | event i event =>
    exact (deliver_spec c i event).mono (fun _ h => h) (fun _ _ h => h) fun _ hs => .silent hs nofun
  | serve i grab => exact serve_spec i grab
  | reconfigure =>
    exact reconfigure_spec.mono (fun _ h => h) (fun _ _ h => h) fun _ hs => .silent hs nofun
  | topology looks => exact hlooks _ trivial nofun (looks_refreshTopology c looks)
  | keepalive => exact hlooks _ trivial nofun (looks_call fun h => h.pollStatus)
  | heartbeat => exact hlooks _ trivial nofun (looks_call fun h => h.heartbeat)

theorem advance_stopped {c : Crypto} {t : Service} {step : Step} (h : t.running = false) :
    advance c t step = t := by
  unfold advance
  rw [h, if_neg (by simp)]

/-- **One step of the service.** -/
theorem advance_running (c : Crypto) {t : Service} (step : Step) (h : t.running = true) :
    (∃ s, advance c t step = ⟨s, true⟩ ∧ Moved t.state step s) ∨
      ∃ s, advance c t step = ⟨s, false⟩ ∧ Stopped t.state step s := by
  have hspec := act_spec c step t.state rfl
  unfold advance
  rw [h, if_pos rfl]
  cases hact : act c step t.state with
  | ok _ s =>
    rw [hact] at hspec
    exact .inl ⟨s, rfl, hspec⟩
  | error _ s =>
    rw [hact] at hspec
    exact .inr ⟨s, rfl, hspec⟩

end Steps

end Vino.Session.Daemon
