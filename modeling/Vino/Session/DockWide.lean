import Vino.Session.Frames
import Vino.Session.Quiet

/-!
# Programming from Dark

A dock that reconfigures itself whole is reset when a connector is programmed while another one is
lit.  `SetsMode` names the world in which a set-mode message goes out during a call: right behind
`approachMode`, the part of programming in front of the message.

* `modeset_from_dark`: no other connector is lit in such a world, in a run whose batches name one
  connector each,
* `batch_programs_beside_lit`: a batch of two connectors programs the second beside the first.
-/

namespace Vino.Session

open Vino.Cp.Messages Vino.Cp.Seal Vino.Lib.Effect Vino.Lib.Run Vino.Profile Vino.Stream
open Vino.Haar.Records hiding fill

/-! ### The world of a set-mode message -/

/-- Programming the mode of `r` from `w` sends its set-mode message in `w'`. -/
def SetsModeFrom (w : World) (r : Request) (w' : World) : Prop :=
  r.width ≤ 65535 ∧ r.height ≤ 65535 ∧ r.refreshHz ≤ 65535 ∧
    ∃ i prepared, connector? r.head = some i ∧
      approachMode r.head i (UInt16.ofNat r.width) (UInt16.ofNat r.height)
        (UInt16.ofNat r.refreshHz) w = .ok prepared w'

/-- While `call` runs from `w`, the set-mode message of `r` is sent in `w'`. -/
def SetsMode (call : Call) (w : World) (r : Request) (w' : World) : Prop :=
  match call with
  | .activateMode r' => r' = r ∧ declined w r.head = false ∧ SetsModeFrom w r w'
  | .activateModes rs => ∃ before after w₁, rs = before ++ r :: after ∧
      activateModes before w = .ok () w₁ ∧ SetsModeFrom w₁ r w'
  | _ => False

/-- What programming does next in the world of its set-mode message is to send it. -/
theorem SetsModeFrom.programMode {w w' : World} {r : Request} (h : SetsModeFrom w r w') :
    ∃ i prepared, connector? r.head = some i ∧
      programMode r.head r.width r.height r.refreshHz w =
        (do
          commitMode r.head i (UInt16.ofNat r.width) (UInt16.ofNat r.height) prepared
          return true) w' := by
  obtain ⟨hwidth, hheight, hrefresh, i, prepared, hi, happroach⟩ := h
  refine ⟨i, prepared, hi, ?_⟩
  unfold Session.programMode
  rw [if_neg (by omega), if_neg (by omega), if_neg (by omega), hi]
  simp only [programConnector_eq, bind_assoc]
  show EStateM.bind _ _ w = _
  unfold EStateM.bind
  rw [happroach]

/-! ### What is lit -/

/-- A property of which connectors of which dock are lit. -/
def lights (P : Dock → ℕ → (Connector → Bool) → Prop) (w : World) : Prop :=
  P w.dock w.connectors.val w.modeActive

section Lights

variable {P : Dock → ℕ → (Connector → Bool) → Prop}

theorem lights_stable : Stable (lights P) (fun _ => True) where
  tick _ hw := hw
  weaken _ _ := trivial
  cursor _ _ hw := hw
  receive := keeps_receiveOptional (fun _ hw => hw) fun _ _ => trivial
  transmit _ _ _ := triple_transmit (fun _ hw _ => hw.1) fun _ _ _ _ => trivial

theorem lights_flows (head : UInt8) (i : Connector) : Flows head i (lights P) (fun _ => True) where
  toWire := lights_stable.toWire
  submit _ := keeps_submitVideo (fun _ hw => hw) (fun _ _ => trivial) fun _ _ hw => hw
  plain _ := keeps_sendPlainVideo (fun _ hw => hw) (fun _ _ => trivial) fun _ _ hw => hw
  sealed _ _ _ hw := hw
  restated _ hw := hw
  frameSeq _ _ hw := hw

theorem lights_sendControl (id : UInt16) (content : List UInt8) :
    Keeps (lights P) (fun _ => True) (sendControl id content) :=
  Triple.bind (triple_transmit (fun _ hw _ => hw) fun _ _ _ _ => trivial) fun _ =>
    lights_stable.receive

/-- The approach lights nothing. -/
theorem lights_approachMode (head : UInt8) (i : Connector) (width height refreshHz : UInt16) :
    Keeps (lights P) (fun _ => True) (approachMode head i width height refreshHz) := by
  have h : Flows head i (lights P) (fun _ => True) := lights_flows head i
  refine Keeps.get.bind fun w => (keeps_built (fun _ _ => trivial) _ _).bind fun prompt => ?_
  refine (h.sealing _).bind fun opening => h.ask.bind fun a => ?_
  refine (keeps_built (fun _ _ => trivial) _ _).bind fun mode => ?_
  refine (h.sendMarker _ _ _).bind fun _ => (h.sendPreMode head).bind fun _ => ?_
  exact h.pollStatus.bind fun _ => (h.sendClearMode head).bind fun _ => Keeps.pure _

theorem SetsModeFrom.lights {w w' : World} {r : Request} (h : SetsModeFrom w r w')
    (hw : lights P w) : lights P w' := by
  obtain ⟨-, -, -, i, prepared, -, happroach⟩ := h
  exact Triple.ok (lights_approachMode _ i _ _ _) hw happroach

theorem lights_programMode {Q : Dock → ℕ → (Connector → Bool) → Prop} (r : Request)
    (hlit : ∀ d n a i, connector? r.head = some i → P d n a → Q d n (Function.update a i true)) :
    Triple (lights P) (programMode r.head r.width r.height r.refreshHz) (fun _ => lights Q)
      (fun _ => True) := by
  refine (triple_programMode (J := lights Q) (fun _ _ => trivial) fun i hi _ _ _ => ?_).mono
    (fun _ h => h) (fun _ _ h => h.2) fun _ h => h
  have h : Flows r.head i (lights P) (fun _ => True) := lights_flows r.head i
  exact h.programConnector h (fun _ _ => trivial) (lights_sendControl 0x48) (fun _ hw => hw)
    (fun w _ hw => hlit _ _ _ i hi hw) (lights_stable.rearmCursor r.head) _

/-- A mode on a head without an endpoint is not programmed to the end. -/
theorem programMode_disconnected (r : Request) :
    Triple (lights fun _ n _ => n ≤ r.head.toNat)
      (programMode r.head r.width r.height r.refreshHz) (fun _ _ => False) (fun _ => True) := by
  refine (triple_programMode (J := fun _ => False) (fun _ _ => trivial) fun i hi _ _ _ => ?_).mono
    (fun _ h => h) (fun _ _ h => h.2) fun _ h => h
  have h : Flows r.head i (lights fun _ n _ => n ≤ r.head.toNat) (fun _ => True) :=
    lights_flows r.head i
  rw [programConnector_eq]
  refine Triple.bind (lights_approachMode _ i _ _ _) fun prepared => ?_
  refine Triple.bind (lights_sendControl 0x48 _) fun _ => Triple.bind h.pollStatus fun _ => ?_
  refine Triple.bind (h.trainBracket (h.checkPace fun _ _ => trivial) r.head i
    (h.sendStreamPrologue _ _)) fun _ => ?_
  refine Triple.bind (Q := fun _ => lights fun _ n _ => n ≤ r.head.toNat)
    (Triple.modify fun _ hw => hw) fun _ => ?_
  refine Triple.bind (Q := fun _ => lights fun _ n _ => n ≤ r.head.toNat)
    (Triple.get fun _ hw => hw) fun w => ?_
  refine Triple.bind (Q := fun _ _ => False) ?_ fun _ _ hfalse => hfalse.elim
  refine Triple.bind (Q := fun error _ => error = some .disconnected)
    (Triple.bind (Q := fun w _ => w.connectors.val ≤ r.head.toNat) (Triple.get fun _ hw => hw)
      fun w => ?_) fun error => ?_
  · intro w' hn
    rw [if_pos hn]
    rfl
  · rintro w' rfl
    trivial

end Lights

/-- **A set-mode message is sent for a supported mode.** -/
theorem SetsModeFrom.supported {w w' : World} {r : Request} (h : SetsModeFrom w r w') :
    r.Supported := by
  obtain ⟨hwidth, hheight, hrefresh, i, prepared, hi, happroach⟩ := h
  refine ⟨hwidth, hheight, hrefresh, by simp [hi], ?_⟩
  by_contra hunknown
  have hrefused : Triple (fun _ => True) (approachMode r.head i (UInt16.ofNat r.width)
      (UInt16.ofNat r.height) (UInt16.ofNat r.refreshHz)) (fun _ _ => False) (fun _ => True) := by
    refine Triple.bind (Q := fun _ _ => True) (Triple.get fun _ hw => hw) fun w => ?_
    refine Triple.bind (keeps_built (fun _ hw => hw) _ _) fun prompt => ?_
    refine Triple.bind (triple_sealing (fun _ hw => hw) fun _ _ _ hw => hw) fun opening =>
      Triple.given fun _ => ?_
    refine Triple.bind (Q := fun _ _ => True) (triple_ask fun _ hw => hw) fun a => ?_
    refine Triple.bind (Q := fun _ _ => False) ?_ fun _ _ hfalse => hfalse.elim
    rw [setModeProfile, Option.not_isSome_iff_eq_none.1 hunknown]
    exact Triple.throw fun _ hw => hw
  exact hrefused.ok trivial happroach

/-! ### A batch -/

/-- Taking the lit connectors down one after another leaves the whole dock dark. -/
theorem darken_all (n : ℕ) : Triple (lights fun _ m _ => m = n)
    ((List.finRange maxConnectors).forM darken)
    (fun _ => lights fun _ m a => m = n ∧ ∀ j, a j = false) (fun _ => True) := by
  have hdarken : ∀ (done : List Connector) i, i ∈ List.finRange maxConnectors →
      Triple (lights fun _ m a => m = n ∧ ∀ j ∈ done, a j = false) (darken i)
        (fun _ => lights fun _ m a => m = n ∧ ∀ j ∈ done ++ [i], a j = false) (fun _ => True) := by
    intro done i _
    refine Triple.bind (Q := fun w w' => w' = w ∧ lights (fun _ m a => m = n ∧
      ∀ j ∈ done, a j = false) w) (Triple.get fun w hw => ⟨rfl, hw⟩) fun w => ?_
    split_ifs with hactive
    · refine lights_stable.toWire.deactivateMode (fun _ _ => trivial) ?_ (fun frames =>
        keeps_submitVideo (fun _ hw => hw) (fun _ _ => trivial) fun _ _ hw => hw) _ _
      rintro w' ⟨rfl, hn, hdark⟩
      rw [World.darkened, connector?_headOf]
      refine ⟨hn, fun j hj => ?_⟩
      by_cases hji : j = i
      · subst hji
        exact Function.update_self ..
      · have hsame : Function.update w'.modeActive i false j = w'.modeActive j :=
          Function.update_of_ne hji _ _
        exact hsame.trans (hdark j (by simpa [hji] using hj))
    · refine Triple.pure ?_
      rintro w' ⟨rfl, hn, hdark⟩
      refine ⟨hn, fun j hj => ?_⟩
      rcases List.mem_append.1 hj with hj | hj
      · exact hdark j hj
      · rw [List.mem_singleton.1 hj]
        exact Bool.not_eq_true _ ▸ hactive
  refine (Triple.forM _ [] hdarken).mono (fun w hw => ⟨hw, by simp⟩) (fun _ w hw => ?_) fun _ h => h
  exact ⟨hw.1, fun j => hw.2 j (by simp)⟩

/-- Whatever is lit behind a batch was programmed by it, on a head that has an endpoint. -/
theorem activateModes_lights (n : ℕ) (rs : List Request) :
    Triple (lights fun _ m _ => m = n) (activateModes rs)
      (fun _ => lights fun _ m a => m = n ∧ (∀ p ∈ rs, p.Supported ∧ p.head.toNat < n) ∧
        ∀ j, a j = true → ∃ p ∈ rs, connector? p.head = some j) (fun _ => True) := by
  refine Triple.bind (darken_all n) fun _ => ?_
  have hprogram : ∀ (done : List Request) r, r ∈ rs →
      Triple (lights fun _ m a => m = n ∧ (∀ p ∈ done, p.Supported ∧ p.head.toNat < n) ∧
          ∀ j, a j = true → ∃ p ∈ done, connector? p.head = some j)
        (do let _ ← programMode r.head r.width r.height r.refreshHz)
        (fun _ => lights fun _ m a => m = n ∧
          (∀ p ∈ done ++ [r], p.Supported ∧ p.head.toNat < n) ∧
          ∀ j, a j = true → ∃ p ∈ done ++ [r], connector? p.head = some j) (fun _ => True) := by
    intro done r _
    by_cases hr : r.Supported
    · by_cases hn : r.head.toNat < n
      · refine Triple.bind (lights_programMode r ?_) fun _ => Triple.pure fun _ hw => hw
        rintro d m a i hi ⟨hm, hdone, hlit⟩
        refine ⟨hm, ?_, fun j hj => ?_⟩
        · intro p hp
          rcases List.mem_append.1 hp with hp | hp
          · exact hdone p hp
          · rw [List.mem_singleton.1 hp]
            exact ⟨hr, hn⟩
        · by_cases hji : j = i
          · exact ⟨r, by simp, hji ▸ hi⟩
          · rw [Function.update_of_ne hji] at hj
            obtain ⟨p, hp, hpj⟩ := hlit j hj
            exact ⟨p, by simp [hp], hpj⟩
      · refine Triple.bind ((programMode_disconnected r).mono (fun w hw => ?_)
          (fun _ _ h => h) fun _ h => h) fun _ _ hfalse => hfalse.elim
        have hm : w.connectors.val = n := hw.1
        show w.connectors.val ≤ r.head.toNat
        omega
    · refine Triple.bind ((programMode_refused (I := fun _ => True) (fun _ h => h)
        (fun _ _ _ _ _ h => h) (fun _ h => h) hr).mono (fun _ _ => trivial) (fun _ _ h => h)
        fun _ h => h) fun _ _ hfalse => hfalse.elim
  refine (Triple.forM rs [] hprogram).mono (fun w hw => ⟨hw.1, by simp, fun j hj => ?_⟩)
    (fun _ _ h => h) fun _ h => h
  rw [hw.2 j] at hj
  cases hj

/-! ### Runs -/

/-- The requests that are programmed together name one connector: the head of a request that is not
refused is that of all requests before it, unless one of those is refused or has no endpoint. -/
def OneConnector (n : ℕ) (rs : List Request) : Prop :=
  ∀ before r after, rs = before ++ r :: after → r.Supported →
    (∀ p ∈ before, p.Supported ∧ p.head.toNat < n) → ∀ p ∈ before, p.head = r.head

/-- Every batch names one connector. -/
def Call.OneConnector (n : ℕ) (call : Call) : Prop :=
  ∀ rs, call = .activateModes rs → Session.OneConnector n rs

theorem setsMode_dark {w w' : World} {call : Call} {r : Request}
    (hdock : w.dock.dockWideModeset = true) (hcall : call.OneConnector w.connectors.val)
    (h : SetsMode call w r w') (j : Connector) (hj : w'.modeActive j = true) :
    connector? r.head = some j := by
  unfold SetsMode at h
  split at h
  · obtain ⟨hr, hdeclined, hfrom⟩ := h
    have hsame : w'.modeActive = w.modeActive :=
      hfrom.lights (P := fun _ _ a => a = w.modeActive) rfl
    rw [hsame] at hj
    refine connector?_eq ?_
    by_contra hne
    have hany : declined w r.head = true := by
      unfold declined
      rw [hdock, Bool.true_and, List.any_eq_true]
      exact ⟨j, List.mem_finRange j, by simp [hj, hne]⟩
    rw [hdeclined] at hany
    cases hany
  · obtain ⟨before, after, w₁, rfl, hbefore, hfrom⟩ := h
    obtain ⟨-, hprogrammed, hlit⟩ := (activateModes_lights w.connectors.val before).ok rfl hbefore
    have hsame : w'.modeActive = w₁.modeActive :=
      hfrom.lights (P := fun _ _ a => a = w₁.modeActive) rfl
    rw [hsame] at hj
    obtain ⟨p, hp, hpj⟩ := hlit j hj
    rwa [← hcall _ rfl before r after rfl hfrom.supported hprogrammed p hp]
  · exact h.elim

theorem dock_steady (d : Dock) : Steady (fun w => w.dock = d) (fun w => w.dock = d) where
  tick _ hw := hw
  weaken _ hw := hw
  cursor _ _ hw := hw
  receive := keeps_receiveOptional (fun _ hw => hw) fun _ hw => hw
  transmit _ _ _ := triple_transmit (fun _ hw _ => hw.1) fun _ _ hw _ => hw.1
  same _ _ h hw := h.dock.trans hw

/-- No call changes the dock. -/
theorem dock_step (c : Crypto) (d : Dock) (w : World) (e : Event) (hw : w.dock = d) :
    (step c w e).dock = d := by
  have hmode : ∀ content, Keeps (fun w : World => w.dock = d) (fun w => w.dock = d)
      (sendControl 0x48 content) := fun content =>
    Triple.bind (triple_transmit (fun _ hw _ => hw) fun _ _ hw _ => hw) fun _ =>
      (dock_steady d).receive
  exact ((dock_steady d).perform hmode c e.call).final (fun _ h => h) (s := w.facing e.answers) hw

/-- **A dock that reconfigures itself whole is programmed from dark**, in every run whose batches
name one connector each: whenever a set-mode message is sent, no other connector is lit. -/
theorem modeset_from_dark (c : Crypto) (s : ControlSession)
    (hdock : s.dock.dockWideModeset = true) (es : List Event)
    (hes : Along (fun w e => e.call.OneConnector w.connectors.val) (step c) (start s) es)
    (before : List Event) (e : Event) (after : List Event) (hsplit : es = before ++ e :: after)
    (r : Request) (w' : World)
    (hsets : SetsMode e.call ((run (step c) (start s) before).facing e.answers) r w')
    (j : Connector) (hj : w'.modeActive j = true) : connector? r.head = some j := by
  subst hsplit
  have hbefore : (run (step c) (start s) before).dock = s.dock :=
    run_invariant (C := fun _ _ => True) (P := fun w => w.dock = s.dock)
      (fun w e hw _ => dock_step c s.dock w e hw) before _ rfl
      (along_of_forall (D := fun _ => True) _ _ fun _ _ => trivial)
  refine setsMode_dark ?_ ?_ hsets j hj
  · show (run (step c) (start s) before).dock.dockWideModeset = true
    rw [hbefore, hdock]
  · exact ((along_append before _ _).1 hes).2.1

/-! ### Batches in quiet surroundings -/

theorem setsModeFrom_quiet {d : Dock} {n : ℕ} (hd : d.Known) {r : Request} (hr : r.Supported)
    (hhead : r.head.toNat < n) {w : World} (hw : Quiet d n w) : ∃ w', SetsModeFrom w r w' := by
  obtain ⟨i, hi⟩ := Option.isSome_iff_exists.1 hr.2.2.2.1
  have hrun := quiet_approachMode hd hr hhead i w hw
  cases happroach : approachMode r.head i (UInt16.ofNat r.width) (UInt16.ofNat r.height)
      (UInt16.ofNat r.refreshHz) w with
  | ok prepared w' => exact ⟨w', hr.1, hr.2.1, hr.2.2.1, i, prepared, hi, happroach⟩
  | error e w' =>
      rw [happroach] at hrun
      exact hrun.elim

/-- A dark dock has nothing to take down. -/
theorem darken_dark {w : World} (hdark : ∀ i, w.modeActive i = false) (l : List Connector) :
    l.forM darken w = .ok () w := by
  induction l with
  | nil => rfl
  | cons i l ih =>
      have hnone : darken i w = .ok () w := by
        show (if w.modeActive i then _ else _ : SessionM Unit) w = .ok () w
        rw [if_neg (by simp [hdark i])]
        rfl
      show EStateM.bind (darken i) (fun _ => l.forM darken) w = .ok () w
      unfold EStateM.bind
      rw [hnone]
      exact ih

theorem activateModes_dark {w : World} (hdark : ∀ i, w.modeActive i = false) (rs : List Request) :
    activateModes rs w = (rs.forM fun r => do
      let _ ← programMode r.head r.width r.height r.refreshHz) w := by
  show EStateM.bind ((List.finRange maxConnectors).forM darken) _ w = _
  unfold EStateM.bind
  rw [darken_dark hdark]

/-- The first request of a batch is lit when the second one is programmed. -/
theorem activateModes_lit {d : Dock} {n : ℕ} (hd : d.Known) {r : Request} (hr : r.Supported)
    (hhead : r.head.toNat < n) {w : World} (hw : Quiet d n w)
    (hdark : ∀ i, w.modeActive i = false) :
    ∃ w₁, activateModes [r] w = .ok () w₁ ∧ Quiet d n w₁ ∧
      ∀ i, connector? r.head = some i → w₁.modeActive i = true := by
  have hlit := (programMode_quiet hd hr hhead).and (lights_programMode (P := fun _ _ _ => True)
    (Q := fun _ _ a => ∀ i, connector? r.head = some i → a i = true) r fun _ _ a i hi _ j hj => by
      rw [Option.some.inj (hi.symm.trans hj)]
      exact Function.update_self ..)
  have hrun := hlit w ⟨hw, trivial⟩
  have hbatch : activateModes [r] w = (do
      let _ ← programMode r.head r.width r.height r.refreshHz) w := by
    rw [activateModes_dark hdark]
    simp
  rw [hbatch]
  show ∃ w₁, EStateM.bind (programMode r.head r.width r.height r.refreshHz) _ w = _ ∧ _
  unfold EStateM.bind
  cases hprogram : programMode r.head r.width r.height r.refreshHz w with
  | ok lit w₁ =>
      rw [hprogram] at hrun
      exact ⟨w₁, rfl, hrun.1.2, hrun.2⟩
  | error e w₁ =>
      rw [hprogram] at hrun
      exact hrun.1.elim

/-- A dock that reconfigures itself whole. -/
def navarro : Dock := ⟨profileNavarro, false, false⟩

theorem known_navarro : navarro.Known := ⟨.inr (.inr rfl), nofun⟩

/-- A dark session on that dock. -/
def navarroStart : World := (start (freshSession navarro 2)).facing calmAnswers

theorem quiet_navarroStart : Quiet navarro 2 navarroStart :=
  ⟨fun t => calm_calmAnswers t, rfl, rfl, fun _ => rfl⟩

/-- Full HD on a head. -/
def fullHd (head : UInt8) : Request := ⟨head, 1920, 1080, 60⟩

/-- In quiet surroundings a dock that keeps its bracket open takes a sink down. -/
theorem quiet_darken {d : Dock} {n : ℕ} (hblank : d.blankHoldsBracket = true) (hn : 0 < n)
    (i : Connector) : Keeps (Quiet d n) (fun _ => False) (darken i) := by
  have hwire : Wire (Quiet d n) (fun _ => False) :=
    (quiet_flows (show (0 : UInt8).toNat < n from hn) i).toWire
  refine Keeps.get.bind fun w => ?_
  split_ifs
  · refine Triple.bind (Q := fun _ => Quiet d n) (Triple.modify fun w hw => ?_) fun _ => ?_
    · unfold World.darkened
      split
      · exact hw
      · exact hw.same rfl rfl rfl rfl
    · refine Triple.bind (Q := fun w w' => w.dock = d ∧ Quiet d n w')
        (Triple.get fun w hw => ⟨hw.dock, hw⟩) fun w => Triple.given fun hdock => ?_
      rw [hdock, hblank]
      exact (hwire.sendMarker _ _ _).bind fun _ => hwire.sendMarker _ _ _
  · exact Keeps.pure _

/-- A batch of none takes everything down. -/
theorem activateModes_quiet {d : Dock} {n : ℕ} (hblank : d.blankHoldsBracket = true) (hn : 0 < n)
    {w : World} (hw : Quiet d n w) :
    ∃ w₁, activateModes [] w = .ok () w₁ ∧ Quiet d n w₁ := by
  have hrun : Keeps (Quiet d n) (fun _ => False) (activateModes []) :=
    Keeps.bind (Keeps.forM _ fun i _ => quiet_darken hblank hn i) fun _ => Keeps.pure _
  have hquiet := hrun w hw
  cases hbatch : activateModes [] w with
  | ok _ w₁ =>
      rw [hbatch] at hquiet
      exact ⟨w₁, rfl, hquiet⟩
  | error e w₁ =>
      rw [hbatch] at hquiet
      exact hquiet.elim

/-- A batch of one full HD head. -/
def lights1080 (head : UInt8) : Event := ⟨.activateModes [fullHd head], calmAnswers⟩

theorem oneConnector_single (n : ℕ) (r : Request) :
    (Call.activateModes [r]).OneConnector n := by
  intro rs hrs before r' after hsplit _ _ p hp
  rw [← Call.activateModes.inj hrs] at hsplit
  have hlength := congrArg List.length hsplit
  have hpos := List.length_pos_of_mem hp
  simp only [List.length_cons, List.length_nil, List.length_append] at hlength
  omega

theorem modeset_from_dark_oneThenTheOther :
    ∃ w w', w = step plainCrypto (start (freshSession navarro 2)) (lights1080 0) ∧
      w.modeActive ⟨0, by decide⟩ = true ∧
      SetsMode (.activateModes [fullHd 1]) (w.facing calmAnswers) (fullHd 1) w' ∧
      ∀ j, w'.modeActive j = true → connector? 1 = some j := by
  obtain ⟨w₁, hbatch, hquiet, hlit⟩ := activateModes_lit known_navarro (r := fullHd 0) (by decide)
    (by decide) quiet_navarroStart fun _ => rfl
  have hstep : step plainCrypto (start (freshSession navarro 2)) (lights1080 0) = w₁ := by
    have hfinal : final (activateModes [fullHd 0]) navarroStart = w₁ := by rw [final, hbatch]
    exact hfinal
  have hface : Quiet navarro 2 (w₁.facing calmAnswers) :=
    ⟨calm_calmAnswers, hquiet.dock, hquiet.connectors, hquiet.cursor⟩
  obtain ⟨w₂, hdark, hquiet'⟩ := activateModes_quiet (by decide) (by decide) hface
  obtain ⟨w', hfrom⟩ := setsModeFrom_quiet known_navarro (r := fullHd 1) (by decide) (by decide)
    hquiet'
  have hsets : SetsMode (.activateModes [fullHd 1]) (w₁.facing calmAnswers) (fullHd 1) w' :=
    ⟨[], [], w₂, rfl, hdark, hfrom⟩
  refine ⟨w₁, w', hstep.symm, hlit _ rfl, hsets, fun j hj => ?_⟩
  refine modeset_from_dark plainCrypto (freshSession navarro 2) rfl [lights1080 0, lights1080 1]
    ⟨oneConnector_single _ _, oneConnector_single _ _, trivial⟩ [lights1080 0] (lights1080 1) [] rfl
    (fullHd 1) w' ?_ j hj
  rw [run, List.foldl_cons, List.foldl_nil, hstep]
  exact hsets

/-- **A batch of two connectors programs the second while the first is lit.** -/
theorem batch_programs_beside_lit :
    navarro.dockWideModeset = true ∧
      ∃ w', SetsMode (.activateModes [fullHd 0, fullHd 1]) navarroStart (fullHd 1) w' ∧
        connector? 1 = some ⟨1, by decide⟩ ∧ w'.modeActive ⟨0, by decide⟩ = true := by
  obtain ⟨w₁, hbatch, hquiet, hlit⟩ := activateModes_lit known_navarro (r := fullHd 0) (by decide)
    (by decide) quiet_navarroStart fun _ => rfl
  obtain ⟨w', hfrom⟩ := setsModeFrom_quiet known_navarro (r := fullHd 1) (by decide) (by decide)
    hquiet
  refine ⟨rfl, w', ⟨[fullHd 0], [], w₁, rfl, hbatch, hfrom⟩, rfl, ?_⟩
  exact hfrom.lights (P := fun _ _ a => a ⟨0, by decide⟩ = true) (hlit _ rfl)

end Vino.Session
