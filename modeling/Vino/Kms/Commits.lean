import Vino.Kms.Budget

/-!
# Commits under Way

A commit is checked CRTC by CRTC and, if every check passes, applied step by step: the new states
are swapped in, the CRTCs that change are turned off, and those that are to be on are turned on
again, each after the depth of its link has been decided.  A check and a decision read the other
connectors one at a time.  In between, monitors come and go, framebuffers of another depth are
shown, and the command worker gives sockets that nothing was asked of the mode of a sibling, which
it looks up and stores in steps of its own.

* `within_budget`: in every run the dock is driven within its budget, if every monitor that comes
  finds room for the mode of its socket, beside what is driven and beside what a commit under way
  will leave,
* `ten_bit_within_budget`: and within three quarters of it while a connector is driven at ten bits,
  if a monitor that comes during a commit finds room at that depth, and a ten-bit framebuffer is
  shown only where ten bits fit.
-/

namespace Vino.Kms.Commits

open Vino.Kms.Budget Vino.Lib.Run

variable {n : ℕ}

/-! ### Commits and joins -/

/-- The CRTCs of a commit that are turned off, and those that are turned on. -/
def disables (commit : Commit n) (d : Dock n) : List (Fin n) :=
  (List.finRange n).filter fun c =>
    match commit c with
    | some new => new.needsModeset (d c).crtc && (d c).crtc.active
    | none => false

def enables (commit : Commit n) (d : Dock n) : List (Fin n) :=
  (List.finRange n).filter fun c =>
    match commit c with
    | some new => new.needsModeset (d c).crtc && new.state.active
    | none => false

/-- A commit under way. -/
structure Flight (n : ℕ) where
  commit : Commit n
  /-- What has been read of each connector, for the checks and for the depths. -/
  seen : Dock n
  /-- The CRTCs that are still to be checked. -/
  unchecked : List (Fin n)
  swapped : Bool
  /-- The CRTCs that are still to be turned off, and those that are still to be turned on. -/
  down : List (Fin n)
  up : List (Fin n)
  /-- Whether the depth is decided of the first CRTC that is to be turned on. -/
  decided : Bool

/-- A socket that the command worker has found without a request, on its way to the mode of its
sibling. -/
structure Joining (n : ℕ) where
  connector : Fin n
  timing : Timing
  /-- Whether the timing is stored, and only the request is not. -/
  stored : Bool

structure State (n : ℕ) where
  dock : Dock n
  flights : List (Flight n)
  joining : Option (Joining n)

def State.start : State n := ⟨Budget.start, [], none⟩

/-- The check of a commit begins. -/
def Flight.start (commit : Commit n) (d : Dock n) : Flight n where
  commit := commit
  seen := d
  unchecked := (List.finRange n).filter fun c => (commit c).isSome
  swapped := false
  down := disables commit d
  up := enables commit d
  decided := false

/-- The next check; a commit that fails it is given up. -/
def Flight.check (l : Limits) (f : Flight n) : Option (Flight n) :=
  match f.unchecked with
  | [] => some f
  | c :: unchecked =>
      match f.commit c with
      | some new =>
          if atomicCheck l f.commit f.seen c new = .ok () then
            some { f with unchecked := unchecked }
          else none
      | none => some { f with unchecked := unchecked }

/-- The new CRTC states are swapped in. -/
def swapState (commit : Commit n) (d : Dock n) : Dock n := fun c =>
  match commit c with
  | some new => { d c with crtc := new.state }
  | none => d c

def atomicDisable (d : Dock n) (connector : Fin n) : Dock n :=
  Function.update d connector (d connector).disable

/-- The first half of `atomic_enable`: the depth of the link is decided, beside what was read. -/
def atomicRequest (l : Limits) (f : Flight n) (d : Dock n) (connector : Fin n) : Dock n :=
  match f.commit connector with
  | some new => Function.update d connector
      ((d connector).request l (otherConnectorsRate f.commit f.seen connector) new)
  | none => d

/-- The second half of `atomic_enable`: the timing is published. -/
def atomicPublish (l : Limits) (commit : Commit n) (d : Dock n) (connector : Fin n) : Dock n :=
  match commit connector with
  | some new => Function.update d connector ((d connector).publish l new)
  | none => d

/-- The next step of a commit that has passed its checks; CRTCs are turned off before any is turned
on. -/
def Flight.apply (l : Limits) (d : Dock n) (f : Flight n) : Dock n × Option (Flight n) :=
  if f.unchecked ≠ [] then (d, some f)
  else if f.swapped = false then (swapState f.commit d, some { f with swapped := true })
  else
    match f.down, f.up with
    | c :: down, _ => (atomicDisable d c, some { f with down := down })
    | [], c :: up =>
        if f.decided = false then (atomicRequest l f d c, some { f with decided := true })
        else (atomicPublish l f.commit d c, some { f with up := up, decided := false })
    | [], [] => (d, none)

/-- What happens to a dock. -/
inductive Event (n : ℕ) where
  /-- The check of a commit begins. -/
  | begin (commit : Commit n)
  /-- A connector is read for the checks and the depths of a commit. -/
  | look (flight : ℕ) (connector : Fin n)
  | check (flight : ℕ)
  /-- A commit is not applied, because it was only a test or because another check has failed. -/
  | drop (flight : ℕ)
  | apply (flight : ℕ)
  /-- A framebuffer is snapshot for scanout, and its depth recorded. -/
  | framebuffer (connector : Fin n) (tenBit : Bool)
  | setConnected (connector : Fin n)
  | setDisconnected (connector : Fin n)
  /-- The worker takes one mode set on a dock that comes up as a whole, and looks at another socket;
  `idle` if that is not lit and has no mode set of its own in the batch. -/
  | join (connector : Fin n) (timing : Timing) (idle : Bool)
  | joinStore

def setConnectorDepth (d : Dock n) (connector : Fin n) (tenBit : Bool) : Dock n :=
  Function.update d connector { d connector with tenBit := tenBit }

def setPresent (d : Dock n) (connector : Fin n) (on : Bool) : Dock n :=
  Function.update d connector { d connector with present := on }

/-- A step of one of the commits under way. -/
def State.onFlight (s : State n) (k : ℕ) (g : Flight n → Dock n × Option (Flight n)) : State n :=
  match s.flights[k]? with
  | some f =>
      { s with
        dock := (g f).1
        flights := match (g f).2 with
          | some f' => s.flights.set k f'
          | none => s.flights.eraseIdx k }
  | none => s

/-- A socket that nothing is asked of is to join at its sibling's mode. -/
def State.join (l : Limits) (s : State n) (connector : Fin n) (timing : Timing) (idle : Bool) :
    State n :=
  if l.videoOnCtrlPipe && idle && !(s.dock connector).requested && s.joining.isNone then
    { s with joining := some ⟨connector, timing, false⟩ }
  else s

/-- The timing is stored, and then the request. -/
def State.joinStore (s : State n) : State n :=
  match s.joining with
  | some j =>
      if j.stored = false then
        { s with
          dock := Function.update s.dock j.connector
            { s.dock j.connector with lastTiming := some j.timing }
          joining := some { j with stored := true } }
      else
        { s with
          dock := Function.update s.dock j.connector
            { s.dock j.connector with requested := true }
          joining := none }
  | none => s

def step (l : Limits) (s : State n) : Event n → State n
  | .begin commit => { s with flights := s.flights ++ [Flight.start commit s.dock] }
  | .look k c => s.onFlight k fun f =>
      (s.dock, some { f with seen := Function.update f.seen c (s.dock c) })
  | .check k => s.onFlight k fun f => (s.dock, f.check l)
  | .drop k => s.onFlight k fun f => (s.dock, if f.swapped = false then none else some f)
  | .apply k => s.onFlight k (Flight.apply l s.dock)
  | .framebuffer c tenBit => { s with dock := setConnectorDepth s.dock c tenBit }
  | .setConnected c => { s with dock := setPresent s.dock c true }
  | .setDisconnected c => { s with dock := setPresent s.dock c false }
  | .join c timing idle => s.join l c timing idle
  | .joinStore => s.joinStore

/-! ### What a dock carries -/

/-- The rate of the mode that is driven onto a socket. -/
def drives (x : Connector) : ℕ :=
  if x.lit then
    match x.lastTiming with
    | some t => t.rate
    | none => 0
  else 0

/-- What a connector makes the dock carry: the mode driven onto its socket, if there is a monitor. -/
def spent (x : Connector) : ℕ := if x.present then drives x else 0

def load (d : Dock n) : ℕ := ∑ c, spent (d c)

/-- The rate that a commit under way will leave on a socket. -/
def Flight.pledge (f : Flight n) (d : Dock n) (c : Fin n) : ℕ :=
  if c ∈ f.up then
    match f.commit c with
    | some new => new.state.rate
    | none => 0
  else if c ∈ f.down then 0
  else drives (d c)

/-- What the dock will carry behind the commit, as things stand. -/
def Flight.outcome (f : Flight n) (d : Dock n) : ℕ :=
  ∑ c, if (d c).present then f.pledge d c else 0

/-- Mode sets are committed one at a time, with refresh rates that can be stated in sixteen bits,
and the worker stores a mode on a socket that is still not asked for one. -/
def Orderly (s : State n) : Event n → Prop
  | .begin commit => s.flights = [] ∧ ∀ c, ∀ new ∈ commit c,
      new.state.active = true → new.state.mode.vrefresh < 65536
  | .joinStore => ∀ j ∈ s.joining, j.stored = false → (s.dock j.connector).requested = false
  | _ => True

/-- A monitor that comes finds room for the mode driven onto its socket beside what the dock
carries, and for the mode that a commit under way will leave there beside what that will leave. -/
def Room (l : Limits) (s : State n) : Event n → Prop
  | .setConnected c => (s.dock c).present = true ∨
      load s.dock + drives (s.dock c) ≤ l.dockPixelBudget ∧
      ∀ f ∈ s.flights, f.outcome s.dock + f.pledge s.dock c ≤ l.dockPixelBudget
  | _ => True

/-- No monitor comes during a commit. -/
def Calm (s : State n) : Event n → Prop
  | .setConnected _ => s.flights = []
  | _ => True

instance decidableOrderly (s : State n) (e : Event n) : Decidable (Orderly s e) := by
  unfold Orderly
  split
  · exact @instDecidableAnd _ _ (decidable_of_iff (s.flights.isEmpty = true) List.isEmpty_iff)
      inferInstance
  · infer_instance
  · infer_instance

instance decidableRoom (l : Limits) (s : State n) (e : Event n) : Decidable (Room l s e) := by
  unfold Room
  split <;> infer_instance

/-! ### Connectors at rest and under way -/

/-- A connector does what the state of a CRTC says. -/
structure Follows (x : Connector) (crtc : CrtcState) : Prop where
  lit : x.lit = crtc.active
  rate : drives x = crtc.rate
  supported : crtc.active = true → modeSupported crtc.mode = true

/-- No commit is under way: every connector does what its CRTC says. -/
def Sound (d : Dock n) : Prop := ∀ c, Follows (d c) (d c).crtc

/-- What is driven is asked for. -/
def Held (d : Dock n) : Prop := ∀ c, (d c).lit = true → (d c).requested = true

/-- The state of a CRTC behind a commit. -/
def Flight.target (f : Flight n) (d : Dock n) (c : Fin n) : CrtcState :=
  match f.commit c with
  | some new => new.state
  | none => (d c).crtc

/-- A CRTC that a commit will turn on, in a mode that is checked or still to be. -/
def Flight.Startable (f : Flight n) (c : Fin n) : Prop :=
  ∃ new, f.commit c = some new ∧ new.state.active = true ∧ new.state.mode.vrefresh < 65536 ∧
    (c ∈ f.unchecked ∨ modeSupported new.state.mode = true)

/-- A commit that has not been swapped in has found the connectors as they are. -/
structure Flight.Early (f : Flight n) (d : Dock n) : Prop where
  sound : Sound d
  crtc : ∀ c, (f.seen c).crtc = (d c).crtc
  timing : ∀ c, (d c).lit = true → (f.seen c).lastTiming = (d c).lastTiming

/-- A commit under way will leave every connector as its CRTC says. -/
structure Flight.Ready (f : Flight n) (d : Dock n) : Prop where
  nodup : f.up.Nodup
  startable : ∀ c ∈ f.up, f.Startable c
  dark : ∀ c ∈ f.up, c ∈ f.down ∨ (d c).lit = false
  off : ∀ c ∈ f.down, c ∉ f.up → (f.target d c).active = false
  kept : ∀ c, c ∉ f.up → c ∉ f.down → Follows (d c) (f.target d c)
  early : f.swapped = false → f.Early d
  swapped : f.swapped = true → f.unchecked = [] ∧ ∀ c, (d c).crtc = f.target d c

/-- A connector that a commit gives more than it has. -/
def Flight.Rises (f : Flight n) (d : Dock n) (c : Fin n) : Prop :=
  ∃ new, f.commit c = some new ∧ (d c).crtc.rate < new.state.rate

/-- What was read of the connectors that a commit does not carry still holds of those that are
driven. -/
def Fresh (commit : Commit n) (seen d : Dock n) : Prop :=
  ∀ c, commit c = none → (d c).lit = true → (d c).present = true →
    (seen c).requested = true ∧ (seen c).present = true ∧
      (seen c).lastTiming = (d c).lastTiming

/-- No rise has been checked yet, and what was read still holds. -/
structure Flight.Unpriced (f : Flight n) (d : Dock n) : Prop where
  early : f.swapped = false
  fresh : Fresh f.commit f.seen d
  rises : ∀ c, f.Rises d c → c ∈ f.unchecked

/-- Two docks that differ in nothing that is driven. -/
def Alike (d d' : Dock n) : Prop :=
  ∀ c, (d' c).crtc = (d c).crtc ∧ (d' c).lit = (d c).lit ∧
    ((d c).lit = true → (d' c).lastTiming = (d c).lastTiming)

section Alike

variable {d d' : Dock n} {f : Flight n}

/-- One connector is changed, in nothing that is driven. -/
theorem alike_update {c : Fin n} {y : Connector} (hcrtc : y.crtc = (d c).crtc)
    (hlit : y.lit = (d c).lit) (htiming : (d c).lit = true → y.lastTiming = (d c).lastTiming) :
    Alike d (Function.update d c y) := by
  intro i
  by_cases hi : i = c
  · subst hi
    rw [Function.update_self]
    exact ⟨hcrtc, hlit, htiming⟩
  · rw [Function.update_of_ne hi]
    exact ⟨rfl, rfl, fun _ => rfl⟩

theorem Alike.drives (h : Alike d d') (c : Fin n) : drives (d' c) = drives (d c) := by
  obtain ⟨-, hlit, htiming⟩ := h c
  unfold Commits.drives
  rw [hlit]
  split_ifs with hc
  · rw [htiming hc]
  · rfl

theorem Alike.follows (h : Alike d d') {c : Fin n} {crtc : CrtcState} (hf : Follows (d c) crtc) :
    Follows (d' c) crtc :=
  ⟨(h c).2.1.trans hf.lit, (h.drives c).trans hf.rate, hf.supported⟩

theorem Alike.sound (h : Alike d d') (hs : Sound d) : Sound d' := by
  intro c
  rw [(h c).1]
  exact h.follows (hs c)

theorem Alike.target (h : Alike d d') (c : Fin n) : f.target d' c = f.target d c := by
  unfold Flight.target
  rw [(h c).1]

theorem Alike.pledge (h : Alike d d') (c : Fin n) : f.pledge d' c = f.pledge d c := by
  unfold Flight.pledge
  rw [h.drives c]

theorem Alike.rises (h : Alike d d') (c : Fin n) : f.Rises d' c ↔ f.Rises d c := by
  unfold Flight.Rises
  rw [(h c).1]

theorem Alike.ready (h : Alike d d') (hf : f.Ready d) : f.Ready d' where
  nodup := hf.nodup
  startable := hf.startable
  dark c hc := by
    rw [(h c).2.1]
    exact hf.dark c hc
  off c hc hup := by
    rw [h.target c]
    exact hf.off c hc hup
  kept c hup hdown := by
    rw [h.target c]
    exact h.follows (hf.kept c hup hdown)
  early hearly :=
    { sound := h.sound (hf.early hearly).sound
      crtc := fun c => ((hf.early hearly).crtc c).trans (h c).1.symm
      timing := fun c hc => by
        rw [(h c).2.1] at hc
        rw [(hf.early hearly).timing c hc, (h c).2.2 hc] }
  swapped hswapped :=
    ⟨(hf.swapped hswapped).1, fun c => by
      rw [h.target c, (h c).1]
      exact (hf.swapped hswapped).2 c⟩

/-- No monitor comes, and the dock carries no more. -/
theorem Alike.load_le (h : Alike d d')
    (hpresent : ∀ c, (d' c).present = true → (d c).present = true) : load d' ≤ load d := by
  refine Finset.sum_le_sum fun c _ => ?_
  unfold spent
  rw [h.drives c]
  by_cases hc : (d' c).present = true
  · rw [if_pos hc, if_pos (hpresent c hc)]
  · rw [if_neg hc]
    exact Nat.zero_le _

theorem Alike.outcome_le (h : Alike d d')
    (hpresent : ∀ c, (d' c).present = true → (d c).present = true) :
    f.outcome d' ≤ f.outcome d := by
  refine Finset.sum_le_sum fun c _ => ?_
  rw [h.pledge c]
  by_cases hc : (d' c).present = true
  · rw [if_pos hc, if_pos (hpresent c hc)]
  · rw [if_neg hc]
    exact Nat.zero_le _

theorem Alike.fresh (h : Alike d d') {commit : Commit n} {seen : Dock n}
    (hpresent : ∀ c, (d' c).present = true → (d c).present = true)
    (hf : Fresh commit seen d) : Fresh commit seen d' := by
  intro c hnone hlit hc
  rw [(h c).2.1] at hlit
  rw [(h c).2.2 hlit]
  exact hf c hnone hlit (hpresent c hc)

theorem Alike.unpriced (h : Alike d d')
    (hpresent : ∀ c, (d' c).present = true → (d c).present = true) (hf : f.Unpriced d) :
    f.Unpriced d' :=
  ⟨hf.early, h.fresh hpresent hf.fresh, fun c hc => hf.rises c ((h.rises c).1 hc)⟩

end Alike

/-! ### What a check has established -/

section Outcome

variable {l : Limits} {commit : Commit n} {seen d : Dock n} {f : Flight n}

theorem drives_of_dark {x : Connector} (h : x.lit = false) : drives x = 0 := by simp [drives, h]

theorem rate_of_inactive {crtc : CrtcState} (h : crtc.active = false) : crtc.rate = 0 := by
  simp [CrtcState.rate, h]

/-- What is driven stays asked for where one connector is changed. -/
theorem Held.update (h : Held d) {c : Fin n} {y : Connector}
    (hy : y.lit = true → y.requested = true) : Held (Function.update d c y) := by
  intro i hi
  by_cases hic : i = c
  · subst hic
    rw [Function.update_self] at hi ⊢
    exact hy hi
  · rw [Function.update_of_ne hic] at hi ⊢
    exact h i hi

/-- No monitor comes where one connector is changed. -/
theorem present_update {c : Fin n} {y : Connector}
    (hy : y.present = true → (d c).present = true) (i : Fin n)
    (hi : (Function.update d c y i).present = true) : (d i).present = true := by
  by_cases hic : i = c
  · subst hic
    rw [Function.update_self] at hi
    exact hy hi
  · rwa [Function.update_of_ne hic] at hi

theorem fresh_self (h : Held d) (commit : Commit n) : Fresh commit d d :=
  fun c _ hlit hpresent => ⟨h c hlit, hpresent, rfl⟩

/-- **The charges cover the outcome**, as long as what was read holds. -/
theorem outcome_le_charges (hf : f.Ready d) (hfresh : Fresh f.commit seen d) :
    f.outcome d ≤ ∑ c, charge f.commit seen c := by
  refine Finset.sum_le_sum fun c _ => ?_
  split_ifs with hpresent
  · unfold Flight.pledge
    split_ifs with hup hdown
    · obtain ⟨new, hc, -⟩ := hf.startable c hup
      rw [hc, charge_of_some hc]
    · exact Nat.zero_le _
    · have hkept := (hf.kept c hup hdown).rate
      unfold Flight.target at hkept
      cases hc : f.commit c with
      | some new =>
        rw [hc] at hkept
        rw [charge_of_some hc, hkept]
      | none =>
        by_cases hlit : (d c).lit = true
        · obtain ⟨hrequested, hseen, htiming⟩ := hfresh c hc hlit hpresent
          unfold charge charged drives
          rw [hc, if_pos hlit]
          dsimp only
          rw [hrequested, hseen, htiming]
          cases (d c).lastTiming with
          | none => exact Nat.zero_le _
          | some t => exact Nat.le_refl _
        · rw [drives_of_dark (by simpa using hlit)]
          exact Nat.zero_le _
  · exact Nat.zero_le _

/-- A commit without a rise leaves no more than there is. -/
theorem outcome_le_load (hf : f.Ready d) (hearly : f.swapped = false)
    (hrises : ∀ c, ¬ f.Rises d c) : f.outcome d ≤ load d := by
  refine Finset.sum_le_sum fun c _ => ?_
  unfold spent
  split_ifs with hpresent
  · unfold Flight.pledge
    split_ifs with hup hdown
    · obtain ⟨new, hc, -⟩ := hf.startable c hup
      have hrise : ¬ (d c).crtc.rate < new.state.rate := fun h => hrises c ⟨new, hc, h⟩
      rw [hc, ((hf.early hearly).sound c).rate]
      exact Nat.le_of_not_lt hrise
    · exact Nat.zero_le _
    · exact Nat.le_refl _
  · exact Nat.le_refl _

/-- Once no CRTC is to be turned off any more, the outcome covers what is carried. -/
theorem load_le_outcome (hf : f.Ready d) (hdown : f.down = []) : load d ≤ f.outcome d := by
  refine Finset.sum_le_sum fun c _ => ?_
  unfold spent
  split_ifs with hpresent
  · unfold Flight.pledge
    rw [hdown]
    split_ifs with hup hnone
    · have hdark := (hf.dark c hup).resolve_left (by simp [hdown])
      rw [drives_of_dark hdark]
      exact Nat.zero_le _
    · exact absurd hnone List.not_mem_nil
    · exact Nat.le_refl _
  · exact Nat.le_refl _

/-- A rise that is checked bounds the outcome. -/
theorem outcome_le_of_check (hbudget : 0 < l.dockPixelBudget) (hmax : l.dockPixelBudget < u32Max)
    (hf : f.Ready d) (hopen : f.Unpriced d) {c : Fin n} {new : NewCrtc}
    (hc : f.commit c = some new) (hcheck : atomicCheck l f.commit f.seen c new = .ok ())
    (hrise : (d c).crtc.rate < new.state.rate) :
    f.outcome d ≤ budgetAtDepth l.dockPixelBudget (otherConnectorProgrammedTenBit f.seen c) := by
  refine (outcome_le_charges hf hopen.fresh).trans ?_
  refine atomicCheck_fits hbudget hmax hcheck hc ?_
  rw [(hf.early hopen.early).crtc c]
  exact hrise

end Outcome

/-! ### The steps of one commit -/

section Steps

variable {l : Limits} {commit : Commit n} {d d' : Dock n} {f f' : Flight n}

theorem mem_disables {c : Fin n} :
    c ∈ disables commit d ↔ ∃ new, commit c = some new ∧
      new.needsModeset (d c).crtc = true ∧ (d c).crtc.active = true := by
  cases hc : commit c with
  | none => simp [disables, hc]
  | some new => simp [disables, hc]

theorem mem_enables {c : Fin n} :
    c ∈ enables commit d ↔ ∃ new, commit c = some new ∧
      new.needsModeset (d c).crtc = true ∧ new.state.active = true := by
  cases hc : commit c with
  | none => simp [enables, hc]
  | some new => simp [enables, hc]

/-- A CRTC that needs no mode set keeps its state. -/
theorem state_of_not_needsModeset {new : NewCrtc} {old : CrtcState}
    (h : new.needsModeset old = false) : new.state = old := by
  obtain ⟨⟨active, mode⟩, _, _, _, _⟩ := new
  obtain ⟨active', mode'⟩ := old
  simp only [NewCrtc.needsModeset, NewCrtc.changed, Bool.or_eq_false_iff, bne_eq_false_iff_eq,
    decide_eq_false_iff_not, not_not] at h
  obtain ⟨⟨rfl, ⟨rfl, -⟩, -⟩, -⟩ := h
  rfl

/-- **A commit begins**: nothing is checked, and everything is as it was read. -/
theorem ready_start (hs : Sound d)
    (hstate : ∀ c, ∀ new ∈ commit c,
      new.state.active = true → new.state.mode.vrefresh < 65536) :
    (Flight.start commit d).Ready d where
  nodup := (List.nodup_finRange n).filter _
  startable c hc := by
    obtain ⟨new, hnew, -, hactive⟩ := mem_enables.1 hc
    exact ⟨new, hnew, hactive, hstate c new hnew hactive, .inl (by simp [Flight.start, hnew])⟩
  dark c hc := by
    obtain ⟨new, hnew, hmodeset, -⟩ := mem_enables.1 hc
    by_cases hactive : (d c).crtc.active = true
    · exact .inl (mem_disables.2 ⟨new, hnew, hmodeset, hactive⟩)
    · exact .inr ((hs c).lit.trans (by simpa using hactive))
  off c hc hup := by
    obtain ⟨new, hnew, hmodeset, -⟩ := mem_disables.1 hc
    have hoff : ¬ new.state.active = true := fun h => hup (mem_enables.2 ⟨new, hnew, hmodeset, h⟩)
    simpa [Flight.target, Flight.start, hnew] using hoff
  kept c hup hdown := by
    unfold Flight.target
    cases hnew : (Flight.start commit d).commit c with
    | none => exact hs c
    | some new =>
      dsimp only
      by_cases hmodeset : new.needsModeset (d c).crtc = true
      · have hoff : new.state.active = false := by
          simpa using fun h => hup (mem_enables.2 ⟨new, hnew, hmodeset, h⟩)
        have hwas : (d c).crtc.active = false := by
          simpa using fun h => hdown (mem_disables.2 ⟨new, hnew, hmodeset, h⟩)
        refine ⟨(hs c).lit.trans (hwas.trans hoff.symm), ?_, by simp [hoff]⟩
        rw [(hs c).rate, rate_of_inactive hwas, rate_of_inactive hoff]
      · rw [state_of_not_needsModeset (by simpa using hmodeset)]
        exact hs c
  early _ := ⟨hs, fun _ => rfl, fun _ _ => rfl⟩
  swapped h := by cases h

theorem unpriced_start (hheld : Held d) : (Flight.start commit d).Unpriced d where
  early := rfl
  fresh := fresh_self hheld commit
  rises c hc := by
    obtain ⟨new, hnew, -⟩ := hc
    have hcommit : commit c = some new := hnew
    simp [Flight.start, hcommit]

/-- What is read of a connector. -/
theorem ready_look (hf : f.Ready d) (c : Fin n) :
    Flight.Ready { f with seen := Function.update f.seen c (d c) } d where
  nodup := hf.nodup
  startable := hf.startable
  dark := hf.dark
  off := hf.off
  kept := hf.kept
  early h :=
    { sound := (hf.early h).sound
      crtc := fun i => by
        by_cases hi : i = c
        · subst hi
          exact congrArg Connector.crtc (Function.update_self ..)
        · exact (congrArg Connector.crtc (Function.update_of_ne hi ..)).trans ((hf.early h).crtc i)
      timing := fun i hlit => by
        by_cases hi : i = c
        · subst hi
          exact congrArg Connector.lastTiming (Function.update_self ..)
        · exact (congrArg Connector.lastTiming (Function.update_of_ne hi ..)).trans
            ((hf.early h).timing i hlit) }
  swapped := hf.swapped

theorem fresh_look {seen : Dock n} (hheld : Held d) (h : Fresh commit seen d) (c : Fin n) :
    Fresh commit (Function.update seen c (d c)) d := by
  intro i hi hlit hpresent
  by_cases hic : i = c
  · subst hic
    rw [Function.update_self]
    exact ⟨hheld i hlit, hpresent, rfl⟩
  · rw [Function.update_of_ne hic]
    exact h i hi hlit hpresent

/-- What a check does: the commit goes on with what has passed, or is given up. -/
theorem check_cases (h : f.check l = some f') :
    f' = f ∧ f.unchecked = [] ∨ ∃ c unchecked, f.unchecked = c :: unchecked ∧
      f' = { f with unchecked := unchecked } ∧
      ∀ new, f.commit c = some new → atomicCheck l f.commit f.seen c new = .ok () := by
  unfold Flight.check at h
  cases hunchecked : f.unchecked with
  | nil =>
    rw [hunchecked] at h
    exact .inl ⟨(Option.some.inj h).symm, rfl⟩
  | cons c unchecked =>
    rw [hunchecked] at h
    dsimp only at h
    refine .inr ⟨c, unchecked, rfl, ?_⟩
    cases hc : f.commit c with
    | none =>
      rw [hc] at h
      exact ⟨(Option.some.inj h).symm, fun _ h => by cases h⟩
    | some new =>
      rw [hc] at h
      dsimp only at h
      split_ifs at h with hok
      refine ⟨(Option.some.inj h).symm, fun new' hnew' => ?_⟩
      cases hnew'
      exact hok

/-- **A check that passes** establishes that the mode is supported. -/
theorem ready_check (hbudget : 0 < l.dockPixelBudget) (hf : f.Ready d) {c : Fin n}
    {unchecked : List (Fin n)} (hlist : f.unchecked = c :: unchecked)
    (hcheck : ∀ new, f.commit c = some new → atomicCheck l f.commit f.seen c new = .ok ()) :
    Flight.Ready { f with unchecked := unchecked } d := by
  have hearly : f.swapped = false := by
    by_contra h
    rw [((hf.swapped (by simpa using h)).1)] at hlist
    cases hlist
  refine
    { nodup := hf.nodup, startable := fun i hi => ?_, dark := hf.dark, off := hf.off
      kept := hf.kept
      early := fun _ => ⟨(hf.early hearly).sound, (hf.early hearly).crtc, (hf.early hearly).timing⟩
      swapped := fun h => ?_ }
  · obtain ⟨new, hnew, hactive, hrefresh, hsupported⟩ := hf.startable i hi
    refine ⟨new, hnew, hactive, hrefresh, ?_⟩
    rcases hsupported with hmem | hsupported
    · rw [hlist] at hmem
      rcases List.mem_cons.1 hmem with rfl | hmem
      · right
        have hok := ((atomicCheck_ok_iff hbudget).1 (hcheck new hnew)).1 hactive
        rw [(hf.early hearly).crtc i] at hok
        by_cases hchanged : (d i).crtc.active = false ∨ new.changed (d i).crtc = true
        · exact hok hchanged
        · simp only [not_or, Bool.not_eq_false, NewCrtc.changed, Bool.or_eq_true,
            decide_eq_true_iff, ne_eq, not_not] at hchanged
          obtain ⟨hwas, ⟨hmode, -⟩, -⟩ := hchanged
          rw [← hmode]
          exact ((hf.early hearly).sound i).supported hwas
      · exact .inl hmem
    · exact .inr hsupported
  · have hswapped : f.swapped = true := h
    rw [hearly] at hswapped
    cases hswapped

/-- What the next step of a commit can be. -/
inductive Applied (l : Limits) (d : Dock n) (f : Flight n) : Dock n → Option (Flight n) → Prop
  | waits : f.unchecked ≠ [] → Applied l d f d (some f)
  | swaps : f.unchecked = [] → f.swapped = false →
      Applied l d f (swapState f.commit d) (some { f with swapped := true })
  | disables (c : Fin n) (down : List (Fin n)) : f.swapped = true → f.down = c :: down →
      Applied l d f (atomicDisable d c) (some { f with down := down })
  | decides (c : Fin n) (up : List (Fin n)) : f.swapped = true → f.down = [] → f.up = c :: up →
      f.decided = false → Applied l d f (atomicRequest l f d c) (some { f with decided := true })
  | publishes (c : Fin n) (up : List (Fin n)) : f.swapped = true → f.down = [] → f.up = c :: up →
      f.decided = true →
      Applied l d f (atomicPublish l f.commit d c) (some { f with up := up, decided := false })
  | ends : f.swapped = true → f.down = [] → f.up = [] → Applied l d f d none

theorem apply_applied (l : Limits) (d : Dock n) (f : Flight n) :
    Applied l d f (f.apply l d).1 (f.apply l d).2 := by
  obtain ⟨commit, seen, unchecked, swapped, down, up, decided⟩ := f
  unfold Flight.apply
  dsimp only
  by_cases hunchecked : unchecked = []
  · rw [if_neg (not_not.2 hunchecked)]
    cases swapped with
    | false => exact .swaps hunchecked rfl
    | true =>
      rw [if_neg (by simp)]
      cases down with
      | cons c down => exact .disables c down rfl rfl
      | nil =>
        cases up with
        | nil => exact .ends rfl rfl rfl
        | cons c up =>
          cases decided with
          | false => exact .decides c up rfl rfl rfl rfl
          | true => exact .publishes c up rfl rfl rfl rfl
  · rw [if_pos hunchecked]
    exact .waits hunchecked

theorem swapState_apply (c : Fin n) :
    swapState f.commit d c = { d c with crtc := f.target d c } := by
  unfold swapState Flight.target
  cases f.commit c <;> rfl

theorem atomicDisable_self (c : Fin n) : atomicDisable d c c = (d c).disable :=
  Function.update_self ..

theorem atomicDisable_of_ne {c i : Fin n} (h : i ≠ c) : atomicDisable d c i = d i :=
  Function.update_of_ne h ..

/-- The decision on a depth changes nothing that is driven. -/
theorem atomicRequest_eq (c : Fin n) :
    ∃ y : Connector, atomicRequest l f d c = Function.update d c y ∧ y.crtc = (d c).crtc ∧
      y.lit = (d c).lit ∧ y.lastTiming = (d c).lastTiming ∧ y.present = (d c).present ∧
      y.requested = (d c).requested := by
  unfold atomicRequest
  cases f.commit c with
  | none => exact ⟨d c, (Function.update_eq_self c d).symm, rfl, rfl, rfl, rfl, rfl⟩
  | some new => exact ⟨_, rfl, rfl, rfl, rfl, rfl, rfl⟩

/-- **The timing of a CRTC that is turned on** is published, at the depth of its link. -/
theorem atomicPublish_eq (hf : f.Ready d) (hchecked : f.unchecked = []) {c : Fin n}
    (hc : c ∈ f.up) :
    ∃ new t, f.commit c = some new ∧ new.state.active = true ∧
      modeSupported new.state.mode = true ∧ t.tenBit = (d c).wireTenBit l ∧
      t.rate = new.state.rate ∧ atomicPublish l f.commit d c =
        Function.update d c { d c with lastTiming := some t, requested := true, lit := true } := by
  obtain ⟨new, hnew, hactive, hrefresh, hsupported⟩ := hf.startable c hc
  have hmode := hsupported.resolve_left (by simp [hchecked])
  obtain ⟨t, ht, hdepth, hrate⟩ := timingFromDrmMode_rate hmode hrefresh ((d c).wireTenBit l)
  refine ⟨new, t, hnew, hactive, hmode, hdepth, ?_, ?_⟩
  · rw [hrate, CrtcState.rate, if_pos hactive]
  · unfold atomicPublish Connector.publish
    rw [hnew]
    dsimp only
    rw [ht]

theorem ready_swap (hf : f.Ready d) (hchecked : f.unchecked = []) :
    Flight.Ready { f with swapped := true } (swapState f.commit d) ∧
      Flight.outcome { f with swapped := true } (swapState f.commit d) = f.outcome d ∧
      load (swapState f.commit d) = load d := by
  have htarget : ∀ c, Flight.target { f with swapped := true } (swapState f.commit d) c =
      f.target d c := by
    intro c
    unfold Flight.target
    dsimp only
    cases hc : f.commit c with
    | none => simp [swapState, hc]
    | some new => rfl
  have hdrives : ∀ c, drives (swapState f.commit d c) = drives (d c) := by
    intro c
    rw [swapState_apply]
    rfl
  refine ⟨?_, Finset.sum_congr rfl fun c _ => ?_, Finset.sum_congr rfl fun c _ => ?_⟩
  · refine
      { nodup := hf.nodup, startable := hf.startable, dark := fun c hc => ?_
        off := fun c hdown hup => ?_, kept := fun c hup hdown => ?_
        early := fun h => (Bool.false_ne_true h.symm).elim
        swapped := fun _ => ⟨hchecked, fun c => ?_⟩ }
    · rw [swapState_apply]
      exact hf.dark c hc
    · rw [htarget c]
      exact hf.off c hdown hup
    · have hkept := hf.kept c hup hdown
      rw [htarget c]
      refine ⟨?_, (hdrives c).trans hkept.rate, hkept.supported⟩
      rw [swapState_apply]
      exact hkept.lit
    · rw [htarget c, swapState_apply]
  · unfold Flight.pledge
    rw [hdrives c, swapState_apply]
  · unfold spent
    rw [hdrives c, swapState_apply]

theorem ready_disable (hf : f.Ready d) (hswapped : f.swapped = true) {c : Fin n}
    {down : List (Fin n)} (hdown : f.down = c :: down) :
    Flight.Ready { f with down := down } (atomicDisable d c) ∧
      Flight.outcome { f with down := down } (atomicDisable d c) = f.outcome d ∧
      load (atomicDisable d c) ≤ load d := by
  have hcrtc : ∀ i, (atomicDisable d c i).crtc = (d i).crtc := by
    intro i
    by_cases hi : i = c
    · subst hi
      rw [atomicDisable_self]
      rfl
    · rw [atomicDisable_of_ne hi]
  have hpresent : ∀ i, (atomicDisable d c i).present = (d i).present := by
    intro i
    by_cases hi : i = c
    · subst hi
      rw [atomicDisable_self]
      rfl
    · rw [atomicDisable_of_ne hi]
  have htarget : ∀ i, Flight.target { f with down := down } (atomicDisable d c) i =
      f.target d i := by
    intro i
    unfold Flight.target
    rw [hcrtc i]
  have hdark : (atomicDisable d c c).lit = false := by
    rw [atomicDisable_self]
    rfl
  refine ⟨?_, Finset.sum_congr rfl fun i _ => ?_, Finset.sum_le_sum fun i _ => ?_⟩
  · refine
      { nodup := hf.nodup, startable := hf.startable, dark := fun i hi => ?_
        off := fun i hi hup => ?_, kept := fun i hup hi => ?_
        early := fun h => ?_, swapped := fun _ => ⟨(hf.swapped hswapped).1, fun i => ?_⟩ }
    · by_cases hic : i = c
      · subst hic
        exact .inr hdark
      · rw [atomicDisable_of_ne hic]
        refine (hf.dark i hi).imp_left fun h => ?_
        rw [hdown] at h
        exact (List.mem_cons.1 h).resolve_left hic
    · rw [htarget i]
      exact hf.off i (by rw [hdown]; exact List.mem_cons_of_mem c hi) hup
    · rw [htarget i]
      by_cases hic : i = c
      · subst hic
        have hoff := hf.off i (by rw [hdown]; exact List.mem_cons_self) hup
        refine ⟨hdark.trans hoff.symm, ?_, by simp [hoff]⟩
        rw [drives_of_dark hdark, rate_of_inactive hoff]
      · rw [atomicDisable_of_ne hic]
        refine hf.kept i hup ?_
        rw [hdown]
        exact fun h => hi ((List.mem_cons.1 h).resolve_left hic)
    · have h : f.swapped = false := h
      rw [hswapped] at h
      cases h
    · rw [htarget i, hcrtc i]
      exact (hf.swapped hswapped).2 i
  · rw [hpresent i]
    unfold Flight.pledge
    dsimp only
    rw [hdown]
    by_cases hic : i = c
    · subst hic
      rw [drives_of_dark hdark, ite_self, if_pos List.mem_cons_self]
    · rw [atomicDisable_of_ne hic]
      simp only [List.mem_cons, hic, false_or]
  · unfold spent
    rw [hpresent i]
    by_cases hic : i = c
    · subst hic
      rw [drives_of_dark hdark, ite_self]
      exact Nat.zero_le _
    · rw [atomicDisable_of_ne hic]

theorem ready_publish (hf : f.Ready d) (hswapped : f.swapped = true) (hdown : f.down = [])
    {c : Fin n} {up : List (Fin n)} (hup : f.up = c :: up) :
    Flight.Ready { f with up := up, decided := false } (atomicPublish l f.commit d c) ∧
      Flight.outcome { f with up := up, decided := false } (atomicPublish l f.commit d c) =
        f.outcome d := by
  obtain ⟨new, t, hnew, hactive, hmode, -, hrate, heq⟩ :=
    atomicPublish_eq (l := l) hf (hf.swapped hswapped).1 (c := c) (by rw [hup]; simp)
  have hself : atomicPublish l f.commit d c c =
      { d c with lastTiming := some t, requested := true, lit := true } := by
    rw [heq, Function.update_self]
  have hne : ∀ i, i ≠ c → atomicPublish l f.commit d c i = d i := by
    intro i hi
    rw [heq, Function.update_of_ne hi]
  have hcrtc : ∀ i, (atomicPublish l f.commit d c i).crtc = (d i).crtc := by
    intro i
    by_cases hi : i = c
    · subst hi
      rw [hself]
    · rw [hne i hi]
  have htarget : ∀ i, Flight.target { f with up := up, decided := false }
      (atomicPublish l f.commit d c) i = f.target d i := by
    intro i
    unfold Flight.target
    rw [hcrtc i]
  have hnodup : c ∉ up ∧ up.Nodup := by
    have h := hf.nodup
    rw [hup] at h
    exact List.nodup_cons.1 h
  have hdrives : drives (atomicPublish l f.commit d c c) = new.state.rate := by
    rw [hself]
    exact hrate
  refine ⟨?_, Finset.sum_congr rfl fun i _ => ?_⟩
  · refine
      { nodup := hnodup.2
        startable := fun i hi => hf.startable i (by rw [hup]; exact List.mem_cons_of_mem c hi)
        dark := fun i hi => ?_, off := fun i hi => ?_, kept := fun i hi _ => ?_
        early := fun h => ?_, swapped := fun _ => ⟨(hf.swapped hswapped).1, fun i => ?_⟩ }
    · have hic : i ≠ c := fun h => hnodup.1 (h ▸ hi)
      rw [hne i hic]
      exact hf.dark i (by rw [hup]; exact List.mem_cons_of_mem c hi)
    · have hi : i ∈ f.down := hi
      rw [hdown] at hi
      cases hi
    · rw [htarget i]
      by_cases hic : i = c
      · subst hic
        have hstate : f.target d i = new.state := by rw [Flight.target, hnew]
        rw [hstate]
        refine ⟨?_, hdrives, fun _ => hmode⟩
        rw [hself]
        exact hactive.symm
      · rw [hne i hic]
        refine hf.kept i ?_ (by simp [hdown])
        rw [hup]
        exact fun h => hi ((List.mem_cons.1 h).resolve_left hic)
    · have h : f.swapped = false := h
      rw [hswapped] at h
      cases h
    · rw [htarget i, hcrtc i]
      exact (hf.swapped hswapped).2 i
  · by_cases hic : i = c
    · subst hic
      have hpledge : Flight.pledge { f with up := up, decided := false }
          (atomicPublish l f.commit d i) i = f.pledge d i := by
        unfold Flight.pledge
        dsimp only
        rw [if_neg hnodup.1, hdown, if_neg List.not_mem_nil, hdrives, hup,
          if_pos List.mem_cons_self, hnew]
      rw [hpledge, hself]
    · rw [hne i hic]
      unfold Flight.pledge
      dsimp only
      rw [hne i hic, hup]
      simp only [List.mem_cons, hic, false_or]

/-- The commit has been applied in full. -/
theorem sound_ends (hf : f.Ready d) (hswapped : f.swapped = true) (hdown : f.down = [])
    (hup : f.up = []) : Sound d := by
  intro c
  rw [(hf.swapped hswapped).2 c]
  exact hf.kept c (by simp [hup]) (by simp [hdown])

/-- **One step of a commit** changes nothing about its outcome, and the dock carries no more than it
did or than the commit will leave. -/
theorem ready_applied (hf : f.Ready d) (h : Applied l d f d' (some f')) :
    f'.Ready d' ∧ f'.outcome d' ≤ f.outcome d ∧ (load d' ≤ load d ∨ load d' ≤ f'.outcome d') := by
  cases h with
  | waits => exact ⟨hf, Nat.le_refl _, .inl (Nat.le_refl _)⟩
  | swaps hchecked _ =>
    obtain ⟨hready, houtcome, hload⟩ := ready_swap hf hchecked
    exact ⟨hready, Nat.le_of_eq houtcome, .inl (Nat.le_of_eq hload)⟩
  | disables c down hswapped hdown =>
    obtain ⟨hready, houtcome, hload⟩ := ready_disable hf hswapped hdown
    exact ⟨hready, Nat.le_of_eq houtcome, .inl hload⟩
  | decides c up hswapped hdown hup hdecided =>
    obtain ⟨y, heq, hcrtc, hlit, htiming, hy, -⟩ :=
      atomicRequest_eq (l := l) (f := f) (d := d) c
    rw [heq]
    have halike := alike_update hcrtc hlit fun _ => htiming
    have hpresent := present_update (d := d) (c := c) (y := y) fun h => hy.symm.trans h
    have hready := halike.ready hf
    refine ⟨⟨hready.nodup, hready.startable, hready.dark, hready.off, hready.kept, fun h => ?_,
      hready.swapped⟩, halike.outcome_le hpresent, .inl (halike.load_le hpresent)⟩
    exact ⟨(hready.early h).sound, (hready.early h).crtc, (hready.early h).timing⟩
  | publishes c up hswapped hdown hup hdecided =>
    obtain ⟨hready, houtcome⟩ := ready_publish (l := l) hf hswapped hdown hup
    exact ⟨hready, Nat.le_of_eq houtcome, .inr (load_le_outcome hready hdown)⟩

/-- What is driven stays asked for. -/
theorem held_applied (hf : f.Ready d) (hheld : Held d) {r : Option (Flight n)}
    (h : Applied l d f d' r) : Held d' := by
  cases h with
  | waits => exact hheld
  | swaps =>
    intro c hc
    rw [swapState_apply] at hc ⊢
    exact hheld c hc
  | disables c down => exact hheld.update fun h => by cases h
  | decides c =>
    obtain ⟨y, heq, -, hlit, -, -, hrequested⟩ := atomicRequest_eq (l := l) (f := f) (d := d) c
    rw [heq]
    refine hheld.update fun h => ?_
    rw [hrequested]
    exact hheld c (hlit.symm.trans h)
  | publishes c up hswapped _ hup =>
    obtain ⟨new, t, -, -, -, -, -, heq⟩ :=
      atomicPublish_eq (l := l) hf (hf.swapped hswapped).1 (c := c) (by rw [hup]; simp)
    rw [heq]
    exact hheld.update fun _ => rfl
  | ends => exact hheld

end Steps

/-! ### Whole runs -/

section Runs

variable {l : Limits} {s : State n} {d d' : Dock n} {f : Flight n}

/-- The outcome of a commit under way is within a bound, or no rise of it has been checked. -/
def Flight.Bounded (f : Flight n) (d : Dock n) (cap : ℕ) : Prop :=
  f.outcome d ≤ cap ∨ f.Unpriced d

/-- What holds of a dock, whatever is under way. -/
structure Inv (l : Limits) (s : State n) : Prop where
  held : Held s.dock
  load : load s.dock ≤ l.dockPixelBudget
  flights : s.flights = [] ∧ Sound s.dock ∨
    ∃ f, s.flights = [f] ∧ f.Ready s.dock ∧ f.Bounded s.dock l.dockPixelBudget

/-- A commit whose checks have passed is within the bound. -/
theorem bounded_checked {cap : ℕ} (hf : f.Ready d) (hload : Commits.load d ≤ cap)
    (h : f.Bounded d cap) (hchecked : f.unchecked = []) : f.outcome d ≤ cap := by
  rcases h with h | h
  · exact h
  · have hnone : ∀ c, ¬ f.Rises d c := by
      intro c hc
      have hmem := h.rises c hc
      rw [hchecked] at hmem
      cases hmem
    exact (outcome_le_load hf h.early hnone).trans hload

/-- A step of the one commit under way, or a step that finds none. -/
theorem onFlight_cases (hflights : s.flights = [f]) (k : ℕ)
    (g : Flight n → Dock n × Option (Flight n)) :
    s.onFlight k g = s ∨
      (s.onFlight k g).dock = (g f).1 ∧ (s.onFlight k g).flights = (g f).2.toList := by
  unfold State.onFlight
  rw [hflights]
  cases k with
  | succ k => exact .inl rfl
  | zero =>
    right
    dsimp only [List.getElem?_cons_zero]
    cases (g f).2 with
    | none => exact ⟨rfl, rfl⟩
    | some f' => exact ⟨rfl, rfl⟩

theorem onFlight_nil (hflights : s.flights = []) (k : ℕ)
    (g : Flight n → Dock n × Option (Flight n)) : s.onFlight k g = s := by
  unfold State.onFlight
  rw [hflights]
  rfl

theorem Inv.sound (hs : Inv l s) (hnil : s.flights = []) : Sound s.dock := by
  rcases hs.flights with ⟨-, hsound⟩ | ⟨f, hf, -⟩
  · exact hsound
  · rw [hnil] at hf
    cases hf

theorem Inv.ready (hs : Inv l s) (hf : f ∈ s.flights) : f.Ready s.dock := by
  rcases hs.flights with ⟨hnil, -⟩ | ⟨f', hf', hready, -⟩
  · rw [hnil] at hf
    cases hf
  · rw [hf', List.mem_singleton] at hf
    rwa [hf]

/-- A connector is changed in nothing that is driven, and no monitor comes. -/
theorem Inv.update {s' : State n} (hs : Inv l s) {c : Fin n} {y : Connector}
    (hdock : s'.dock = Function.update s.dock c y) (hflights : s'.flights = s.flights)
    (hcrtc : y.crtc = (s.dock c).crtc) (hlit : y.lit = (s.dock c).lit)
    (htiming : (s.dock c).lit = true → y.lastTiming = (s.dock c).lastTiming)
    (hrequested : (s.dock c).requested = true → y.requested = true)
    (hpresent : y.present = true → (s.dock c).present = true) : Inv l s' := by
  have halike := alike_update hcrtc hlit htiming
  have hgone := present_update (d := s.dock) hpresent
  refine ⟨?_, ?_, ?_⟩
  · rw [hdock]
    exact hs.held.update fun h => hrequested (hs.held c (hlit.symm.trans h))
  · rw [hdock]
    exact (halike.load_le hgone).trans hs.load
  · rw [hdock, hflights]
    rcases hs.flights with ⟨hnil, hsound⟩ | ⟨f, hf, hready, hbounded⟩
    · exact .inl ⟨hnil, halike.sound hsound⟩
    · refine .inr ⟨f, hf, halike.ready hready, ?_⟩
      exact hbounded.imp (fun hle => (halike.outcome_le hgone).trans hle)
        fun hopen => halike.unpriced hgone hopen

/-- A step of a commit under way. -/
theorem Inv.onFlight {k : ℕ} {g : Flight n → Dock n × Option (Flight n)} (hs : Inv l s)
    (hstep : ∀ f, s.flights = [f] → f.Ready s.dock → f.Bounded s.dock l.dockPixelBudget →
      Inv l { s with dock := (g f).1, flights := (g f).2.toList }) :
    Inv l (s.onFlight k g) := by
  rcases hs.flights with ⟨hnil, -⟩ | ⟨f, hf, hready, hbounded⟩
  · rw [onFlight_nil hnil]
    exact hs
  · rcases onFlight_cases hf k g with h | ⟨hdock, hflights⟩
    · rw [h]
      exact hs
    · have hnext := hstep f hf hready hbounded
      constructor
      · rw [hdock]
        exact hnext.held
      · rw [hdock]
        exact hnext.load
      · rw [hdock, hflights]
        exact hnext.flights

theorem inv_look (hs : Inv l s) (k : ℕ) (c : Fin n) : Inv l (step l s (.look k c)) := by
  refine hs.onFlight fun f _ hready hbounded => ⟨hs.held, hs.load, .inr ⟨_, rfl, ?_, ?_⟩⟩
  · exact ready_look hready c
  · refine hbounded.imp_right fun hopen => ?_
    exact ⟨hopen.early, fresh_look hs.held hopen.fresh c, hopen.rises⟩

/-- **A check** bounds the outcome, if it is of a rise. -/
theorem inv_check (hbudget : 0 < l.dockPixelBudget) (hmax : l.dockPixelBudget < u32Max)
    (hs : Inv l s) (k : ℕ) : Inv l (step l s (.check k)) := by
  refine hs.onFlight fun f hf hready hbounded => ?_
  cases hcheck : f.check l with
  | none =>
    refine ⟨hs.held, hs.load, .inl ⟨rfl, ?_⟩⟩
    have hunswapped : f.swapped = false := by
      by_contra h
      unfold Flight.check at hcheck
      rw [(hready.swapped (by simpa using h)).1] at hcheck
      cases hcheck
    exact (hready.early hunswapped).sound
  | some f' =>
    refine ⟨hs.held, hs.load, .inr ⟨f', rfl, ?_⟩⟩
    rcases check_cases hcheck with ⟨rfl, -⟩ | ⟨c, unchecked, hlist, rfl, hok⟩
    · exact ⟨hready, hbounded⟩
    · refine ⟨ready_check hbudget hready hlist hok, ?_⟩
      rcases hbounded with hle | hopen
      · exact .inl hle
      · by_cases hrise : f.Rises s.dock c
        · obtain ⟨new, hnew, hlt⟩ := hrise
          left
          exact (outcome_le_of_check hbudget hmax hready hopen hnew (hok new hnew) hlt).trans
            (budgetAtDepth_le _ _)
        · refine .inr ⟨hopen.early, hopen.fresh, fun i hi => ?_⟩
          have hmem := hopen.rises i hi
          rw [hlist] at hmem
          refine (List.mem_cons.1 hmem).resolve_left ?_
          rintro rfl
          exact hrise hi

theorem inv_drop (hs : Inv l s) (k : ℕ) : Inv l (step l s (.drop k)) := by
  refine hs.onFlight fun f hf hready hbounded => ?_
  by_cases hswapped : f.swapped = false
  · rw [if_pos hswapped]
    exact ⟨hs.held, hs.load, .inl ⟨rfl, (hready.early hswapped).sound⟩⟩
  · rw [if_neg hswapped]
    exact ⟨hs.held, hs.load, .inr ⟨f, rfl, hready, hbounded⟩⟩

/-- **A step of the application** stays between what is carried and the outcome. -/
theorem inv_apply (hs : Inv l s) (k : ℕ) : Inv l (step l s (.apply k)) := by
  refine hs.onFlight fun f hf hready hbounded => ?_
  have happlied := apply_applied l s.dock f
  have hheld := held_applied hready hs.held happlied
  revert happlied hheld
  generalize (f.apply l s.dock).1 = d'
  cases hnext : (f.apply l s.dock).2 with
  | none =>
    intro happlied hheld
    cases happlied with
    | ends hswapped hdown hup =>
      exact ⟨hheld, hs.load, .inl ⟨rfl, sound_ends hready hswapped hdown hup⟩⟩
  | some f' =>
    intro happlied hheld
    obtain ⟨hready', houtcome, hload⟩ := ready_applied hready happlied
    by_cases hchecked : f.unchecked = []
    · have hbound : f'.outcome d' ≤ l.dockPixelBudget :=
        houtcome.trans (bounded_checked hready hs.load hbounded hchecked)
      exact ⟨hheld, hload.elim (fun h => h.trans hs.load) fun h => h.trans hbound,
        .inr ⟨f', rfl, hready', .inl hbound⟩⟩
    · cases happlied with
      | waits => exact ⟨hheld, hs.load, .inr ⟨f, rfl, hready, hbounded⟩⟩
      | swaps h => exact absurd h hchecked
      | disables _ _ h | decides _ _ h | publishes _ _ h =>
        exact absurd (hready.swapped h).1 hchecked

theorem setPresent_apply (c : Fin n) (on : Bool) (i : Fin n) :
    setPresent d c on i = { d i with present := if i = c then on else (d i).present } := by
  unfold setPresent
  by_cases hi : i = c
  · subst hi
    rw [Function.update_self, if_pos rfl]
  · rw [Function.update_of_ne hi, if_neg hi]

theorem alike_setPresent (c : Fin n) (on : Bool) : Alike d (setPresent d c on) :=
  alike_update rfl rfl fun _ => rfl

theorem setPresent_of_present {c : Fin n} (h : (d c).present = true) : setPresent d c true = d := by
  funext i
  rw [setPresent_apply]
  by_cases hi : i = c
  · subst hi
    rw [if_pos rfl, ← h]
  · rw [if_neg hi]

/-- A monitor that comes adds what there is on its socket. -/
theorem sum_setPresent {c : Fin n} (habsent : (d c).present = false) (g : Fin n → ℕ) :
    (∑ i, if (setPresent d c true i).present then g i else 0) =
      (∑ i, if (d i).present then g i else 0) + g c := by
  rw [← Finset.add_sum_erase Finset.univ _ (Finset.mem_univ c),
    ← Finset.add_sum_erase Finset.univ (fun i => if (d i).present then g i else 0)
      (Finset.mem_univ c), habsent]
  have hothers : ∑ i ∈ Finset.univ.erase c, (if (setPresent d c true i).present then g i else 0) =
      ∑ i ∈ Finset.univ.erase c, if (d i).present then g i else 0 := by
    refine Finset.sum_congr rfl fun i hi => ?_
    rw [setPresent_apply, if_neg (Finset.ne_of_mem_erase hi)]
  have hself : (setPresent d c true c).present = true := by
    rw [setPresent_apply, if_pos rfl]
  rw [hothers, hself, if_pos rfl, if_neg (by simp)]
  omega

theorem load_setPresent {c : Fin n} (habsent : (d c).present = false) :
    load (setPresent d c true) = load d + drives (d c) := by
  unfold load spent
  simp only [(alike_setPresent (d := d) c true).drives]
  exact sum_setPresent habsent fun i => drives (d i)

theorem outcome_setPresent {c : Fin n} (habsent : (d c).present = false) :
    f.outcome (setPresent d c true) = f.outcome d + f.pledge d c := by
  unfold Flight.outcome
  simp only [(alike_setPresent (d := d) c true).pledge]
  exact sum_setPresent habsent (f.pledge d)

/-- **A monitor that comes** finds room. -/
theorem inv_setConnected (hs : Inv l s) {c : Fin n} (hroom : Room l s (.setConnected c)) :
    Inv l (step l s (.setConnected c)) := by
  by_cases hpresent : (s.dock c).present = true
  · have hsame : step l s (.setConnected c) = s := by
      show { s with dock := setPresent s.dock c true } = s
      rw [setPresent_of_present hpresent]
    rw [hsame]
    exact hs
  · obtain ⟨hload, houtcome⟩ := hroom.resolve_left hpresent
    rw [Bool.not_eq_true] at hpresent
    have halike := alike_setPresent (d := s.dock) c true
    refine ⟨hs.held.update fun h => hs.held c h, ?_, ?_⟩
    · show load (setPresent s.dock c true) ≤ _
      rw [load_setPresent hpresent]
      exact hload
    · rcases hs.flights with ⟨hnil, hsound⟩ | ⟨f, hf, hready, -⟩
      · exact .inl ⟨hnil, halike.sound hsound⟩
      · refine .inr ⟨f, hf, halike.ready hready, .inl ?_⟩
        show f.outcome (setPresent s.dock c true) ≤ _
        rw [outcome_setPresent hpresent]
        exact houtcome f (by rw [hf]; exact List.mem_cons_self)

theorem inv_setDisconnected (hs : Inv l s) (c : Fin n) : Inv l (step l s (.setDisconnected c)) :=
  hs.update rfl rfl rfl rfl (fun _ => rfl) id fun h => by cases h

theorem inv_framebuffer (hs : Inv l s) (c : Fin n) (tenBit : Bool) :
    Inv l (step l s (.framebuffer c tenBit)) :=
  hs.update rfl rfl rfl rfl (fun _ => rfl) id id

theorem inv_begin (hs : Inv l s) {commit : Commit n} (horder : Orderly s (.begin commit)) :
    Inv l (step l s (.begin commit)) := by
  obtain ⟨hnil, hstate⟩ := horder
  refine ⟨hs.held, hs.load, .inr ⟨Flight.start commit s.dock, ?_, ?_, ?_⟩⟩
  · show s.flights ++ [Flight.start commit s.dock] = _
    rw [hnil, List.nil_append]
  · exact ready_start (hs.sound hnil) hstate
  · exact .inr (unpriced_start hs.held)

theorem inv_join (hs : Inv l s) (c : Fin n) (timing : Timing) (idle : Bool) :
    Inv l (step l s (.join c timing idle)) := by
  show Inv l (s.join l c timing idle)
  unfold State.join
  split_ifs
  · exact ⟨hs.held, hs.load, hs.flights⟩
  · exact hs

/-- A socket that the worker stores a mode for is not driven. -/
theorem dark_of_joining (hs : Inv l s) (horder : Orderly s (.joinStore : Event n)) {j : Joining n}
    (hj : s.joining = some j) (hstored : j.stored = false) : (s.dock j.connector).lit = false := by
  have hrequested := horder j hj hstored
  by_contra h
  rw [hs.held j.connector (by simpa using h)] at hrequested
  cases hrequested

/-- The stores of the worker change nothing that is driven. -/
theorem inv_joinStore (hs : Inv l s) (horder : Orderly s (.joinStore : Event n)) :
    Inv l (step l s .joinStore) := by
  show Inv l s.joinStore
  unfold State.joinStore
  cases hj : s.joining with
  | none => exact hs
  | some j =>
    dsimp only
    split_ifs with hstored
    · have hdark := dark_of_joining hs horder hj hstored
      refine hs.update rfl rfl rfl rfl (fun h => ?_) id id
      rw [hdark] at h
      cases h
    · exact hs.update rfl rfl rfl rfl (fun _ => rfl) (fun _ => rfl) id

theorem inv_step (hbudget : 0 < l.dockPixelBudget) (hmax : l.dockPixelBudget < u32Max)
    (hs : Inv l s) (e : Event n) (horder : Orderly s e) (hroom : Room l s e) :
    Inv l (step l s e) := by
  cases e with
  | begin commit => exact inv_begin hs horder
  | look k c => exact inv_look hs k c
  | check k => exact inv_check hbudget hmax hs k
  | drop k => exact inv_drop hs k
  | apply k => exact inv_apply hs k
  | framebuffer c tenBit => exact inv_framebuffer hs c tenBit
  | setConnected c => exact inv_setConnected hs hroom
  | setDisconnected c => exact inv_setDisconnected hs c
  | join c timing idle => exact inv_join hs c timing idle
  | joinStore => exact inv_joinStore hs horder

theorem inv_start : Inv l (State.start : State n) := by
  have hsound : Sound (Budget.start : Dock n) := fun _ => ⟨rfl, rfl, fun h => by cases h⟩
  refine ⟨fun _ h => (Bool.false_ne_true h).elim, ?_, .inl ⟨rfl, hsound⟩⟩
  have hload : load (Budget.start : Dock n) = 0 := Finset.sum_eq_zero fun _ _ => rfl
  show load (Budget.start : Dock n) ≤ _
  rw [hload]
  exact Nat.zero_le _

/-- In the states before a step that leaves the dock within its budget, a monitor that comes finds
room, if no commit is under way. -/
theorem room_of_load : ∀ (es : List (Event n)) (s : State n), Along Calm (step l) s es →
    (∀ j, load (run (step l) s (es.take j)).dock ≤ l.dockPixelBudget) →
      Along (Room l) (step l) s es
  | [], _, _, _ => trivial
  | e :: es, s, hcalm, h => by
    refine ⟨?_, room_of_load es _ hcalm.2 fun j => h (j + 1)⟩
    cases e with
    | setConnected c =>
      have hnil : s.flights = [] := hcalm.1
      by_cases hpresent : (s.dock c).present = true
      · exact .inl hpresent
      · have hload : load (setPresent s.dock c true) ≤ l.dockPixelBudget := h 1
        rw [load_setPresent (by simpa using hpresent)] at hload
        exact .inr ⟨hload, by simp [hnil]⟩
    | _ => trivial

/-- **The dock is driven within its budget**, in whatever order things happen, if every monitor that
comes finds room; and only then, if none comes during a commit. -/
theorem within_budget (l : Limits) (hbudget : 0 < l.dockPixelBudget)
    (hmax : l.dockPixelBudget < u32Max) (es : List (Event n)) :
    (Along (fun s e => Orderly s e ∧ Room l s e) (step l) State.start es →
      ∀ j, load (run (step l) State.start (es.take j)).dock ≤ l.dockPixelBudget) ∧
    (Along Calm (step l) State.start es →
      (∀ j, load (run (step l) State.start (es.take j)).dock ≤ l.dockPixelBudget) →
        Along (Room l) (step l) State.start es) := by
  refine ⟨fun hroom j => ?_, room_of_load es State.start⟩
  rw [← List.take_append_drop j es, along_append] at hroom
  refine (run_invariant (P := Inv l) ?_ (es.take j) State.start inv_start hroom.1).load
  intro s e hs he
  exact inv_step hbudget hmax hs e he.1 he.2

local instance neZero_four : NeZero 4 := ⟨by decide⟩

/-- A commit of one CRTC, with a connector in this colour and at this depth. -/
def commitOne (connector : Fin 4) (active : Bool) (mode : DisplayMode) (conn : ConnectorState) :
    Commit 4 := fun i =>
  if i = connector then some ⟨⟨active, mode⟩, false, true, none, some conn⟩ else none

def mode120 : DisplayMode := ⟨497750, 2560, 1440, 120⟩

def mode60 : DisplayMode := ⟨241500, 2560, 1440, 60⟩

def plain : ConnectorState := ⟨0, none, 8⟩

def hdr : ConnectorState := ⟨9, some .smpteSt2084, 10⟩

/-- The steps of a commit of one CRTC; one that is refused has no flight to step. -/
def stepsOf (commit : Commit 4) : List (Event 4) :=
  [.begin commit, .check 0, .apply 0, .apply 0, .apply 0, .apply 0, .apply 0]

/-- Two monitors are lit; the second one leaves, and comes back after the check of a commit for a
third has read that it is gone.  In the end it asks for more, and is refused if the first one is
driven at ten bits. -/
def comesBack (conn : ConnectorState) : List (Event 4) :=
  ([.setConnected 0] : List (Event 4)) ++ stepsOf (commitOne 0 true mode120 conn) ++
    ([.setConnected 1] : List (Event 4)) ++ stepsOf (commitOne 1 true mode60 plain) ++
    ([.setDisconnected 1, .setConnected 2, .begin (commitOne 2 true mode60 plain), .look 0 1,
      .setConnected 1, .check 0, .apply 0, .apply 0, .apply 0, .apply 0] : List (Event 4)) ++
    stepsOf (commitOne 1 true mode120 plain)

theorem within_budget_comesBack :
    load (run (step navarroLimits) State.start (comesBack plain)).dock = 1105920000 ∧
    ∀ j, load (run (step navarroLimits) State.start ((comesBack plain).take j)).dock ≤
      navarroLimits.dockPixelBudget :=
  ⟨by decide +kernel, (within_budget navarroLimits (by decide) (by decide) (comesBack plain)).1
    (by decide +kernel)⟩

end Runs

/-! ### Ten bits -/

section TenBits

variable {l : Limits} {commit : Commit n} {s : State n} {d d' : Dock n} {f f' : Flight n}

/-- Some connector that is driven is programmed at ten bits. -/
def Deep (d : Dock n) : Prop :=
  ∃ c, (d c).lit = true ∧ connectorProgrammedTenBit d c = true

instance decidableDeep (d : Dock n) : Decidable (Deep d) := by
  unfold Deep
  infer_instance

/-- What the dock can carry at the depth of its deepest connector. -/
def price (l : Limits) (d : Dock n) : ℕ := budgetAtDepth l.dockPixelBudget (decide (Deep d))

/-- What the dock can carry at ten bits. -/
def deepBudget (l : Limits) : ℕ := budgetAtDepth l.dockPixelBudget true

/-- A monitor that comes finds room at the depth of the dock, and at ten bits beside what a commit
under way will leave; a ten-bit framebuffer is on a connector that a commit will turn on only where
ten bits fit. -/
def PricedRoom (l : Limits) (s : State n) : Event n → Prop
  | .setConnected c => (s.dock c).present = true ∨
      load s.dock + drives (s.dock c) ≤ price l s.dock ∧
      ∀ f ∈ s.flights, f.outcome s.dock + f.pledge s.dock c ≤ deepBudget l
  | .begin commit => ∀ c ∈ enables commit s.dock, (s.dock c).tenBit = true →
      ∀ new ∈ commit c, tenBitFits l
        (saturatingAdd new.state.rate (otherConnectorsRate commit s.dock c)) = true
  | .framebuffer c tenBit => tenBit = true → ∀ f ∈ s.flights, c ∈ f.up →
      ∀ new ∈ f.commit c, tenBitFits l
        (saturatingAdd new.state.rate (otherConnectorsRate f.commit s.dock c)) = true
  | _ => True

instance decidablePricedRoom (l : Limits) (s : State n) (e : Event n) :
    Decidable (PricedRoom l s e) := by
  unfold PricedRoom
  split <;> infer_instance

theorem price_le (l : Limits) (d : Dock n) : price l d ≤ l.dockPixelBudget := budgetAtDepth_le _ _

theorem deepBudget_le (l : Limits) : deepBudget l ≤ l.dockPixelBudget := budgetAtDepth_le _ _

theorem room_of_priced {e : Event n} (h : PricedRoom l s e) : Room l s e := by
  cases e with
  | setConnected c =>
    refine h.imp_right fun hroom => ⟨hroom.1.trans (price_le l s.dock), fun f hf => ?_⟩
    exact (hroom.2 f hf).trans (deepBudget_le l)
  | _ => trivial

/-- What a commit under way knows of ten bits. -/
structure Flight.Priced (l : Limits) (f : Flight n) (d : Dock n) : Prop where
  /-- A framebuffer forces the depth of a link. -/
  forced : ∀ c ∈ f.up, (d c).tenBit = true → f.outcome d ≤ deepBudget l
  /-- A link is to be driven at ten bits. -/
  decided : f.decided = true → ∀ c ∈ f.up.head?, (d c).wireTenBit l = true →
    f.outcome d ≤ deepBudget l
  /-- A connector is driven at ten bits, and stays so. -/
  kept : ∀ c, c ∉ f.down → (d c).lit = true → connectorProgrammedTenBit d c = true →
    f.Bounded d (deepBudget l)
  fresh : Fresh f.commit f.seen d ∨ f.outcome d ≤ deepBudget l

structure DeepInv (l : Limits) (s : State n) : Prop where
  load : Deep s.dock → load s.dock ≤ deepBudget l
  flights : ∀ f ∈ s.flights, f.Priced l s.dock

/-- A ten-bit link that fits beside what still holds bounds the outcome. -/
theorem outcome_le_of_fits {seen : Dock n} {c : Fin n} {new : NewCrtc}
    (hbudget : 0 < l.dockPixelBudget) (hmax : l.dockPixelBudget < u32Max) (hf : f.Ready d)
    (hfresh : Fresh f.commit seen d) (hc : f.commit c = some new)
    (hfits : tenBitFits l
      (saturatingAdd new.state.rate (otherConnectorsRate f.commit seen c)) = true) :
    f.outcome d ≤ deepBudget l :=
  (outcome_le_charges hf hfresh).trans (tenBitFits_charges hbudget hmax hc hfits)

theorem priced_start (hbudget : 0 < l.dockPixelBudget) (hmax : l.dockPixelBudget < u32Max)
    (hf : (Flight.start commit d).Ready d) (hheld : Held d)
    (hframes : ∀ c ∈ enables commit d, (d c).tenBit = true → ∀ new ∈ commit c,
      tenBitFits l (saturatingAdd new.state.rate (otherConnectorsRate commit d c)) = true) :
    (Flight.start commit d).Priced l d where
  forced c hc hframe := by
    obtain ⟨new, hnew, -⟩ := hf.startable c hc
    exact outcome_le_of_fits hbudget hmax hf (fresh_self hheld commit) hnew
      (hframes c hc hframe new hnew)
  decided h := by cases h
  kept _ _ _ _ := .inr (unpriced_start hheld)
  fresh := .inl (fresh_self hheld commit)

theorem priced_look (hheld : Held d) (hf : f.Priced l d) (c : Fin n) :
    Flight.Priced l { f with seen := Function.update f.seen c (d c) } d where
  forced := hf.forced
  decided := hf.decided
  kept i hdown hlit htenBit := (hf.kept i hdown hlit htenBit).imp_right fun hopen =>
    ⟨hopen.early, fresh_look hheld hopen.fresh c, hopen.rises⟩
  fresh := hf.fresh.imp_left fun hfresh => fresh_look hheld hfresh c

/-- A connector that stays driven is none that a commit gives more. -/
theorem not_rises_of_kept (hf : f.Ready d) (hearly : f.swapped = false) {c : Fin n}
    (hdown : c ∉ f.down) (hlit : (d c).lit = true) : ¬ f.Rises d c := by
  rintro ⟨new, hnew, hlt⟩
  have hup : c ∉ f.up := by
    intro hup
    have hdark := (hf.dark c hup).resolve_left hdown
    rw [hlit] at hdark
    cases hdark
  have hkept := (hf.kept c hup hdown).rate
  rw [Flight.target, hnew, ((hf.early hearly).sound c).rate] at hkept
  dsimp only at hkept
  omega

/-- **A check beside a connector at ten bits** is made at their price. -/
theorem priced_check (hbudget : 0 < l.dockPixelBudget) (hmax : l.dockPixelBudget < u32Max)
    (hready : f.Ready d) (hf : f.Priced l d) {c : Fin n} {unchecked : List (Fin n)}
    (hlist : f.unchecked = c :: unchecked)
    (hcheck : ∀ new, f.commit c = some new → atomicCheck l f.commit f.seen c new = .ok ()) :
    Flight.Priced l { f with unchecked := unchecked } d where
  forced := hf.forced
  decided := hf.decided
  kept i hdown hlit htenBit := by
    rcases hf.kept i hdown hlit htenBit with hle | hopen
    · exact .inl hle
    · by_cases hrise : f.Rises d c
      · left
        have hic : i ≠ c := by
          rintro rfl
          exact not_rises_of_kept hready hopen.early hdown hlit hrise
        have hother : otherConnectorProgrammedTenBit f.seen c = true := by
          refine decide_eq_true ⟨i, hic, ?_⟩
          unfold connectorProgrammedTenBit at htenBit ⊢
          rwa [(hready.early hopen.early).timing i hlit]
        obtain ⟨new, hnew, hlt⟩ := hrise
        have hle := outcome_le_of_check hbudget hmax hready hopen hnew (hcheck new hnew) hlt
        rwa [hother] at hle
      · refine .inr ⟨hopen.early, hopen.fresh, fun j hj => ?_⟩
        have hmem := hopen.rises j hj
        rw [hlist] at hmem
        refine (List.mem_cons.1 hmem).resolve_left ?_
        rintro rfl
        exact hrise hj
  fresh := hf.fresh

/-- Nothing of what is known of ten bits gets worse: no framebuffer and no link becomes ten bits
deep, no connector is driven so that was not, and no monitor comes. -/
theorem Flight.Priced.mono (hf : f.Priced l d) (hup : ∀ c ∈ f'.up, c ∈ f.up)
    (houtcome : f'.outcome d' ≤ f.outcome d)
    (hforced : ∀ c ∈ f'.up, (d' c).tenBit = true → (d c).tenBit = true)
    (hdecided : f'.decided = true → ∀ c ∈ f'.up.head?, (d' c).wireTenBit l = true →
      f'.outcome d' ≤ deepBudget l)
    (hkept : ∀ c, c ∉ f'.down → (d' c).lit = true → connectorProgrammedTenBit d' c = true →
      f'.outcome d' ≤ deepBudget l)
    (hfresh : Fresh f.commit f.seen d → Fresh f'.commit f'.seen d') : f'.Priced l d' where
  forced c hc h := houtcome.trans (hf.forced c (hup c hc) (hforced c hc h))
  decided := hdecided
  kept c hdown hlit htenBit := .inl (hkept c hdown hlit htenBit)
  fresh := hf.fresh.imp hfresh fun h => houtcome.trans h

theorem deep_swapState : Deep (swapState f.commit d) ↔ Deep d := by
  unfold Deep connectorProgrammedTenBit
  simp only [swapState_apply]

theorem atomicDisable_tenBit (c i : Fin n) : (atomicDisable d c i).tenBit = (d i).tenBit := by
  by_cases hic : i = c
  · subst hic
    rw [atomicDisable_self]
    rfl
  · rw [atomicDisable_of_ne hic]

theorem atomicDisable_wireTenBit (c i : Fin n) :
    (atomicDisable d c i).wireTenBit l = (d i).wireTenBit l := by
  by_cases hic : i = c
  · subst hic
    rw [atomicDisable_self]
    rfl
  · rw [atomicDisable_of_ne hic]

theorem deep_atomicDisable {c : Fin n} (h : Deep (atomicDisable d c)) : Deep d := by
  obtain ⟨i, hlit, htenBit⟩ := h
  have hic : i ≠ c := by
    rintro rfl
    rw [atomicDisable_self] at hlit
    cases hlit
  refine ⟨i, ?_, ?_⟩
  · rwa [atomicDisable_of_ne hic] at hlit
  · unfold connectorProgrammedTenBit at htenBit ⊢
    rwa [atomicDisable_of_ne hic] at htenBit

theorem Alike.programmed (h : Alike d d') {c : Fin n} (hlit : (d c).lit = true) :
    connectorProgrammedTenBit d' c = connectorProgrammedTenBit d c := by
  unfold connectorProgrammedTenBit
  rw [(h c).2.2 hlit]

theorem Alike.deep (h : Alike d d') (hdeep : Deep d') : Deep d := by
  obtain ⟨c, hlit, htenBit⟩ := hdeep
  rw [(h c).2.1] at hlit
  exact ⟨c, hlit, (h.programmed hlit).symm.trans htenBit⟩

/-- **One step of a commit, in ten bits**: a link is driven so only where the decision has found
room, or where a framebuffer forces it. -/
theorem priced_applied (hbudget : 0 < l.dockPixelBudget) (hmax : l.dockPixelBudget < u32Max)
    (hready : f.Ready d) (hf : f.Priced l d) (hload : Deep d → load d ≤ deepBudget l)
    (h : Applied l d f d' (some f')) :
    f'.Priced l d' ∧ (Deep d' → load d' ≤ deepBudget l) := by
  have hready' := ready_applied hready h
  have hchecked : ∀ c, f.unchecked = [] → c ∉ f.down → (d c).lit = true →
      connectorProgrammedTenBit d c = true → f.outcome d ≤ deepBudget l := by
    intro c hnone hdown hlit htenBit
    exact bounded_checked hready (hload ⟨c, hlit, htenBit⟩) (hf.kept c hdown hlit htenBit) hnone
  cases h with
  | waits => exact ⟨hf, hload⟩
  | swaps hnone hswapped =>
    obtain ⟨-, houtcome, hsame⟩ := ready_swap hready hnone
    refine ⟨hf.mono (fun _ hc => hc) (Nat.le_of_eq houtcome) (fun c _ hc => ?_)
      (fun hdecided c hc hwire => ?_) (fun c hdown hlit htenBit => ?_) fun hfresh => ?_,
      fun hdeep => ?_⟩
    · rw [swapState_apply] at hc
      exact hc
    · rw [swapState_apply] at hwire
      exact (Nat.le_of_eq houtcome).trans (hf.decided hdecided c hc hwire)
    · rw [swapState_apply] at hlit
      unfold connectorProgrammedTenBit at htenBit
      rw [swapState_apply] at htenBit
      exact (Nat.le_of_eq houtcome).trans (hchecked c hnone hdown hlit htenBit)
    · intro c hcommit hlit hpresent
      rw [swapState_apply] at hlit hpresent ⊢
      exact hfresh c hcommit hlit hpresent
    · rw [hsame]
      exact hload (deep_swapState.1 hdeep)
  | disables c down hswapped hdown =>
    have hnone := (hready.swapped hswapped).1
    obtain ⟨-, houtcome, hless⟩ := ready_disable hready hswapped hdown
    have hlit : ∀ i, (atomicDisable d c i).lit = true → i ≠ c := by
      rintro i hi rfl
      rw [atomicDisable_self] at hi
      cases hi
    refine ⟨hf.mono (fun _ hi => hi) (Nat.le_of_eq houtcome) (fun i _ hi => ?_)
      (fun hdecided i hi hwire => ?_) (fun i hi hlit' htenBit => ?_) fun hfresh => ?_,
      fun hdeep => ?_⟩
    · rwa [atomicDisable_tenBit] at hi
    · rw [atomicDisable_wireTenBit] at hwire
      exact (Nat.le_of_eq houtcome).trans (hf.decided hdecided i hi hwire)
    · have hic := hlit i hlit'
      rw [atomicDisable_of_ne hic] at hlit'
      unfold connectorProgrammedTenBit at htenBit
      rw [atomicDisable_of_ne hic] at htenBit
      refine (Nat.le_of_eq houtcome).trans (hchecked i hnone ?_ hlit' htenBit)
      rw [hdown]
      exact fun h => hi ((List.mem_cons.1 h).resolve_left hic)
    · intro i hcommit hlit' hpresent
      have hic := hlit i hlit'
      rw [atomicDisable_of_ne hic] at hlit' hpresent ⊢
      exact hfresh i hcommit hlit' hpresent
    · exact hless.trans (hload (deep_atomicDisable hdeep))
  | decides c up hswapped hdown hup hdecided =>
    obtain ⟨new, hnew, -⟩ := hready.startable c (by rw [hup]; exact List.mem_cons_self)
    have heq : atomicRequest l f d c = Function.update d c
        ((d c).request l (otherConnectorsRate f.commit f.seen c) new) := by
      rw [atomicRequest, hnew]
    have halike : Alike d (atomicRequest l f d c) := by
      rw [heq]
      exact alike_update rfl rfl fun _ => rfl
    have hpresent : ∀ i, (atomicRequest l f d c i).present = true → (d i).present = true := by
      rw [heq]
      exact present_update id
    have houtcome : Flight.outcome { f with decided := true } (atomicRequest l f d c) ≤
        f.outcome d := halike.outcome_le hpresent
    refine ⟨hf.mono (fun _ hi => hi) houtcome (fun i _ hi => ?_) (fun _ i hi hwire => ?_)
      (fun i hi hlit htenBit => ?_) (halike.fresh hpresent), fun hdeep => ?_⟩
    · rw [heq] at hi
      by_cases hic : i = c
      · subst hic
        rwa [Function.update_self] at hi
      · rwa [Function.update_of_ne hic] at hi
    · refine houtcome.trans ?_
      have hi : i ∈ f.up.head? := hi
      rw [hup, List.head?_cons, Option.mem_some_iff] at hi
      subst hi
      cases hframe : (d c).tenBit with
      | true => exact hf.forced c (by rw [hup]; exact List.mem_cons_self) hframe
      | false =>
        rw [heq, Function.update_self] at hwire
        have hfits := wireTenBit_request hframe hwire
        exact hf.fresh.elim (fun h => outcome_le_of_fits hbudget hmax hready h hnew hfits) id
    · rw [(halike i).2.1] at hlit
      rw [halike.programmed hlit] at htenBit
      exact houtcome.trans (hchecked i (hready.swapped hswapped).1 hi hlit htenBit)
    · exact (halike.load_le hpresent).trans (hload (halike.deep hdeep))
  | publishes c up hswapped hdown hup hdecided =>
    obtain ⟨new, t, hnew, -, -, hdepth, -, heq⟩ :=
      atomicPublish_eq (l := l) hready (hready.swapped hswapped).1 (c := c) (by rw [hup]; simp)
    obtain ⟨-, houtcome⟩ := ready_publish (l := l) hready hswapped hdown hup
    have hkept : ∀ i, (atomicPublish l f.commit d c i).lit = true →
        connectorProgrammedTenBit (atomicPublish l f.commit d c) i = true →
          f.outcome d ≤ deepBudget l := by
      intro i hlit htenBit
      rw [heq] at hlit
      unfold connectorProgrammedTenBit at htenBit
      rw [heq] at htenBit
      by_cases hic : i = c
      · subst hic
        rw [Function.update_self] at htenBit
        dsimp only at htenBit
        rw [hdepth] at htenBit
        exact hf.decided hdecided i (by rw [hup]; rfl) htenBit
      · rw [Function.update_of_ne hic] at hlit htenBit
        exact hchecked i (hready.swapped hswapped).1 (by simp [hdown]) hlit htenBit
    refine ⟨hf.mono (fun i hi => ?_) (Nat.le_of_eq houtcome) (fun i _ hi => ?_)
      (fun h => by cases h) (fun i _ hlit htenBit => ?_) fun hfresh => ?_, fun hdeep => ?_⟩
    · rw [hup]
      exact List.mem_cons_of_mem c hi
    · rw [heq] at hi
      by_cases hic : i = c
      · subst hic
        rwa [Function.update_self] at hi
      · rwa [Function.update_of_ne hic] at hi
    · exact (Nat.le_of_eq houtcome).trans (hkept i hlit htenBit)
    · intro i hcommit hlit hpresent
      have hic : i ≠ c := by
        rintro rfl
        have hcommit : f.commit i = none := hcommit
        rw [hnew] at hcommit
        cases hcommit
      rw [heq, Function.update_of_ne hic] at hlit hpresent ⊢
      exact hfresh i hcommit hlit hpresent
    · obtain ⟨i, hlit, htenBit⟩ := hdeep
      exact (load_le_outcome hready'.1 hdown).trans
        ((Nat.le_of_eq houtcome).trans (hkept i hlit htenBit))

/-- A connector is changed in nothing that is driven, no monitor comes, and ten bits are new to it
only where they fit. -/
theorem DeepInv.update (hd : DeepInv l s) {s' : State n} {c : Fin n} {y : Connector}
    (hdock : s'.dock = Function.update s.dock c y) (hflights : s'.flights = s.flights)
    (hcrtc : y.crtc = (s.dock c).crtc) (hlit : y.lit = (s.dock c).lit)
    (htiming : (s.dock c).lit = true → y.lastTiming = (s.dock c).lastTiming)
    (hpresent : y.present = true → (s.dock c).present = true)
    (hframe : y.tenBit = true → (s.dock c).tenBit = true ∨
      ∀ f ∈ s.flights, c ∈ f.up → f.outcome s.dock ≤ deepBudget l)
    (hwire : y.wireTenBit l = true → (s.dock c).wireTenBit l = true ∨
      ∀ f ∈ s.flights, c ∈ f.up → f.outcome s.dock ≤ deepBudget l) : DeepInv l s' := by
  have halike := alike_update hcrtc hlit htiming
  have hgone := present_update (d := s.dock) hpresent
  constructor
  · rw [hdock]
    exact fun hdeep => (halike.load_le hgone).trans (hd.load (halike.deep hdeep))
  · rw [hdock, hflights]
    intro f hf
    have hpriced := hd.flights f hf
    have houtcome := halike.outcome_le (f := f) hgone
    refine ⟨fun i hi htenBit => houtcome.trans ?_, fun hdecided i hi htenBit => houtcome.trans ?_,
      fun i hi hlit' htenBit => ?_, ?_⟩
    · by_cases hic : i = c
      · subst hic
        rw [Function.update_self] at htenBit
        exact (hframe htenBit).elim (hpriced.forced i hi) fun h => h f hf hi
      · rw [Function.update_of_ne hic] at htenBit
        exact hpriced.forced i hi htenBit
    · by_cases hic : i = c
      · subst hic
        rw [Function.update_self] at htenBit
        exact (hwire htenBit).elim (hpriced.decided hdecided i hi) fun h =>
          h f hf (List.mem_of_mem_head? hi)
      · rw [Function.update_of_ne hic] at htenBit
        exact hpriced.decided hdecided i hi htenBit
    · rw [(halike i).2.1] at hlit'
      rw [halike.programmed hlit'] at htenBit
      exact (hpriced.kept i hi hlit' htenBit).imp houtcome.trans fun h => halike.unpriced hgone h
    · exact hpriced.fresh.imp (halike.fresh hgone) houtcome.trans

/-- A step of a commit under way. -/
theorem DeepInv.onFlight {k : ℕ} {g : Flight n → Dock n × Option (Flight n)} (hs : Inv l s)
    (hd : DeepInv l s)
    (hstep : ∀ f, f.Ready s.dock → f.Priced l s.dock →
      (Deep (g f).1 → Commits.load (g f).1 ≤ deepBudget l) ∧
        ∀ f' ∈ (g f).2, f'.Priced l (g f).1) : DeepInv l (s.onFlight k g) := by
  rcases hs.flights with ⟨hnil, -⟩ | ⟨f, hf, hready, -⟩
  · rw [onFlight_nil hnil]
    exact hd
  · rcases onFlight_cases hf k g with h | ⟨hdock, hflights⟩
    · rw [h]
      exact hd
    · have hmem : f ∈ s.flights := by rw [hf]; exact List.mem_cons_self
      obtain ⟨hload, hpriced⟩ := hstep f hready (hd.flights f hmem)
      constructor
      · rw [hdock]
        exact hload
      · rw [hdock, hflights]
        exact fun f' hf' => hpriced f' (Option.mem_toList.1 hf')

/-- **One step, in ten bits.** -/
theorem deepInv_step (hbudget : 0 < l.dockPixelBudget) (hmax : l.dockPixelBudget < u32Max)
    (hs : Inv l s) (hd : DeepInv l s) (e : Event n) (horder : Orderly s e)
    (hroom : PricedRoom l s e) : DeepInv l (step l s e) := by
  cases e with
  | begin commit =>
    obtain ⟨hnil, hstate⟩ := horder
    refine ⟨hd.load, fun f hf => ?_⟩
    have hf : f ∈ s.flights ++ [Flight.start commit s.dock] := hf
    rw [hnil, List.nil_append, List.mem_singleton] at hf
    subst hf
    exact priced_start hbudget hmax (ready_start (hs.sound hnil) hstate) hs.held hroom
  | look k c =>
    refine hd.onFlight hs fun f _ hpriced => ⟨hd.load, fun f' hf' => ?_⟩
    rw [Option.mem_some_iff] at hf'
    subst hf'
    exact priced_look hs.held hpriced c
  | check k =>
    refine hd.onFlight hs fun f hready hpriced => ⟨hd.load, fun f' hf' => ?_⟩
    rcases check_cases hf' with ⟨rfl, -⟩ | ⟨c, unchecked, hlist, rfl, hok⟩
    · exact hpriced
    · exact priced_check hbudget hmax hready hpriced hlist hok
  | drop k =>
    refine hd.onFlight hs fun f _ hpriced => ⟨hd.load, fun f' hf' => ?_⟩
    dsimp only at hf'
    split_ifs at hf'
    · cases hf'
    · rw [Option.mem_some_iff] at hf'
      rwa [← hf']
  | apply k =>
    refine hd.onFlight hs fun f hready hpriced => ?_
    have happlied := apply_applied l s.dock f
    revert happlied
    generalize (f.apply l s.dock).1 = d'
    cases (f.apply l s.dock).2 with
    | none =>
      intro happlied
      cases happlied with
      | ends => exact ⟨hd.load, fun _ h => by cases h⟩
    | some f' =>
      intro happlied
      obtain ⟨hpriced', hload'⟩ := priced_applied hbudget hmax hready hpriced hd.load happlied
      refine ⟨hload', fun f'' hf'' => ?_⟩
      rw [Option.mem_some_iff] at hf''
      rwa [← hf'']
  | framebuffer c tenBit =>
    have hfits : tenBit = true → ∀ f ∈ s.flights, c ∈ f.up → f.outcome s.dock ≤ deepBudget l := by
      intro htenBit f hf hup
      obtain ⟨new, hnew, -⟩ := (hs.ready hf).startable c hup
      exact outcome_le_of_fits hbudget hmax (hs.ready hf) (fresh_self hs.held f.commit) hnew
        (hroom htenBit f hf hup new hnew)
    refine hd.update rfl rfl rfl rfl (fun _ => rfl) id (fun h => .inr (hfits h)) fun hwire => ?_
    cases tenBit with
    | true => exact .inr (hfits rfl)
    | false =>
      left
      unfold Connector.wireTenBit at hwire ⊢
      cases hframe : (s.dock c).tenBit with
      | true => rfl
      | false => exact hwire
  | setConnected c =>
    by_cases hpresent : (s.dock c).present = true
    · have hsame : step l s (.setConnected c) = s := by
        show { s with dock := setPresent s.dock c true } = s
        rw [setPresent_of_present hpresent]
      rw [hsame]
      exact hd
    · obtain ⟨hload, houtcome⟩ := hroom.resolve_left hpresent
      rw [Bool.not_eq_true] at hpresent
      have halike := alike_setPresent (d := s.dock) c true
      refine ⟨fun hdeep => ?_, fun f hf => ?_⟩
      · show load (setPresent s.dock c true) ≤ _
        rw [load_setPresent hpresent]
        rwa [price, decide_eq_true (halike.deep hdeep)] at hload
      · have hle : f.outcome (setPresent s.dock c true) ≤ deepBudget l := by
          rw [outcome_setPresent hpresent]
          exact houtcome f hf
        exact ⟨fun _ _ _ => hle, fun _ _ _ _ => hle, fun _ _ _ _ => .inl hle, .inr hle⟩
  | setDisconnected c =>
    exact hd.update rfl rfl rfl rfl (fun _ => rfl) (fun h => by cases h) .inl .inl
  | join c timing idle =>
    show DeepInv l (s.join l c timing idle)
    unfold State.join
    split_ifs
    · exact ⟨hd.load, hd.flights⟩
    · exact hd
  | joinStore =>
    show DeepInv l s.joinStore
    unfold State.joinStore
    cases hj : s.joining with
    | none => exact hd
    | some j =>
      dsimp only
      split_ifs with hstored
      · have hdark := dark_of_joining hs horder hj hstored
        refine hd.update rfl rfl rfl rfl (fun h => ?_) id .inl .inl
        rw [hdark] at h
        cases h
      · exact hd.update rfl rfl rfl rfl (fun _ => rfl) id .inl .inl

/-- **While a connector is driven at ten bits, the dock stays within three quarters of its budget**,
if a monitor that comes finds room at that depth and no framebuffer forces it where it does not
fit. -/
theorem ten_bit_within_budget (l : Limits) (hbudget : 0 < l.dockPixelBudget)
    (hmax : l.dockPixelBudget < u32Max) (es : List (Event n))
    (hroom : Along (fun s e => Orderly s e ∧ PricedRoom l s e) (step l) State.start es) (j : ℕ) :
    load (run (step l) State.start (es.take j)).dock ≤
      price l (run (step l) State.start (es.take j)).dock := by
  rw [← List.take_append_drop j es, along_append] at hroom
  have hrun := run_invariant (P := fun s => Inv l s ∧ DeepInv l s) ?_ (es.take j) State.start ?_
    hroom.1
  · unfold price
    by_cases hdeep : Deep (run (step l) State.start (es.take j)).dock
    · rw [decide_eq_true hdeep]
      exact hrun.2.load hdeep
    · rw [decide_eq_false hdeep]
      simpa [budgetAtDepth] using hrun.1.load
  · rintro s e ⟨hs, hd⟩ ⟨horder, hpriced⟩
    exact ⟨inv_step hbudget hmax hs e horder (room_of_priced hpriced),
      deepInv_step hbudget hmax hs hd e horder hpriced⟩
  · refine ⟨inv_start, fun hdeep => ?_, fun f hf => by cases hf⟩
    obtain ⟨c, hlit, -⟩ := hdeep
    cases hlit

theorem ten_bit_within_budget_comesBack :
    load (run (step navarroLimits) State.start (comesBack hdr)).dock = 884736000 ∧
    price navarroLimits (run (step navarroLimits) State.start (comesBack hdr)).dock = 912384000 ∧
    ∀ j, load (run (step navarroLimits) State.start ((comesBack hdr).take j)).dock ≤
      price navarroLimits (run (step navarroLimits) State.start ((comesBack hdr).take j)).dock :=
  ⟨by decide +kernel, by decide +kernel, ten_bit_within_budget navarroLimits (by decide) (by decide)
    (comesBack hdr) (by decide +kernel)⟩

end TenBits

end Vino.Kms.Commits
