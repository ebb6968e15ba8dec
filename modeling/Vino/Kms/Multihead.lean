import Vino.Kms.Activation

/-!
# Multihead Activations

A batch that brings up two connectors or more does so in one transaction, and its mode sets are done
with once that has succeeded.  Every connector of the batch, or folded into it, is then lit at the
generation of the transaction, with its set-mode sent, or has a newer request on its way.

* `multihead_complete`: this holds in every run in which a transaction has no more than the two
  connectors its timeline has slots for, and leaves out no connector whose request still stands, and
  no connector is enabled while the worker has it join at its sibling's mode,
* `third_left_dark`: the third connector of a batch is left dark, its mode set done with.
-/

namespace Vino.Kms.Multihead

open Vino.Profile Vino.Lib.Run
open Vino.Kms.Mailbox (count timingKey timingKey_ne_zero)
open Vino.Kms.Timeline Vino.Kms.Activation

local instance neZero_four : NeZero 4 := ⟨by decide⟩

variable {τ : Type}

/-! ### What a batch owes -/

/-- A newer request is on its way: in the mailbox, or with a callback that is to publish it. -/
def Pending (s : State τ) (c : Fin 4) : Prop := (s.mailbox c).isSome ∨ (s.calls c).isSome

/-- The transaction brings up the connectors of a batch together. -/
def Together (a : Transaction τ) : Prop := a.kind = .dualWake ∨ a.kind = .dockWide false

/-- The mode set in hand for a connector is still the one that is wanted. -/
def current (hash : τ → ℕ) (s : State τ) (c : Fin 4) : Bool :=
  match s.hand c with
  | some (.modeSet t) => s.modesetRequested c == timingKey hash t
  | _ => false

/-- The transaction has slots for all its connectors; none that the batch names is left out, and
none has been lit by its own scanout worker meanwhile, while its request stands.  One that joins is
still not asked for when its timing and its request are stored. -/
def Roomy (hash : τ → ℕ) (s : State τ) : Event τ → Prop
  | .work _ =>
      match s.worker with
      | .joining _ (.timing c) .. => s.modesetRequested c = 0
      | .joining t (.request c) .. => s.modesetRequested c = 0 ∧ s.lastTiming c = some t
      | .entering a (c :: _) =>
          a.kind = .dualWake → (a.timings c).isSome → s.modesetActive c = 0
      | .entering a [] => Together a → count a.valid ≤ 2 ∧
          ∀ c, a.connectors c = true → a.timings c = none → current hash s c = false
      | _ => True
  | _ => True

section Invariant

variable {p : DockProfile} {hash : τ → ℕ} {dualNivo : Bool → τ → τ} {s s' : State τ}
  {a : Transaction τ}

/-- The request for a connector is the one of this timing, or a newer one is on its way. -/
def Stands (hash : τ → ℕ) (s : State τ) (c : Fin 4) (t : τ) : Prop :=
  s.modesetRequested c = timingKey hash t ∨ Pending s c

/-- Mode sets that wait, or are in hand, and the request they are for. -/
structure Queued (hash : τ → ℕ) (s : State τ) : Prop where
  calls : ∀ c t, s.calls c = some (.modeSet t) → s.modesetRequested c = timingKey hash t
  mailbox : ∀ c t, s.mailbox c = some (.modeSet t) →
    s.modesetRequested c = timingKey hash t ∨ (s.calls c).isSome
  hand : ∀ c t, s.hand c = some (.modeSet t) → Stands hash s c t
  last : ∀ c, s.modesetRequested c ≠ 0 →
    ∃ t, s.lastTiming c = some t ∧ s.modesetRequested c = timingKey hash t

/-- Timings that were taken for current requests. -/
def Backed (hash : τ → ℕ) (s : State τ) (timings : Fin 4 → Option τ) : Prop :=
  ∀ c t, timings c = some t → Stands hash s c t

/-- A connector without a timing is named by a mode set in hand. -/
def Named (s : State τ) (connectors : Fin 4 → Bool) (timings : Fin 4 → Option τ) : Prop :=
  ∀ c, connectors c = true → timings c = none → ∃ t, s.hand c = some (.modeSet t)

/-- A transaction that has begun: it misses no connector, and what it has programmed is in force. -/
structure Taken (s : State τ) (a : Transaction τ) : Prop where
  all : ∀ c, a.connectors c = true → a.valid c = true ∨ Pending s c
  two : count a.valid = 2
  keys : ∀ c, a.valid c = true → a.keys c ≠ 0
  sent : ∀ c, a.sent c = true → a.valid c = true ∧
    (∃ t, Entry.sent (.setMode c t) true ∈ a.log) ∧
    (s.modesetActive c = a.keys c ∨ Pending s c)

/-- What is still to run addresses participants; behind the script both are programmed. -/
def Rest (a : Transaction τ) (todo : List (Op τ)) (tail : Option (List (Op τ))) : Prop :=
  Within a.valid todo ∧ match tail with
    | some tail => Within a.valid tail
    | none => 2 ≤ count a.sent

/-- The set-mode of this connector has just gone out. -/
def Programmed (a : Transaction τ) (c : Fin 4) : Prop :=
  a.valid c = true ∧ ∃ t, Entry.sent (.setMode c t) true ∈ a.log

/-- The connectors that have been looked at take part, or have a newer request. -/
structure Entering (hash : τ → ℕ) (s : State τ) (a : Transaction τ) (todo : List (Fin 4)) :
    Prop where
  backed : ∀ c t, a.valid c = false → a.timings c = some t → Stands hash s c t
  seen : ∀ c, c ∉ todo → (a.timings c).isSome → a.valid c = true ∨ Pending s c
  named : Named s a.connectors a.timings
  keys : ∀ c, a.valid c = true → a.keys c ≠ 0
  sent : ∀ c, a.sent c = false

def Whole (hash : τ → ℕ) (s : State τ) : Worker τ → Prop
  | .free => True
  | .gathering _ timings => Backed hash s timings
  | .joining _ _ connectors _ timings => Backed hash s timings ∧ Named s connectors timings
  | .folding connectors _ timings fold => Backed hash s timings ∧ Backed hash s fold ∧
      Named s connectors timings
  | .entering a todo => Together a → Entering hash s a todo
  | .preparing a _ => Together a → Taken s a
  | .running a todo tail => Together a → Taken s a ∧ Rest a todo tail
  | .checking a c todo tail => Together a → Taken s a ∧ Rest a todo tail ∧ Programmed a c
  | .storing a c todo tail => Together a → Taken s a ∧ Rest a todo tail ∧ Programmed a c
  | .unwinding _ _ r => r ≠ .activated
  | .ended a r => Together a → r = .activated → Taken s a ∧ 2 ≤ count a.sent

/-- A callback leaves a request alone, or puts a newer one on its way. -/
structure Moves (s s' : State τ) : Prop where
  pending : ∀ c, Pending s c → Pending s' c
  requested : ∀ c, s'.modesetRequested c = s.modesetRequested c ∨ Pending s' c
  active : ∀ c, s'.modesetActive c = s.modesetActive c ∨ Pending s' c
  hand : s'.hand = s.hand

theorem Moves.stands (h : Moves s s') {c : Fin 4} {t : τ} (hs : Stands hash s c t) :
    Stands hash s' c t := by
  rcases hs with hs | hs
  · rcases h.requested c with heq | hpending
    · exact .inl (heq.trans hs)
    · exact .inr hpending
  · exact .inr (h.pending c hs)

theorem Moves.taken (h : Moves s s') (ht : Taken s a) : Taken s' a := by
  refine ⟨fun c hc => (ht.all c hc).imp_right (h.pending c), ht.two, ht.keys, fun c hc => ?_⟩
  obtain ⟨hvalid, hlog, hactive⟩ := ht.sent c hc
  refine ⟨hvalid, hlog, ?_⟩
  rcases hactive with hactive | hpending
  · rcases h.active c with heq | hpending
    · exact .inl (heq.trans hactive)
    · exact .inr hpending
  · exact .inr (h.pending c hpending)

theorem Moves.entering (h : Moves s s') {todo : List (Fin 4)} (he : Entering hash s a todo) :
    Entering hash s' a todo :=
  ⟨fun c t hvalid ht => h.stands (he.backed c t hvalid ht),
    fun c hc ht => (he.seen c hc ht).imp_right (h.pending c),
    fun c hc ht => by rw [h.hand]; exact he.named c hc ht, he.keys, he.sent⟩

/-- **Callbacks leave a transaction whole.** -/
theorem Moves.whole (h : Moves s s') {w : Worker τ} (hw : Whole hash s w) : Whole hash s' w := by
  have hbacked : ∀ {timings : Fin 4 → Option τ}, Backed hash s timings → Backed hash s' timings :=
    fun hb c t ht => h.stands (hb c t ht)
  have hnamed : ∀ {connectors : Fin 4 → Bool} {timings : Fin 4 → Option τ},
      Named s connectors timings → Named s' connectors timings := by
    intro connectors timings hn
    rw [Named, h.hand]
    exact hn
  cases w with
  | free => trivial
  | gathering todo timings => exact hbacked hw
  | joining t next connectors todo timings => exact ⟨hbacked hw.1, hnamed hw.2⟩
  | folding connectors todo timings fold =>
      exact ⟨hbacked hw.1, hbacked hw.2.1, hnamed hw.2.2⟩
  | entering a todo => exact fun hk => h.entering (hw hk)
  | preparing a todo => exact fun hk => h.taken (hw hk)
  | running a todo tail => exact fun hk => ⟨h.taken (hw hk).1, (hw hk).2⟩
  | checking a c todo tail => exact fun hk => ⟨h.taken (hw hk).1, (hw hk).2⟩
  | storing a c todo tail => exact fun hk => ⟨h.taken (hw hk).1, (hw hk).2⟩
  | unwinding a todo r => exact hw
  | ended a r => exact fun hk hr => ⟨h.taken (hw hk hr).1, (hw hk hr).2⟩

/-- Nothing a batch owes depends on the rest of the state. -/
theorem Moves.same (hmailbox : s'.mailbox = s.mailbox) (hcalls : s'.calls = s.calls)
    (hrequested : s'.modesetRequested = s.modesetRequested)
    (hactive : s'.modesetActive = s.modesetActive) (hhand : s'.hand = s.hand) : Moves s s' := by
  refine ⟨fun c hc => ?_, fun c => .inl (by rw [hrequested]), fun c => .inl (by rw [hactive]),
    hhand⟩
  rw [Pending, hmailbox, hcalls]
  exact hc

theorem Whole.same {w : Worker τ} (h : Whole hash s w) (hw : s'.worker = w)
    (hmailbox : s'.mailbox = s.mailbox) (hcalls : s'.calls = s.calls)
    (hrequested : s'.modesetRequested = s.modesetRequested)
    (hactive : s'.modesetActive = s.modesetActive) (hhand : s'.hand = s.hand) :
    Whole hash s' s'.worker := by
  rw [hw]
  exact (Moves.same hmailbox hcalls hrequested hactive hhand).whole h

/-! ### Steps of the worker -/

theorem Taken.note (h : Taken s a) (e : Entry τ) : Taken s (a.note e) := by
  refine ⟨h.all, h.two, h.keys, fun c hc => ?_⟩
  obtain ⟨hvalid, ⟨t, ht⟩, hactive⟩ := h.sent c hc
  exact ⟨hvalid, ⟨t, List.mem_cons_of_mem _ ht⟩, hactive⟩

theorem Together.wanted (h : Together a) : a.wanted = 2 := by
  rcases h with h | h
  · simp [Transaction.wanted, h]
  · rw [Transaction.wanted, h]
    decide

theorem Together.ne_head (h : Together a) : a.kind ≠ .head := by
  rcases h with h | h <;> simp [h]

theorem Rest.tail {op : Op τ} {todo : List (Op τ)} {tail : Option (List (Op τ))}
    (h : Rest a (op :: todo) tail) : Rest a todo tail :=
  ⟨(within_cons.1 h.1).2, h.2⟩

theorem whole_transmit {m : Message τ} {o : Outcome} {next : Transaction τ → Worker τ}
    (h : Whole hash s (next (a.note (.sent m true)))) :
    Whole hash (s.transmit a m o next) (s.transmit a m o next).worker := by
  unfold State.transmit
  split_ifs
  · exact h.same rfl rfl rfl rfl rfl rfl
  · simp [State.fail, State.unwind, Whole]

theorem whole_settle {tail : List (Op τ)} (h : Together a → Taken s a ∧ Within a.valid tail) :
    Whole hash (s.settle a tail) (s.settle a tail).worker := by
  unfold State.settle
  split_ifs with hshort hdual
  · exact fun _ hr => by cases hr
  · simp [State.unwind, Whole]
  · have hrun : Whole hash s (.running a tail none) := by
      intro hk
      have := Together.wanted hk
      exact ⟨(h hk).1, (h hk).2, by dsimp only; omega⟩
    exact hrun.same rfl rfl rfl rfl rfl rfl

theorem whole_exec {op : Op τ} {todo : List (Op τ)} {tail : Option (List (Op τ))}
    (h : Together a → Taken s a ∧ Rest a (op :: todo) tail) (o : Outcome) :
    Whole hash (s.exec a todo tail o op) (s.exec a todo tail o op).worker := by
  have hsend : ∀ m : Message τ, Whole hash s (.running (a.note (.sent m true)) todo tail) :=
    fun m hk => ⟨(h hk).1.note _, (h hk).2.tail⟩
  have hskip : Whole hash s (.running a todo tail) := fun hk => ⟨(h hk).1, (h hk).2.tail⟩
  cases op with
  | send m => exact whole_transmit (hsend m)
  | sendIf c m =>
      simp only [State.exec]
      split_ifs
      · exact whole_transmit (hsend m)
      · exact hskip.same rfl rfl rfl rfl rfl rfl
  | attempt m =>
      have hrun : Whole hash s (.running { a.note (.sent m (s.live && o.ok)) with
          failed := a.failed || !(s.live && o.ok) } todo tail) := by
        intro hk
        have hnote := (h hk).1.note (.sent m (s.live && o.ok))
        exact ⟨⟨hnote.all, hnote.two, hnote.keys, hnote.sent⟩, (h hk).2.tail⟩
      exact hrun.same rfl rfl rfl rfl rfl rfl
  | raise =>
      simp only [State.exec]
      split_ifs
      · simp [State.fail, State.unwind, Whole]
      · exact hskip.same rfl rfl rfl rfl rfl rfl
  | invalid => simp [State.exec, State.fail, State.unwind, Whole]
  | program c t =>
      have htransmit : Whole hash (s.transmit a (.setMode c t) o fun a => .checking a c todo tail)
          (s.transmit a (.setMode c t) o fun a => .checking a c todo tail).worker := by
        refine whole_transmit fun hk => ⟨(h hk).1.note _, (h hk).2.tail, ?_, t, ?_⟩
        · exact (within_cons.1 (h hk).2.1).1
        · exact List.mem_cons_self
      simp only [State.exec]
      split_ifs
      · exact htransmit.same rfl rfl rfl rfl rfl rfl
      · exact htransmit

theorem whole_check {c : Fin 4} {todo : List (Op τ)} {tail : Option (List (Op τ))}
    (h : Together a → Taken s a ∧ Rest a todo tail ∧ Programmed a c) :
    Whole hash (s.check a c todo tail) (s.check a c todo tail).worker := by
  have hstore : Whole hash s (.storing a c todo tail) := h
  have hrun : Whole hash s (.running a todo tail) := fun hk => ⟨(h hk).1, (h hk).2.1⟩
  unfold State.check
  split_ifs
  · exact hstore.same rfl rfl rfl rfl rfl rfl
  · split
    · simp [State.unwind, Whole]
    · exact hrun.same rfl rfl rfl rfl rfl rfl
    · exact whole_settle fun hk => ⟨(h hk).1, within_nil⟩

theorem count_le_update {p : Fin 4 → Bool} (c : Fin 4) :
    count p ≤ count (Function.update p c true) := by
  refine List.countP_mono_left fun c' _ hc' => ?_
  by_cases heq : c' = c
  · simp [heq]
  · simpa [heq] using hc'

/-- **The mode is put in force.** -/
theorem taken_store {c : Fin 4} (h : Taken s a) (hc : Programmed a c) :
    Taken { s with modesetActive := Function.update s.modesetActive c (a.keys c) }
      { a with sent := Function.update a.sent c true } := by
  refine ⟨h.all, h.two, h.keys, fun c' hc' => ?_⟩
  by_cases heq : c' = c
  · subst heq
    exact ⟨hc.1, hc.2, .inl (by simp)⟩
  · obtain ⟨hvalid, hlog, hactive⟩ := h.sent c' (by simpa [heq] using hc')
    refine ⟨hvalid, hlog, hactive.imp_left fun hkey => ?_⟩
    simpa [heq] using hkey

theorem whole_prepareStep {pre : Pre} {todo : List Pre} (h : Together a → Taken s a) (o : Outcome) :
    Whole hash (s.prepareStep p a todo o pre) (s.prepareStep p a todo o pre).worker := by
  have hskip : ∀ todo : List Pre, Whole hash s (.preparing a todo) := fun _ => h
  have hnote : ∀ (e : Entry τ) (todo : List Pre), Whole hash s (.preparing (a.note e) todo) :=
    fun e _ hk => (h hk).note e
  cases pre with
  | recheck =>
      simp only [State.prepareStep]
      split_ifs
      · exact fun _ hr => by cases hr
      · exact (hskip todo).same rfl rfl rfl rfl rfl rfl
  | closeBlank c =>
      simp only [State.prepareStep]
      split_ifs
      · exact (hnote _ _).same rfl rfl rfl rfl rfl rfl
      · exact (hnote _ _).same rfl rfl rfl rfl rfl rfl
      · exact fun _ hr => by cases hr
      · exact (hskip todo).same rfl rfl rfl rfl rfl rfl
  | clearBlank c => exact (hskip todo).same rfl rfl rfl rfl rfl rfl
  | closeProbe c =>
      simp only [State.prepareStep]
      split_ifs
      · exact (hnote _ _).same rfl rfl rfl rfl rfl rfl
      · exact (hnote _ _).same rfl rfl rfl rfl rfl rfl
      · exact (hskip todo).same rfl rfl rfl rfl rfl rfl

/-- A connector that is turned away has a newer request. -/
theorem whole_enter {c : Fin 4} {todo : List (Fin 4)}
    (h : Together a → Entering hash s a (c :: todo))
    (hroomy : a.kind = .dualWake → (a.timings c).isSome → s.modesetActive c = 0) :
    Whole hash s (.entering (s.enter p hash dualNivo a c) todo) := by
  unfold State.enter
  split
  case h_1 ht =>
    intro hk
    obtain ⟨hbacked, hseen, hnamed, hkeys, hsent⟩ := h hk
    refine ⟨hbacked, fun c' hc' hsome => ?_, hnamed, hkeys, hsent⟩
    by_cases heq : c' = c
    · rw [heq, ht] at hsome
      cases hsome
    · exact hseen c' (by simp [heq, hc']) hsome
  case h_2 t ht =>
    split_ifs with hvalid
    · intro hk
      obtain ⟨hbacked, hseen, hnamed, hkeys, hsent⟩ := h hk
      refine ⟨fun c' t' hc' ht' => ?_, fun c' hc' hsome => ?_, fun c' hc' hnone => ?_,
        fun c' hc' => ?_, hsent⟩
      · have hne : c' ≠ c := by
          rintro rfl
          simp at hc'
        exact hbacked c' t' (by simpa [hne] using hc') (by simpa [hne] using ht')
      · by_cases heq : c' = c
        · exact .inl (by simp [heq])
        · simpa [heq] using hseen c' (by simp [heq, hc']) (by simpa [heq] using hsome)
      · have hne : c' ≠ c := by
          rintro rfl
          simp at hnone
        exact hnamed c' hc' (by simpa [hne] using hnone)
      · by_cases heq : c' = c
        · subst heq
          simpa using timingKey_ne_zero hash t
        · simpa [heq] using hkeys c' (by simpa [heq] using hc')
    · intro hk
      obtain ⟨hbacked, hseen, hnamed, hkeys, hsent⟩ := h hk
      refine ⟨hbacked, fun c' hc' hsome => ?_, hnamed, hkeys, hsent⟩
      by_cases heq : c' = c
      · subst heq
        by_cases hin : a.valid c' = true
        · exact .inl hin
        · refine .inr ((hbacked c' t (by simpa using hin) ht).resolve_left fun hreq => ?_)
          exact hvalid ⟨hreq, fun hdual => hroomy hdual hsome⟩
      · exact hseen c' (by simp [heq, hc']) hsome

/-- **The transaction begins** with every connector that has no newer request. -/
theorem taken_entered (hq : Queued hash s) (h : Entering hash s a []) (hk : Together a)
    (hshort : ¬count a.valid < a.wanted)
    (hroomy : count a.valid ≤ 2 ∧
      ∀ c, a.connectors c = true → a.timings c = none → current hash s c = false) :
    Taken s a := by
  have hwanted := hk.wanted
  refine ⟨fun c hc => ?_, by omega, h.keys, fun c hc => ?_⟩
  · cases ht : a.timings c with
    | none =>
        obtain ⟨t, hhand⟩ := h.named c hc ht
        refine .inr ((hq.hand c t hhand).resolve_left fun hreq => ?_)
        have hout := hroomy.2 c hc ht
        simp [current, hhand, hreq] at hout
    | some t => exact h.seen c (by simp) (by rw [ht]; rfl)
  · rw [h.sent c] at hc
    cases hc

theorem whole_entered (hq : Queued hash s) (h : Together a → Entering hash s a [])
    (hroomy : Together a → count a.valid ≤ 2 ∧
      ∀ c, a.connectors c = true → a.timings c = none → current hash s c = false) :
    Whole hash (s.entered a) (s.entered a).worker := by
  unfold State.entered
  split_ifs with hshort hdual
  · exact fun _ hr => by cases hr
  · have hprepare : Whole hash s (.preparing a a.prepare) :=
      fun hk => taken_entered hq (h hk) hk hshort (hroomy hk)
    exact hprepare.same rfl rfl rfl rfl rfl rfl
  · intro hk
    have htaken := taken_entered hq (h hk) hk hshort (hroomy hk)
    unfold State.zero
    rw [if_neg hdual]
    refine ⟨htaken.all, htaken.two, htaken.keys, fun c hc => ?_⟩
    rw [(h hk).sent c] at hc
    cases hc

/-- The batch is brought up together, or left to its commands. -/
theorem whole_choose {connectors : Fin 4 → Bool} {timings : Fin 4 → Option τ}
    (hbacked : Backed hash s timings) (hnamed : Named s connectors timings) :
    Whole hash (s.choose p connectors timings) (s.choose p connectors timings).worker := by
  have henter : ∀ kind : Kind, Whole hash s
      (.entering (.start kind connectors s.requestedMask timings) (List.finRange 4)) := by
    intro kind _
    refine ⟨fun c t _ ht => hbacked c t ht, fun c hc => ?_, hnamed, fun c hc => ?_, fun _ => rfl⟩
    · exact absurd (List.mem_finRange c) hc
    · cases hc
  unfold State.choose
  dsimp only
  split_ifs
  · exact (henter _).same rfl rfl rfl rfl rfl rfl
  · exact (henter _).same rfl rfl rfl rfl rfl rfl
  · trivial

theorem exists_modeSet {c : Fin 4} (h : s.named c = true) : ∃ t, s.hand c = some (.modeSet t) := by
  unfold State.named at h
  split at h
  case h_1 t ht => exact ⟨t, ht⟩
  case h_2 => cases h

theorem stands_gatherTiming {c : Fin 4} {t : τ} (h : s.gatherTiming hash c = some t) :
    Stands hash s c t := by
  unfold State.gatherTiming at h
  split at h
  case h_1 t' _ =>
    split_ifs at h with hwake
    obtain rfl := Option.some.inj h
    exact .inl hwake.2
  case h_2 => cases h

theorem stands_foldTiming (hq : Queued hash s) {connectors : Fin 4 → Bool} {c : Fin 4} {t : τ}
    (h : s.foldTiming hash connectors c = some t) : Stands hash s c t := by
  unfold State.foldTiming at h
  split_ifs at h with hnamed hlit
  · obtain ⟨-, hreq⟩ := Option.filter_eq_some_iff.1 h
    exact .inl (by simpa using hreq)
  · obtain ⟨t', ht', hreq⟩ := hq.last c (by rw [hlit.2]; exact hlit.1)
    rw [ht'] at h
    obtain rfl := Option.some.inj h
    exact .inl hreq

theorem backed_update {timings : Fin 4 → Option τ} (h : Backed hash s timings) {c : Fin 4}
    {timing : Option τ} (hc : ∀ t, timing = some t → Stands hash s c t) :
    Backed hash s (Function.update timings c timing) := by
  intro c' t ht
  by_cases heq : c' = c
  · subst heq
    exact hc t (by simpa using ht)
  · exact h c' t (by simpa [heq] using ht)

theorem whole_joined {connectors : Fin 4 → Bool} {timings : Fin 4 → Option τ}
    (hbacked : Backed hash s timings) (hnamed : Named s connectors timings) :
    Whole hash (s.joined p connectors timings) (s.joined p connectors timings).worker := by
  have hnone : Backed hash s fun _ => none := by
    intro c t ht
    cases ht
  unfold State.joined
  split_ifs
  · have hfold : Whole hash s (.folding connectors (List.finRange 4) timings fun _ => none) :=
      ⟨hbacked, hnone, hnamed⟩
    exact hfold.same rfl rfl rfl rfl rfl rfl
  · exact whole_choose hbacked hnamed

/-- A connector that joins has a timing, and a request for it. -/
theorem whole_join {t : τ} {next : Join} {connectors : Fin 4 → Bool} {todo : List (Fin 4)}
    {timings : Fin 4 → Option τ} (h : Whole hash s (.joining t next connectors todo timings)) :
    Whole hash (s.join p hash t next connectors todo timings)
      (s.join p hash t next connectors todo timings).worker := by
  have hsame : ∀ (next : Join) (todo : List (Fin 4)),
      Whole hash s (.joining t next connectors todo timings) := fun _ _ => h
  unfold State.join
  split
  case h_1 => exact (hsame _ _).same rfl rfl rfl rfl rfl rfl
  case h_2 => exact whole_joined h.1 h.2
  case h_3 => exact (hsame _ _).same rfl rfl rfl rfl rfl rfl
  case h_4 c =>
    refine ⟨fun c' t' ht' => ?_, fun c' hc' hnone => ?_⟩
    · by_cases heq : c' = c
      · subst heq
        obtain rfl : t = t' := by simpa using ht'
        exact .inl (Function.update_self ..)
      · refine (h.1 c' t' (by simpa [heq] using ht')).imp_left fun hreq => ?_
        exact (Function.update_of_ne heq ..).trans hreq
    · have hne : c' ≠ c := by
        rintro rfl
        simp at hnone
      exact h.2 c' (by simpa [hne] using hc') (by simpa [hne] using hnone)

theorem whole_gathered {timings : Fin 4 → Option τ} (h : Backed hash s timings) :
    Whole hash (s.gathered p timings) (s.gathered p timings).worker := by
  have hnamed : Named s s.named timings := fun c hc _ => exists_modeSet hc
  unfold State.gathered
  split
  · exact whole_joined h hnamed
  · rename_i t _
    split_ifs
    · have hjoin : Whole hash s (.joining t .look s.named (List.finRange 4) timings) :=
        ⟨h, hnamed⟩
      exact hjoin.same rfl rfl rfl rfl rfl rfl
    · exact whole_joined h hnamed

theorem whole_folded {connectors : Fin 4 → Bool} {timings fold : Fin 4 → Option τ}
    (h : Whole hash s (.folding connectors [] timings fold)) :
    Whole hash (s.folded p connectors timings fold)
      (s.folded p connectors timings fold).worker := by
  obtain ⟨htimings, hfold, hnamed⟩ := h
  unfold State.folded
  split_ifs
  · refine whole_choose (fun c t ht => ?_) fun c hc hnone => ?_
    · rcases Option.or_eq_some_iff.1 ht with hsome | ⟨-, hsome⟩
      · exact hfold c t hsome
      · exact htimings c t hsome
    · obtain ⟨hempty, hbare⟩ := Option.or_eq_none_iff.1 hnone
      rw [hempty, Option.isSome_none, Bool.false_or] at hc
      exact hnamed c hc hbare
  · exact whole_choose htimings hnamed

theorem whole_work (hq : Queued hash s) (h : Whole hash s s.worker) (o : Outcome)
    (hroomy : Roomy hash s (.work o)) :
    Whole hash (s.work p hash dualNivo o) (s.work p hash dualNivo o).worker := by
  simp only [Roomy] at hroomy
  unfold State.work
  split
  case h_1 hw => exact h
  case h_2 hw => exact h
  case h_3 c todo timings hw =>
    rw [hw] at h
    have hgather : Whole hash s
        (.gathering todo (Function.update timings c (s.gatherTiming hash c))) :=
      backed_update h fun t ht => stands_gatherTiming ht
    exact hgather.same rfl rfl rfl rfl rfl rfl
  case h_4 hw =>
    rw [hw] at h
    exact whole_gathered h
  case h_5 connectors c todo timings fold hw =>
    rw [hw] at h
    have hfold : Whole hash s (.folding connectors todo timings
        (Function.update fold c (s.foldTiming hash connectors c))) :=
      ⟨h.1, backed_update h.2.1 fun t ht => stands_foldTiming hq ht, h.2.2⟩
    exact hfold.same rfl rfl rfl rfl rfl rfl
  case h_6 hw =>
    rw [hw] at h
    exact whole_folded h
  case h_7 hw =>
    rw [hw] at h hroomy
    exact (whole_enter h hroomy).same rfl rfl rfl rfl rfl rfl
  case h_8 hw =>
    rw [hw] at h hroomy
    exact whole_entered hq h hroomy
  case h_9 hw =>
    rw [hw] at h
    exact whole_prepareStep h o
  case h_10 a hw =>
    rw [hw] at h
    have hrun : Whole hash s (.running a (a.script p) (some (a.tail p o.rounds))) := by
      intro hk
      refine ⟨h hk, within_script ?_, within_tail o.rounds⟩
      rw [if_neg hk.ne_head, hk.wanted, (h hk).two]
    exact hrun.same rfl rfl rfl rfl rfl rfl
  case h_11 hw =>
    rw [hw] at h
    exact whole_exec h o
  case h_12 a tail hw =>
    rw [hw] at h
    exact whole_settle fun hk => ⟨(h hk).1, (h hk).2.2⟩
  case h_13 a hw =>
    rw [hw] at h
    have hended : Whole hash s (.ended a .activated) := fun hk _ => ⟨(h hk).1, (h hk).2.2⟩
    exact hended.same rfl rfl rfl rfl rfl rfl
  case h_14 hw =>
    rw [hw] at h
    exact whole_check h
  case h_15 a c todo tail hw =>
    rw [hw] at h
    intro hk
    obtain ⟨htaken, hrest, hprogrammed⟩ := h hk
    have hstore := taken_store htaken hprogrammed
    refine ⟨⟨hstore.all, hstore.two, hstore.keys, hstore.sent⟩, hrest.1, ?_⟩
    cases tail with
    | some tail => exact hrest.2
    | none => exact hrest.2.trans (count_le_update c)
  case h_16 hw =>
    rw [hw] at h
    split_ifs
    · exact h
    · exact h
  case h_17 hw =>
    rw [hw] at h
    exact fun _ hr => absurd hr h
  case h_18 hw =>
    rw [hw] at h
    exact whole_join h

/-! ### Requests and their commands -/

/-- A step that leaves the requests and their commands as they are. -/
structure Keeps (s s' : State τ) : Prop where
  mailbox : s'.mailbox = s.mailbox
  calls : s'.calls = s.calls
  hand : s'.hand = s.hand
  requested : s'.modesetRequested = s.modesetRequested
  last : s'.lastTiming = s.lastTiming

theorem Queued.keeps (h : Queued hash s) (hk : Keeps s s') : Queued hash s' := by
  refine ⟨fun c t => ?_, fun c t => ?_, fun c t => ?_, fun c => ?_⟩
  · rw [hk.calls, hk.requested]
    exact h.calls c t
  · rw [hk.mailbox, hk.calls, hk.requested]
    exact h.mailbox c t
  · rw [hk.hand, Stands, Pending, hk.mailbox, hk.calls, hk.requested]
    exact h.hand c t
  · rw [hk.requested, hk.last]
    exact h.last c

theorem keeps_settle (tail : List (Op τ)) : Keeps s (s.settle a tail) := by
  unfold State.settle State.unwind State.zero
  split_ifs <;> exact ⟨rfl, rfl, rfl, rfl, rfl⟩

theorem keeps_fail : Keeps s (s.fail a) := by
  unfold State.fail State.unwind State.zero
  split_ifs <;> exact ⟨rfl, rfl, rfl, rfl, rfl⟩

theorem keeps_transmit {m : Message τ} {o : Outcome} {next : Transaction τ → Worker τ} :
    Keeps s (s.transmit a m o next) := by
  unfold State.transmit State.fail State.unwind State.zero
  split_ifs <;> exact ⟨rfl, rfl, rfl, rfl, rfl⟩

theorem keeps_exec (todo : List (Op τ)) (tail : Option (List (Op τ))) (o : Outcome) (op : Op τ) :
    Keeps s (s.exec a todo tail o op) := by
  cases op with
  | send m =>
      simp only [State.exec]
      exact keeps_transmit
  | sendIf c m =>
      simp only [State.exec]
      split_ifs
      · exact keeps_transmit
      · exact ⟨rfl, rfl, rfl, rfl, rfl⟩
  | attempt m => exact ⟨rfl, rfl, rfl, rfl, rfl⟩
  | raise =>
      simp only [State.exec]
      split_ifs
      · exact keeps_fail
      · exact ⟨rfl, rfl, rfl, rfl, rfl⟩
  | invalid => exact keeps_fail
  | program c t =>
      have hkeeps : Keeps s (s.transmit a (.setMode c t) o fun a => .checking a c todo tail) :=
        keeps_transmit
      simp only [State.exec]
      split_ifs
      · exact ⟨hkeeps.mailbox, hkeeps.calls, hkeeps.hand, hkeeps.requested, hkeeps.last⟩
      · exact hkeeps

theorem keeps_check (c : Fin 4) (todo : List (Op τ)) (tail : Option (List (Op τ))) :
    Keeps s (s.check a c todo tail) := by
  unfold State.check
  split_ifs
  · exact ⟨rfl, rfl, rfl, rfl, rfl⟩
  · split
    · exact ⟨rfl, rfl, rfl, rfl, rfl⟩
    · exact ⟨rfl, rfl, rfl, rfl, rfl⟩
    · exact keeps_settle []

theorem keeps_prepareStep (todo : List Pre) (o : Outcome) (pre : Pre) :
    Keeps s (s.prepareStep p a todo o pre) := by
  cases pre <;> simp only [State.prepareStep]
  case clearBlank => exact ⟨rfl, rfl, rfl, rfl, rfl⟩
  all_goals split_ifs <;> exact ⟨rfl, rfl, rfl, rfl, rfl⟩

theorem keeps_entered : Keeps s (s.entered a) := by
  unfold State.entered State.zero
  split_ifs <;> exact ⟨rfl, rfl, rfl, rfl, rfl⟩

theorem keeps_folded (connectors : Fin 4 → Bool) (timings fold : Fin 4 → Option τ) :
    Keeps s (s.folded p connectors timings fold) := by
  unfold State.folded
  split_ifs <;> exact ⟨rfl, rfl, rfl, rfl, rfl⟩

/-- A callback stores a request, and is to publish the command for it. -/
theorem Queued.call (h : Queued hash s) {c : Fin 4} {cmd : Stream τ} {timing : Option τ} {key : ℕ}
    (hcmd : ∀ t, cmd = .modeSet t → key = timingKey hash t)
    (hlast : key ≠ 0 → ∃ t, timing = some t ∧ key = timingKey hash t)
    (hmailbox : s'.mailbox = s.mailbox) (hhand : s'.hand = s.hand)
    (hcalls : s'.calls = Function.update s.calls c (some cmd))
    (hrequested : s'.modesetRequested = Function.update s.modesetRequested c key)
    (htiming : s'.lastTiming = Function.update s.lastTiming c timing) : Queued hash s' := by
  refine ⟨fun c' t hc => ?_, fun c' t hc => ?_, fun c' t hc => ?_, fun c' hc => ?_⟩
  · by_cases heq : c' = c
    · subst heq
      rw [hcalls, Function.update_self] at hc
      rw [hrequested, Function.update_self]
      exact hcmd t (Option.some.inj hc)
    · rw [hcalls, Function.update_of_ne heq] at hc
      rw [hrequested, Function.update_of_ne heq]
      exact h.calls c' t hc
  · by_cases heq : c' = c
    · exact .inr (by simp [hcalls, heq])
    · rw [hmailbox] at hc
      rw [hrequested, hcalls, Function.update_of_ne heq, Function.update_of_ne heq]
      exact h.mailbox c' t hc
  · by_cases heq : c' = c
    · exact .inr (.inr (by simp [hcalls, heq]))
    · rw [hhand] at hc
      rw [Stands, Pending, hmailbox, hrequested, hcalls, Function.update_of_ne heq,
        Function.update_of_ne heq]
      exact h.hand c' t hc
  · by_cases heq : c' = c
    · subst heq
      rw [hrequested, Function.update_self] at hc ⊢
      rw [htiming, Function.update_self]
      exact hlast hc
    · rw [hrequested, Function.update_of_ne heq] at hc ⊢
      rw [htiming, Function.update_of_ne heq]
      exact h.last c' hc

theorem queued_publish (h : Queued hash s) (c : Fin 4) :
    Queued hash { s with
      mailbox := Function.update s.mailbox c ((s.calls c).or (s.mailbox c))
      calls := Function.update s.calls c none } := by
  refine ⟨fun c' t hc => ?_, fun c' t hc => ?_, fun c' t hc => ?_, h.last⟩
  · by_cases heq : c' = c
    · simp [heq] at hc
    · exact h.calls c' t (by simpa [heq] using hc)
  · by_cases heq : c' = c
    · subst heq
      simp only [Function.update_self] at hc
      rcases Option.or_eq_some_iff.1 hc with hcall | ⟨hnone, hmail⟩
      · exact .inl (h.calls c' t hcall)
      · refine .inl ((h.mailbox c' t hmail).resolve_right ?_)
        rw [hnone]
        simp
    · simpa [heq] using h.mailbox c' t (by simpa [heq] using hc)
  · refine (h.hand c' t hc).imp_right fun hpending => ?_
    by_cases heq : c' = c
    · subst heq
      refine .inl ?_
      rw [Pending] at hpending
      simpa [Or.comm] using hpending
    · simpa [Pending, heq] using hpending

theorem queued_drain (h : Queued hash s) (w : Worker τ) :
    Queued hash { s with mailbox := fun _ => none, hand := s.mailbox, worker := w } := by
  refine ⟨h.calls, fun c t hc => ?_, fun c t hc => ?_, h.last⟩
  · cases hc
  · exact (h.mailbox c t hc).imp_right .inr

theorem queued_putBack (h : Queued hash s) (back : Fin 4 → Bool) :
    Queued hash (s.putBack back) := by
  refine ⟨h.calls, fun c t hc => ?_, fun c t hc => ?_, h.last⟩
  · rcases Option.or_eq_some_iff.1 hc with hmail | ⟨hnone, hback⟩
    · exact h.mailbox c t hmail
    · split_ifs at hback
      refine (h.hand c t hback).imp_right fun hpending => hpending.resolve_left ?_
      rw [hnone]
      simp
  · cases hc

theorem keeps_joined (connectors : Fin 4 → Bool) (timings : Fin 4 → Option τ) :
    Keeps s (s.joined p connectors timings) := by
  unfold State.joined
  split_ifs <;> exact ⟨rfl, rfl, rfl, rfl, rfl⟩

theorem keeps_gathered (timings : Fin 4 → Option τ) : Keeps s (s.gathered p timings) := by
  unfold State.gathered
  split
  · exact keeps_joined _ _
  · split_ifs
    · exact ⟨rfl, rfl, rfl, rfl, rfl⟩
    · exact keeps_joined _ _

/-- Storing for a connector without a request takes nothing from what is queued. -/
theorem Queued.store (h : Queued hash s) {c : Fin 4} (hc : s.modesetRequested c = 0)
    (timing : Option τ) (key : ℕ)
    (hlast : key ≠ 0 → ∃ t, timing = some t ∧ key = timingKey hash t) :
    Queued hash { s with
      lastTiming := Function.update s.lastTiming c timing
      modesetRequested := Function.update s.modesetRequested c key } := by
  have hne : ∀ {c' : Fin 4} {t : τ}, s.modesetRequested c' = timingKey hash t → c' ≠ c := by
    rintro c' t hreq rfl
    exact timingKey_ne_zero hash t (hreq.symm.trans hc)
  refine ⟨fun c' t hcall => ?_, fun c' t hmail => ?_, fun c' t hhand => ?_, fun c' hreq => ?_⟩
  · have hreq := h.calls c' t hcall
    exact (Function.update_of_ne (hne hreq) ..).trans hreq
  · refine (h.mailbox c' t hmail).imp_left fun hreq => ?_
    exact (Function.update_of_ne (hne hreq) ..).trans hreq
  · refine (h.hand c' t hhand).imp_left fun hreq => ?_
    exact (Function.update_of_ne (hne hreq) ..).trans hreq
  · by_cases heq : c' = c
    · subst heq
      simpa using hlast (by simpa using hreq)
    · simpa [heq] using h.last c' (by simpa [heq] using hreq)

theorem queued_join (h : Queued hash s) {t : τ} {next : Join} {connectors : Fin 4 → Bool}
    {todo : List (Fin 4)} {timings : Fin 4 → Option τ} {o : Outcome}
    (hw : s.worker = .joining t next connectors todo timings) (hroomy : Roomy hash s (.work o)) :
    Queued hash (s.join p hash t next connectors todo timings) := by
  simp only [Roomy, hw] at hroomy
  unfold State.join
  split
  case h_1 => exact h.keeps ⟨rfl, rfl, rfl, rfl, rfl⟩
  case h_2 => exact h.keeps (keeps_joined _ _)
  case h_3 c =>
    have hstore := h.store hroomy (some t) 0 fun hne => absurd rfl hne
    exact hstore.keeps
      ⟨rfl, rfl, rfl, (Function.update_eq_self_iff.2 hroomy.symm).symm, rfl⟩
  case h_4 c =>
    have hstore := h.store hroomy.1 (some t) (timingKey hash t) fun _ => ⟨t, rfl, rfl⟩
    exact hstore.keeps
      ⟨rfl, rfl, rfl, rfl, (Function.update_eq_self_iff.2 hroomy.2.symm).symm⟩

theorem queued_work (h : Queued hash s) (o : Outcome) (hroomy : Roomy hash s (.work o)) :
    Queued hash (s.work p hash dualNivo o) := by
  unfold State.work
  split
  case h_1 => exact h
  case h_2 => exact h
  case h_4 => exact h.keeps (keeps_gathered _)
  case h_6 => exact h.keeps (keeps_folded _ _ _)
  case h_8 => exact h.keeps keeps_entered
  case h_9 => exact h.keeps (keeps_prepareStep _ _ _)
  case h_11 => exact h.keeps (keeps_exec _ _ _ _)
  case h_12 => exact h.keeps (keeps_settle _)
  case h_14 => exact h.keeps (keeps_check _ _ _)
  case h_16 => split_ifs <;> exact h.keeps ⟨rfl, rfl, rfl, rfl, rfl⟩
  case h_18 hw => exact queued_join h hw hroomy
  all_goals exact h.keeps ⟨rfl, rfl, rfl, rfl, rfl⟩

/-! ### Runs -/

/-- The transaction misses no connector, and the queues are in order. -/
structure Inv (hash : τ → ℕ) (s : State τ) : Prop where
  queued : Queued hash s
  whole : Whole hash s s.worker

theorem moves_enable {c : Fin 4} {t : τ} (key : ℕ) :
    Moves s { s with
      lastTiming := Function.update s.lastTiming c (some t)
      modesetRequested := Function.update s.modesetRequested c key
      calls := Function.update s.calls c (some (.modeSet t)) } := by
  refine ⟨fun c' hc => ?_, fun c' => ?_, fun _ => .inl rfl, rfl⟩
  · by_cases heq : c' = c
    · exact .inr (by simp [heq])
    · simpa [Pending, heq] using hc
  · by_cases heq : c' = c
    · exact .inr (.inr (by simp [heq]))
    · exact .inl (by simp [heq])

theorem moves_disable {c : Fin 4} :
    Moves s { s with
      modesetRequested := Function.update s.modesetRequested c 0
      modesetActive := Function.update s.modesetActive c 0
      programmedTiming := Function.update s.programmedTiming c none
      calls := Function.update s.calls c (some .blank) } := by
  refine ⟨fun c' hc => ?_, fun c' => ?_, fun c' => ?_, rfl⟩
  · by_cases heq : c' = c
    · exact .inr (by simp [heq])
    · simpa [Pending, heq] using hc
  · by_cases heq : c' = c
    · exact .inr (.inr (by simp [heq]))
    · exact .inl (by simp [heq])
  · by_cases heq : c' = c
    · exact .inr (.inr (by simp [heq]))
    · exact .inl (by simp [heq])

theorem moves_publish {c : Fin 4} :
    Moves s { s with
      mailbox := Function.update s.mailbox c ((s.calls c).or (s.mailbox c))
      calls := Function.update s.calls c none } := by
  refine ⟨fun c' hc => ?_, fun _ => .inl rfl, fun _ => .inl rfl, rfl⟩
  by_cases heq : c' = c
  · subst heq
    refine .inl ?_
    rw [Pending] at hc
    simpa [Or.comm] using hc
  · simpa [Pending, heq] using hc

theorem whole_activateHead [DecidableEq τ] (hw : s.worker = .free) (c : Fin 4) (t : τ) :
    Whole hash (s.activateHead p hash dualNivo c t)
      (s.activateHead p hash dualNivo c t).worker := by
  unfold State.activateHead
  split_ifs
  · rw [hw]
    trivial
  · simp [hw, Whole]
  · intro hk
    rcases hk with hk | hk <;> cases hk
  · intro hk
    rcases hk with hk | hk <;> cases hk

theorem keeps_activateHead [DecidableEq τ] (c : Fin 4) (t : τ) :
    Keeps s (s.activateHead p hash dualNivo c t) := by
  unfold State.activateHead
  split_ifs <;> exact ⟨rfl, rfl, rfl, rfl, rfl⟩

/-- A scanout worker lights its connector while the batch is looked through. -/
theorem whole_scanout {w : Worker τ} (hw : w.isLooking = true) (h : Whole hash s w)
    (active : Fin 4 → ℕ) : Whole hash { s with modesetActive := active } w := by
  cases w with
  | gathering todo timings => exact h
  | joining t next connectors todo timings => exact h
  | folding connectors todo timings fold => exact h
  | _ => cases hw

/-- **One step** of a callback, of the worker or of the presence watcher. -/
theorem inv_step [DecidableEq τ] (s : State τ) (e : Event τ) (h : Inv hash s)
    (hroomy : Roomy hash s e) : Inv hash (step p hash dualNivo s e) := by
  obtain ⟨hq, hw⟩ := h
  cases e with
  | enable c t =>
      simp only [step]
      split_ifs
      · refine ⟨hq.call (fun t' ht' => ?_) (fun _ => ⟨t, rfl, rfl⟩) rfl rfl rfl rfl rfl,
          (moves_enable _).whole hw⟩
        rw [Stream.modeSet.inj ht']
      · exact ⟨hq, hw⟩
  | disable c =>
      simp only [step]
      split_ifs
      · refine ⟨hq.call (fun t' ht' => ?_) (fun hne => absurd rfl hne) rfl rfl rfl rfl
          (Function.update_eq_self c s.lastTiming).symm, moves_disable.whole hw⟩
        cases ht'
      · exact ⟨hq, hw⟩
  | publish c => exact ⟨queued_publish hq c, moves_publish.whole hw⟩
  | drain =>
      simp only [step]
      split_ifs
      · refine ⟨queued_drain hq _, fun c t ht => ?_⟩
        cases ht
      · exact ⟨hq, hw⟩
  | activateHead c t =>
      simp only [step]
      split_ifs with hfree
      · exact ⟨hq.keeps (keeps_activateHead c t), whole_activateHead (eq_free hfree) c t⟩
      · exact ⟨hq, hw⟩
  | scanout c t ok =>
      simp only [step]
      by_cases hlooking : (s.worker.isLooking && s.modesetRequested c == timingKey hash t) = true
      · rw [if_pos hlooking]
        exact ⟨hq.keeps ⟨rfl, rfl, rfl, rfl, rfl⟩,
          whole_scanout (Bool.and_eq_true_iff.1 hlooking).1 hw _⟩
      · rw [if_neg hlooking]
        exact ⟨hq, hw⟩
  | work o => exact ⟨queued_work hq o hroomy, whole_work hq hw o hroomy⟩
  | finish =>
      simp only [step, State.finish]
      have hdone : Queued hash { s with hand := fun _ => none } :=
        ⟨hq.calls, hq.mailbox, fun c t hc => (by cases hc), hq.last⟩
      split
      · split
        · exact ⟨hdone.keeps ⟨rfl, rfl, rfl, rfl, rfl⟩, trivial⟩
        · exact ⟨hdone.keeps ⟨rfl, rfl, rfl, rfl, rfl⟩, trivial⟩
        · exact ⟨(queued_putBack hq _).keeps ⟨rfl, rfl, rfl, rfl, rfl⟩, trivial⟩
        · exact ⟨(queued_putBack hq _).keeps ⟨rfl, rfl, rfl, rfl, rfl⟩, trivial⟩
        · exact ⟨hq.keeps ⟨rfl, rfl, rfl, rfl, rfl⟩, trivial⟩
      · exact ⟨hq, hw⟩
  | requeue back =>
      simp only [step]
      split_ifs with hfree
      · refine ⟨queued_putBack hq back, ?_⟩
        have hworker : (s.putBack back).worker = .free := eq_free hfree
        rw [hworker]
        trivial
      · exact ⟨hq, hw⟩
  | blank c ok | probe c o | probeClear c =>
      simp only [step]
      split_ifs
      · exact ⟨hq.keeps ⟨rfl, rfl, rfl, rfl, rfl⟩, hw.same rfl rfl rfl rfl rfl rfl⟩
      · exact ⟨hq, hw⟩

end Invariant

section Runs

variable [DecidableEq τ] (p : DockProfile) (hash : τ → ℕ) (dualNivo : Bool → τ → τ)

end Runs

instance (a : Transaction τ) : Decidable (Together a) := inferInstanceAs (Decidable (_ ∨ _))

/-- The condition, by what the worker does. -/
def decidableRoomy (s : State ℕ) (o : Outcome) :
    (w : Worker ℕ) → Decidable (Roomy id { s with worker := w } (.work o))
  | .entering a (c :: _) => inferInstanceAs (Decidable
      (a.kind = .dualWake → (a.timings c).isSome → s.modesetActive c = 0))
  | .entering a [] => inferInstanceAs (Decidable (Together a → count a.valid ≤ 2 ∧
      ∀ c, a.connectors c = true → a.timings c = none → current id s c = false))
  | .joining _ (.timing c) .. => inferInstanceAs (Decidable (s.modesetRequested c = 0))
  | .joining t (.request c) .. =>
      inferInstanceAs (Decidable (s.modesetRequested c = 0 ∧ s.lastTiming c = some t))
  | .joining _ .look .. => instDecidableTrue
  | .free => instDecidableTrue
  | .gathering .. => instDecidableTrue
  | .folding .. => instDecidableTrue
  | .preparing .. => instDecidableTrue
  | .running .. => instDecidableTrue
  | .checking .. => instDecidableTrue
  | .storing .. => instDecidableTrue
  | .unwinding .. => instDecidableTrue
  | .ended .. => instDecidableTrue

instance (s : State ℕ) : (e : Event ℕ) → Decidable (Roomy id s e)
  | .work o => decidableRoomy s o s.worker
  | .enable .. => instDecidableTrue
  | .disable .. => instDecidableTrue
  | .publish .. => instDecidableTrue
  | .drain => instDecidableTrue
  | .activateHead .. => instDecidableTrue
  | .scanout .. => instDecidableTrue
  | .blank .. => instDecidableTrue
  | .probe .. => instDecidableTrue
  | .probeClear .. => instDecidableTrue
  | .finish => instDecidableTrue
  | .requeue .. => instDecidableTrue

end Vino.Kms.Multihead
