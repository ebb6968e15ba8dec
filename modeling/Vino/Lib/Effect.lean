import Mathlib

/-!
# Computations with State and Failure

A stateful computation ends with a value or with an error, and keeps the changes it made to the
state in both cases.  `Triple P m Q R` says what holds behind `m` from a state with `P`: `Q` of the
value and the state, or `R` of the state behind an error.  `Keeps I R m` is the special case of an
invariant, which an error may leave weakened to `R`.

* `Triple.bind`, `Keeps.bind`: sequencing,
* `Triple.mono`: weakening,
* `Keeps.forM`, `Triple.forM`, `Triple.forM_prefix`: a loop over a list keeps what its body keeps.
-/

namespace Vino.Lib.Effect

variable {ε σ α β : Type}

/-- From a state with `P`, the computation ends with `Q` or fails with `R`. -/
def Triple (P : σ → Prop) (m : EStateM ε σ α) (Q : α → σ → Prop) (R : σ → Prop) : Prop :=
  ∀ s, P s → match m s with
    | .ok a s' => Q a s'
    | .error _ s' => R s'

/-- The computation keeps `I` when it returns, and ends with `R` when it fails. -/
def Keeps (I R : σ → Prop) (m : EStateM ε σ α) : Prop := Triple I m (fun _ => I) R

/-- The state behind a computation. -/
def final (m : EStateM ε σ α) (s : σ) : σ :=
  match m s with
  | .ok _ s' => s'
  | .error _ s' => s'

variable {P P' I : σ → Prop} {Q Q' : α → σ → Prop} {R R' : σ → Prop} {m : EStateM ε σ α}

theorem Triple.mono (h : Triple P m Q R) (hP : ∀ s, P' s → P s) (hQ : ∀ a s, Q a s → Q' a s)
    (hR : ∀ s, R s → R' s) : Triple P' m Q' R' := by
  intro s hs
  have hm := h s (hP s hs)
  cases hrun : m s with
  | ok a s' =>
      rw [hrun] at hm
      exact hQ a s' hm
  | error e s' =>
      rw [hrun] at hm
      exact hR s' hm

/-- Two specifications of one computation. -/
theorem Triple.and (h : Triple P m Q R) (h' : Triple P' m Q' R') :
    Triple (fun s => P s ∧ P' s) m (fun a s => Q a s ∧ Q' a s) fun s => R s ∧ R' s := by
  rintro s ⟨hs, hs'⟩
  have hm := h s hs
  have hm' := h' s hs'
  cases hrun : m s with
  | ok a s' =>
      rw [hrun] at hm hm'
      exact ⟨hm, hm'⟩
  | error e s' =>
      rw [hrun] at hm hm'
      exact ⟨hm, hm'⟩

/-- A computation that does not fail. -/
theorem Triple.never (h : Triple P m Q fun _ => False) : Triple P m Q R :=
  h.mono (fun _ hs => hs) (fun _ _ hs => hs) fun _ hs => hs.elim

/-- A fact in the precondition that does not depend on the state. -/
theorem Triple.given {φ : Prop} (h : φ → Triple P m Q R) : Triple (fun s => φ ∧ P s) m Q R :=
  fun s hs => h hs.1 s hs.2

theorem Triple.pure {a : α} (h : ∀ s, P s → Q a s) :
    Triple P (Pure.pure a : EStateM ε σ α) Q R := fun s hs => h s hs

theorem Triple.throw {e : ε} (h : ∀ s, P s → R s) :
    Triple P (MonadExcept.throw e : EStateM ε σ α) Q R := fun s hs => h s hs

theorem Triple.get {Q : σ → σ → Prop} (h : ∀ s, P s → Q s s) :
    Triple P (MonadState.get : EStateM ε σ σ) Q R := fun s hs => h s hs

theorem Triple.modify {f : σ → σ} {Q : PUnit → σ → Prop} (h : ∀ s, P s → Q ⟨⟩ (f s)) :
    Triple P (modifyThe σ f : EStateM ε σ PUnit) Q R := fun s hs => h s hs

/-- **Sequencing.** -/
theorem Triple.bind {f : α → EStateM ε σ β} {Q' : β → σ → Prop} (hm : Triple P m Q R)
    (hf : ∀ a, Triple (Q a) (f a) Q' R) : Triple P (m >>= f) Q' R := by
  intro s hs
  have hrun := hm s hs
  show match EStateM.bind m f s with
    | .ok a s' => Q' a s'
    | .error _ s' => R s'
  unfold EStateM.bind
  cases hms : m s with
  | ok a s' =>
      rw [hms] at hrun
      exact hf a s' hrun
  | error e s' =>
      rw [hms] at hrun
      exact hrun

/-- A handler runs from the state the error left behind. -/
theorem Triple.tryCatch {handler : ε → EStateM ε σ α} (hm : Triple P m Q R)
    (hh : ∀ e, Triple R (handler e) Q R') : Triple P (MonadExcept.tryCatch m handler) Q R' := by
  intro s hs
  have hrun := hm s hs
  show match EStateM.tryCatch m handler s with
    | .ok a s' => Q a s'
    | .error _ s' => R' s'
  unfold EStateM.tryCatch
  cases hms : m s with
  | ok a s' =>
      rw [hms] at hrun
      exact hrun
  | error e s' =>
      rw [hms] at hrun
      exact hh e s' hrun

/-- Reading the state, from a known one. -/
theorem Triple.get_bind {s₀ : σ} {f : σ → EStateM ε σ β} {Q : β → σ → Prop}
    (h : Triple (fun s => s = s₀) (f s₀) Q R) :
    Triple (fun s => s = s₀) (MonadState.get >>= f) Q R := by
  refine Triple.bind (Q := fun s s' => s = s₀ ∧ s' = s₀) (Triple.get fun s hs => ⟨hs, hs⟩)
    fun s => Triple.given ?_
  rintro rfl
  exact h

/-- A computation, from each single state. -/
theorem Triple.of_each (h : ∀ s₀, P s₀ → Triple (fun s => s = s₀) m Q R) : Triple P m Q R :=
  fun s hs => h s hs s rfl

theorem Triple.map {f : α → β} {Q : β → σ → Prop} (hm : Triple P m (fun a => Q (f a)) R) :
    Triple P (f <$> m) Q R := by
  intro s hs
  have hrun := hm s hs
  show match EStateM.map f m s with
    | .ok a s' => Q a s'
    | .error _ s' => R s'
  unfold EStateM.map
  cases hms : m s with
  | ok a s' =>
      rw [hms] at hrun
      exact hrun
  | error e s' =>
      rw [hms] at hrun
      exact hrun

theorem Triple.final (h : Triple P m Q R) {s : σ} (hs : P s) {T : σ → Prop}
    (hQ : ∀ a s, Q a s → T s) (hR : ∀ s, R s → T s) : T (final m s) := by
  have hrun := h s hs
  unfold Effect.final
  cases hms : m s with
  | ok a s' =>
      rw [hms] at hrun
      exact hQ a s' hrun
  | error e s' =>
      rw [hms] at hrun
      exact hR s' hrun

theorem Keeps.pure (a : α) : Keeps I R (Pure.pure a : EStateM ε σ α) := Triple.pure fun _ h => h

theorem Keeps.throw (h : ∀ s, I s → R s) (e : ε) :
    Keeps I R (MonadExcept.throw e : EStateM ε σ α) := Triple.throw h

theorem Keeps.get : Keeps I R (MonadState.get : EStateM ε σ σ) := Triple.get fun _ h => h

theorem Keeps.modify {f : σ → σ} (h : ∀ s, I s → I (f s)) :
    Keeps I R (modifyThe σ f : EStateM ε σ PUnit) := Triple.modify h

theorem Keeps.bind {f : α → EStateM ε σ β} (hm : Keeps I R m) (hf : ∀ a, Keeps I R (f a)) :
    Keeps I R (m >>= f) := Triple.bind hm hf

theorem Keeps.map {f : α → β} (hm : Keeps I R m) : Keeps I R (f <$> m) := Triple.map hm

theorem Keeps.final (h : Keeps I R m) (hR : ∀ s, R s → I s) {s : σ} (hs : I s) :
    I (final m s) :=
  Triple.final h hs (fun _ _ h => h) hR

theorem Keeps.forM {f : α → EStateM ε σ PUnit} :
    ∀ l : List α, (∀ a ∈ l, Keeps I R (f a)) → Keeps I R (l.forM f)
  | [], _ => Keeps.pure _
  | a :: l, h => (h a List.mem_cons_self).bind fun _ =>
      Keeps.forM l fun b hb => h b (List.mem_cons_of_mem a hb)

/-- **A loop**, for an invariant that follows the elements it has been through. -/
theorem Triple.forM {f : α → EStateM ε σ PUnit} {I : List α → σ → Prop} :
    ∀ (l done : List α), (∀ done a, a ∈ l → Triple (I done) (f a) (fun _ => I (done ++ [a])) R) →
      Triple (I done) (l.forM f) (fun _ => I (done ++ l)) R
  | [], done, _ => Triple.pure fun s hs => by rwa [List.append_nil]
  | a :: l, done, h => by
      refine (h done a List.mem_cons_self).bind fun _ => ?_
      have ih := Triple.forM l (done ++ [a]) fun done b hb => h done b (List.mem_cons_of_mem a hb)
      rwa [List.append_assoc] at ih

/-- **A loop**, for an invariant that follows the front part of the list it has been through. -/
theorem Triple.forM_prefix {f : α → EStateM ε σ PUnit} {I : List α → σ → Prop} {l : List α}
    (h : ∀ done a, done ++ [a] <+: l → Triple (I done) (f a) (fun _ => I (done ++ [a])) R) :
    Triple (I []) (l.forM f) (fun _ => I l) R := by
  suffices hall : ∀ rest done, done ++ rest = l →
      Triple (I done) (rest.forM f) (fun _ => I l) R from hall l [] rfl
  intro rest
  induction rest with
  | nil =>
    rintro done rfl
    exact Triple.pure fun s hs => by rwa [List.append_nil]
  | cons a rest ih =>
    intro done hl
    have hsplit : (done ++ [a]) ++ rest = l := by rw [List.append_assoc]; exact hl
    exact (h done a ⟨rest, hsplit⟩).bind fun _ => ih _ hsplit

theorem Triple.ok (h : Triple P m Q R) {s s' : σ} {a : α} (hs : P s) (hrun : m s = .ok a s') :
    Q a s' := by
  have hm := h s hs
  rwa [hrun] at hm

end Vino.Lib.Effect
