import Mathlib

/-!
# Computations That May Fail or Panic

A step of imperative code ends in a new state, fails with an error and leaves the state it got to,
or panics.  `Ends o Q R` says that an outcome is not a panic, that `Q` holds of the state it ends in
and `R` of the state a failure leaves.

* `Ends.bind`: one step behind another,
* `Ends.each`: a loop over the first numbers keeps an invariant that follows the counter.
-/

namespace Vino.Lib.Guarded

variable {ε σ τ : Type}

inductive Outcome (ε σ : Type) where
  | done (s : σ)
  | failed (e : ε) (s : σ)
  | panicked
  deriving DecidableEq

namespace Outcome

/-- Go on from where a step ended. -/
def bind (o : Outcome ε σ) (f : σ → Outcome ε σ) : Outcome ε σ :=
  match o with
  | done s => f s
  | failed e s => failed e s
  | panicked => panicked

/-- A step on a part of a state. -/
def map (f : σ → τ) : Outcome ε σ → Outcome ε τ
  | done s => done (f s)
  | failed e s => failed e (f s)
  | panicked => panicked

/-- The state a step leaves, or the one it started from if it panics. -/
def stateOr (o : Outcome ε σ) (s : σ) : σ :=
  match o with
  | done s => s
  | failed _ s => s
  | panicked => s

end Outcome

/-- The loop `for i in 0..n`. -/
def each (body : ℕ → σ → Outcome ε σ) : ℕ → σ → Outcome ε σ
  | 0, s => .done s
  | n + 1, s => (each body n s).bind (body n)

/-- The step does not panic; `Q` holds where it ends, and `R` where it fails. -/
def Ends (o : Outcome ε σ) (Q R : σ → Prop) : Prop :=
  match o with
  | .done s => Q s
  | .failed _ s => R s
  | .panicked => False

variable {o : Outcome ε σ} {Q Q' R R' : σ → Prop}

theorem Ends.mono (h : Ends o Q R) (hQ : ∀ s, Q s → Q' s) (hR : ∀ s, R s → R' s) :
    Ends o Q' R' := by
  cases o with
  | done s => exact hQ s h
  | failed e s => exact hR s h
  | panicked => exact h

/-- **One step behind another.** -/
theorem Ends.bind {f : σ → Outcome ε σ} (h : Ends o Q R) (hf : ∀ s, Q s → Ends (f s) Q' R) :
    Ends (o.bind f) Q' R := by
  cases o with
  | done s => exact hf s h
  | failed e s => exact h
  | panicked => exact h

theorem Ends.map {f : σ → τ} {Q R : τ → Prop} (h : Ends o (fun s => Q (f s)) fun s => R (f s)) :
    Ends (o.map f) Q R := by
  cases o with
  | done s => exact h
  | failed e s => exact h
  | panicked => exact h

/-- **A loop**, for an invariant that follows the counter. -/
theorem Ends.each {body : ℕ → σ → Outcome ε σ} {I : ℕ → σ → Prop} {s : σ} (hs : I 0 s) :
    ∀ n, (∀ i < n, ∀ s, I i s → Ends (body i s) (I (i + 1)) R) →
      Ends (Guarded.each body n s) (I n) R
  | 0, _ => hs
  | n + 1, h => (Ends.each hs n fun i hi => h i (Nat.lt_succ_of_lt hi)).bind
      (h n (Nat.lt_succ_self n))

theorem Ends.stateOr (h : Ends o Q R) (s : σ) (hQ : ∀ s, Q s → R s) : R (o.stateOr s) := by
  cases o with
  | done s => exact hQ s h
  | failed e s => exact h
  | panicked => exact h.elim

theorem Ends.ne_panicked (h : Ends o Q R) : o ≠ .panicked := by
  rintro rfl
  exact h

theorem Ends.done {s : σ} (h : Ends o Q R) (ho : o = .done s) : Q s := by
  rw [ho] at h
  exact h

end Vino.Lib.Guarded
