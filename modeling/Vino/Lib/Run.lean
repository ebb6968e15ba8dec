import Mathlib

/-!
# Runs of a State Machine

A machine takes a step for each event.  `Along C step s es` says that every step of the run of
`es` from `s` starts in a state that meets the condition `C`; an invariant that is kept by the
steps which meet the condition then holds behind the whole run.
-/

namespace Vino.Lib.Run

variable {σ ε : Type}

/-- The state behind a run. -/
def run (step : σ → ε → σ) (s : σ) (es : List ε) : σ := es.foldl step s

/-- Every step of the run starts in a state that meets the condition. -/
def Along (C : σ → ε → Prop) (step : σ → ε → σ) : σ → List ε → Prop
  | _, [] => True
  | s, e :: es => C s e ∧ Along C step (step s e) es

instance decidableAlong {C : σ → ε → Prop} [∀ s e, Decidable (C s e)] (step : σ → ε → σ) :
    ∀ (s : σ) (es : List ε), Decidable (Along C step s es)
  | _, [] => .isTrue trivial
  | s, e :: es => @instDecidableAnd _ _ _ (decidableAlong step (step s e) es)

theorem run_append (step : σ → ε → σ) (s : σ) (es fs : List ε) :
    run step s (es ++ fs) = run step (run step s es) fs :=
  List.foldl_append

/-- **Invariants of runs.** -/
theorem run_invariant {C : σ → ε → Prop} {step : σ → ε → σ} {P : σ → Prop}
    (hstep : ∀ s e, P s → C s e → P (step s e)) :
    ∀ (es : List ε) (s : σ), P s → Along C step s es → P (run step s es)
  | [], _, hs, _ => hs
  | e :: es, s, hs, h => run_invariant hstep es (step s e) (hstep s e hs h.1) h.2

theorem along_append {C : σ → ε → Prop} {step : σ → ε → σ} (es fs : List ε) (s : σ) :
    Along C step s (es ++ fs) ↔ Along C step s es ∧ Along C step (run step s es) fs := by
  induction es generalizing s with
  | nil => exact ⟨fun h => ⟨trivial, h⟩, fun h => h.2⟩
  | cons e es ih => exact (and_congr_right fun _ => ih (step s e)).trans and_assoc.symm

/-- A condition on the events alone. -/
theorem along_of_forall {D : ε → Prop} {step : σ → ε → σ} :
    ∀ (es : List ε) (s : σ), (∀ e ∈ es, D e) → Along (fun _ e => D e) step s es
  | [], _, _ => trivial
  | e :: es, s, hD => ⟨hD e List.mem_cons_self,
      along_of_forall es (step s e) fun e' he' => hD e' (List.mem_cons_of_mem e he')⟩

/-- What follows from the condition at the states of an invariant. -/
theorem Along.imp {C Q : σ → ε → Prop} {step : σ → ε → σ} {P : σ → Prop}
    (hstep : ∀ s e, P s → C s e → P (step s e)) (himp : ∀ s e, P s → C s e → Q s e) :
    ∀ (es : List ε) (s : σ), P s → Along C step s es → Along Q step s es
  | [], _, _, _ => trivial
  | e :: es, s, hs, h => ⟨himp s e hs h.1,
      Along.imp hstep himp es (step s e) (hstep s e hs h.1) h.2⟩

/-- **A condition that decides a property step by step**: the property holds at every point of a
run exactly if every step meets the condition. -/
theorem forall_take_iff_along {C : σ → ε → Prop} {step : σ → ε → σ} {P F : σ → Prop}
    (hP : ∀ s e, P s → P (step s e)) (hF : ∀ s e, P s → F s → (F (step s e) ↔ C s e)) :
    ∀ (es : List ε) (s : σ), P s → F s → ((∀ j, F (run step s (es.take j))) ↔ Along C step s es)
  | [], _, _, hs => ⟨fun _ => trivial, fun _ j => by rwa [List.take_nil]⟩
  | e :: es, s, hPs, hFs => by
    constructor
    · intro h
      have hnext : F (step s e) := h 1
      refine ⟨(hF s e hPs hFs).1 hnext, ?_⟩
      exact (forall_take_iff_along hP hF es _ (hP s e hPs) hnext).1 fun j => h (j + 1)
    · rintro ⟨hC, h⟩ j
      have hnext : F (step s e) := (hF s e hPs hFs).2 hC
      cases j with
      | zero => exact hFs
      | succ j => exact (forall_take_iff_along hP hF es _ (hP s e hPs) hnext).2 h j

/-- A condition may be strengthened by what every event of the run satisfies. -/
theorem Along.and {C : σ → ε → Prop} {D : ε → Prop} {step : σ → ε → σ} :
    ∀ (es : List ε) (s : σ), Along C step s es → (∀ e ∈ es, D e) →
      Along (fun s e => C s e ∧ D e) step s es
  | [], _, _, _ => trivial
  | e :: es, s, h, hD => ⟨⟨h.1, hD e List.mem_cons_self⟩,
      Along.and es (step s e) h.2 fun e' he' => hD e' (List.mem_cons_of_mem e he')⟩

end Vino.Lib.Run
