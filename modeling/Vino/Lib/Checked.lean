import Mathlib

/-!
# Checked Machine Arithmetic

Signed 32-bit and 64-bit operations that fail where the machine operation overflows, and the checked
filling of a table.  A computation written with them returns a value exactly when none of its
operations overflows, and the value is then the one over the integers.  `Succeeds m P` says that
`m` returns a value with the property `P`; the rules below follow the shape of the
computation.  `Yields m a` says that `m` returns no value but `a`.
-/

namespace Vino.Lib.Checked

/-- The value is representable in a signed 32-bit word. -/
def I32 (x : ℤ) : Prop := -2147483648 ≤ x ∧ x ≤ 2147483647

instance (x : ℤ) : Decidable (I32 x) := inferInstanceAs (Decidable (_ ∧ _))

/-- A result, if it is representable. -/
def i32 (x : ℤ) : Option ℤ := if I32 x then some x else none

def add32 (a b : ℤ) : Option ℤ := i32 (a + b)
def sub32 (a b : ℤ) : Option ℤ := i32 (a - b)
def mul32 (a b : ℤ) : Option ℤ := i32 (a * b)
def neg32 (a : ℤ) : Option ℤ := i32 (-a)
def abs32 (a : ℤ) : Option ℤ := i32 a.natAbs

/-- The value is representable in a signed 64-bit word. -/
def I64 (x : ℤ) : Prop := -9223372036854775808 ≤ x ∧ x ≤ 9223372036854775807

instance (x : ℤ) : Decidable (I64 x) := inferInstanceAs (Decidable (_ ∧ _))

def i64 (x : ℤ) : Option ℤ := if I64 x then some x else none

def add64 (a b : ℤ) : Option ℤ := i64 (a + b)
def sub64 (a b : ℤ) : Option ℤ := i64 (a - b)
def mul64 (a b : ℤ) : Option ℤ := i64 (a * b)

/-- A cast to an unsigned type with `n` values, if it loses nothing. -/
def unsigned (n : ℕ) (x : ℤ) : Option ℕ := if 0 ≤ x ∧ x < n then some x.toNat else none

/-! ### Computations that succeed -/

variable {α β : Type} {n : ℕ}

/-- The computation returns a value, and the value has the property. -/
def Succeeds (m : Option α) (P : α → Prop) : Prop := ∃ a, m = some a ∧ P a

theorem Succeeds.some {a : α} {P : α → Prop} (h : P a) : Succeeds (Option.some a) P :=
  ⟨a, rfl, h⟩

/-- **Composition.** -/
theorem Succeeds.bind {m : Option α} {f : α → Option β} {P : α → Prop} {Q : β → Prop}
    (hm : Succeeds m P) (hf : ∀ a, P a → Succeeds (f a) Q) : Succeeds (m >>= f) Q := by
  obtain ⟨a, rfl, ha⟩ := hm
  exact hf a ha

/-- Composition behind a computation whose value is known. -/
theorem Succeeds.seq {m : Option α} {f : α → Option β} {a : α} {Q : β → Prop}
    (hm : Succeeds m (· = a)) (hf : Succeeds (f a) Q) : Succeeds (m >>= f) Q :=
  hm.bind fun _ h => h ▸ hf

theorem Succeeds.mono {m : Option α} {P Q : α → Prop} (hm : Succeeds m P)
    (h : ∀ a, P a → Q a) : Succeeds m Q := by
  obtain ⟨a, rfl, ha⟩ := hm
  exact ⟨a, rfl, h a ha⟩

theorem succeeds_add32 {a b : ℤ} (h : I32 (a + b)) : Succeeds (add32 a b) (· = a + b) :=
  ⟨_, if_pos h, rfl⟩

theorem succeeds_sub32 {a b : ℤ} (h : I32 (a - b)) : Succeeds (sub32 a b) (· = a - b) :=
  ⟨_, if_pos h, rfl⟩

theorem succeeds_mul32 {a b : ℤ} (h : I32 (a * b)) : Succeeds (mul32 a b) (· = a * b) :=
  ⟨_, if_pos h, rfl⟩

theorem succeeds_neg32 {a : ℤ} (h : I32 (-a)) : Succeeds (neg32 a) (· = -a) :=
  ⟨_, if_pos h, rfl⟩

theorem succeeds_abs32 {a : ℤ} (h : I32 a.natAbs) : Succeeds (abs32 a) (· = a.natAbs) :=
  ⟨_, if_pos h, rfl⟩

theorem succeeds_add64 {a b : ℤ} (h : I64 (a + b)) : Succeeds (add64 a b) (· = a + b) :=
  ⟨_, if_pos h, rfl⟩

theorem succeeds_sub64 {a b : ℤ} (h : I64 (a - b)) : Succeeds (sub64 a b) (· = a - b) :=
  ⟨_, if_pos h, rfl⟩

theorem succeeds_mul64 {a b : ℤ} (h : I64 (a * b)) : Succeeds (mul64 a b) (· = a * b) :=
  ⟨_, if_pos h, rfl⟩

theorem succeeds_unsigned {n : ℕ} {a : ℤ} (h : 0 ≤ a ∧ a < n) :
    Succeeds (unsigned n a) (· = a.toNat) :=
  ⟨_, if_pos h, rfl⟩

/-- Every element of a list, in order. -/
theorem Succeeds.mapM {f : α → Option β} {P : β → Prop} :
    ∀ l : List α, (∀ a ∈ l, Succeeds (f a) P) →
      Succeeds (l.mapM f) fun bs => bs.length = l.length ∧ ∀ b ∈ bs, P b
  | [], _ => ⟨[], rfl, rfl, by simp⟩
  | a :: l, h => by
      obtain ⟨b, hb, hP⟩ := h a List.mem_cons_self
      obtain ⟨bs, hbs, hlen, hPs⟩ := Succeeds.mapM l fun a' ha' => h a' (List.mem_cons_of_mem a ha')
      refine ⟨b :: bs, ?_, by rw [List.length_cons, List.length_cons, hlen], ?_⟩
      · simp [List.mapM_cons, hb, hbs]
      · intro b' hb'
        rcases List.mem_cons.1 hb' with rfl | hmem
        · exact hP
        · exact hPs b' hmem

/-! ### Tables -/

/-- Fill a table entry by entry; one failing entry fails the table. -/
def tabulate (f : Fin n → Option α) : Option (Fin n → α) := do
  let v ← Vector.ofFnM f
  return fun i => v[i]

/-- **A table all of whose entries succeed.** -/
theorem tabulate_eq {f : Fin n → Option α} {g : Fin n → α} (h : ∀ i, f i = some (g i)) :
    tabulate f = some g := by
  have hf : f = fun i => pure (g i) := funext h
  have hv : Vector.ofFnM f = some (Vector.ofFn g) := by
    rw [hf]
    exact Vector.ofFnM_pure
  rw [tabulate, hv]
  simp

theorem Succeeds.ofFnM {f : Fin n → Option α} {P : Fin n → α → Prop}
    (h : ∀ i, Succeeds (f i) (P i)) : Succeeds (Vector.ofFnM f) fun v => ∀ i : Fin n, P i v[i] := by
  choose g hg hP using h
  have hf : f = fun i => pure (g i) := funext hg
  refine ⟨Vector.ofFn g, ?_, fun i => by simpa using hP i⟩
  rw [hf]
  exact Vector.ofFnM_pure

theorem Succeeds.tabulate {f : Fin n → Option α} {P : Fin n → α → Prop}
    (h : ∀ i, Succeeds (f i) (P i)) :
    Succeeds (Checked.tabulate f) fun g => ∀ i, P i (g i) := by
  choose g hg hP using h
  exact ⟨g, tabulate_eq hg, hP⟩

/-! ### The value over the integers -/

/-- If the computation returns a value, it is `a`. -/
def Yields (m : Option α) (a : α) : Prop := ∀ b, m = some b → b = a

theorem Yields.pure (a : α) : Yields (Option.some a) a := fun _ h => (Option.some_inj.1 h).symm

/-- **Composition.** -/
theorem Yields.bind {m : Option α} {f : α → Option β} {a : α} {b : β} (hm : Yields m a)
    (hf : Yields (f a) b) : Yields (m >>= f) b := by
  intro b' h
  obtain ⟨a', ha', hb'⟩ := Option.bind_eq_some_iff.1 h
  rw [hm a' ha'] at hb'
  exact hf b' hb'

theorem i32_yields (x : ℤ) : Yields (i32 x) x := by
  intro b h
  unfold i32 at h
  split at h
  · exact (Option.some_inj.1 h).symm
  · cases h

theorem add32_yields (a b : ℤ) : Yields (add32 a b) (a + b) := i32_yields (a + b)
theorem sub32_yields (a b : ℤ) : Yields (sub32 a b) (a - b) := i32_yields (a - b)
theorem mul32_yields (a b : ℤ) : Yields (mul32 a b) (a * b) := i32_yields (a * b)

/-- Every entry of a table that succeeds has succeeded. -/
theorem ofFnM_eq_some : ∀ {n : ℕ} {f : Fin n → Option α} {v : Vector α n},
    Vector.ofFnM f = some v → ∀ i, f i = some v[i]
  | 0, _, _, _, i => i.elim0
  | n + 1, f, v, h, i => by
      rw [Vector.ofFnM_succ] at h
      obtain ⟨as, has, h⟩ := Option.bind_eq_some_iff.1 h
      obtain ⟨a, ha, h⟩ := Option.bind_eq_some_iff.1 h
      obtain rfl := Option.some_inj.1 h
      refine Fin.lastCases ?_ (fun j => ?_) i
      · rw [ha]
        simp
      · rw [ofFnM_eq_some has j]
        simp

theorem Yields.tabulate {f : Fin n → Option α} {g : Fin n → α} (h : ∀ i, Yields (f i) (g i)) :
    Yields (Checked.tabulate f) g := by
  intro g' hg'
  obtain ⟨v, hv, hg'⟩ := Option.bind_eq_some_iff.1 hg'
  obtain rfl := Option.some_inj.1 hg'
  exact funext fun i => h i _ (ofFnM_eq_some hv i)

end Vino.Lib.Checked
