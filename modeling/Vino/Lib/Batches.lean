import Mathlib.Data.List.TakeWhile

/-!
# Greedy Batches

A list is cut into batches from the front.  A batch takes items as long as their key is that of its
first item, it holds fewer than `k`, and no cut is due: `cut i` says that a batch which is not empty
ends before item `i`.

* `batches_eq_iff`: cuts change nothing exactly when each of them falls where a batch begins anyway,
  that is, behind a multiple of `k` items of one key.
-/

namespace Vino.Lib.Batches

variable {α κ : Type} [DecidableEq κ] (key : α → κ) (k : ℕ)

/-! ### One batch -/

section One

variable (cut : ℕ → Bool) (y : κ)

/-- How many items a batch of key `y` that holds `n` takes further; `i` is the first of them. -/
def more : ℕ → ℕ → List α → ℕ
  | _, _, [] => 0
  | i, n, a :: l => if key a ≠ y ∨ cut i = true ∨ k ≤ n then 0 else more (i + 1) (n + 1) l + 1

/-- The batches of a list whose first item is number `i`. -/
def batches : ℕ → ℕ → List α → List (List α)
  | 0, _, _ => []
  | _, _, [] => []
  | fuel + 1, i, a :: l =>
      (a :: l.take (more key k cut (key a) (i + 1) 1 l)) ::
        batches fuel (i + 1 + more key k cut (key a) (i + 1) 1 l)
          (l.drop (more key k cut (key a) (i + 1) 1 l))

theorem more_le_length (i n : ℕ) (l : List α) : more key k cut y i n l ≤ l.length := by
  induction l generalizing i n with
  | nil => exact le_rfl
  | cons a l ih =>
      rw [more, List.length_cons]
      split_ifs
      · exact Nat.zero_le _
      · exact Nat.succ_le_succ (ih _ _)

theorem key_of_mem_more (i n : ℕ) (l : List α) :
    ∀ a ∈ l.take (more key k cut y i n l), key a = y := by
  induction l generalizing i n with
  | nil => simp
  | cons a l ih =>
      rw [more]
      split_ifs with h
      · simp
      · rw [not_or, not_not] at h
        rw [List.take_succ_cons]
        intro b hb
        rcases List.mem_cons.1 hb with rfl | hb
        · exact h.1
        · exact ih _ _ b hb

theorem more_le (i n : ℕ) (hn : n ≤ k) (l : List α) : n + more key k cut y i n l ≤ k := by
  induction l generalizing i n with
  | nil => exact hn
  | cons a l ih =>
      rw [more]
      split_ifs with h
      · exact hn
      · have := ih (i + 1) (n + 1) (by omega)
        omega

/-- Why a batch without cuts ends. -/
theorem more_ends (i n : ℕ) (hn : n ≤ k) (l : List α) :
    let m := more key k (fun _ => false) y i n l
    m = l.length ∨ n + m = k ∨ ∃ a, l[m]? = some a ∧ key a ≠ y := by
  induction l generalizing i n with
  | nil => exact .inl rfl
  | cons a l ih =>
      intro m
      by_cases h : key a ≠ y ∨ false = true ∨ k ≤ n
      · have hm : m = 0 := if_pos h
        rcases h with h | h | h
        · exact .inr (.inr ⟨a, by rw [hm]; rfl, h⟩)
        · cases h
        · exact .inr (.inl (by omega))
      · have hm : m = more key k (fun _ => false) y (i + 1) (n + 1) l + 1 := if_neg h
        rw [hm, List.length_cons, List.getElem?_cons_succ]
        rcases ih (i + 1) (n + 1) (by omega) with h1 | h1 | h1
        · exact .inl (by rw [h1])
        · exact .inr (.inl (by omega))
        · exact .inr (.inr h1)

/-- A batch is not empty, holds at most `k` items of the list, and has one key. -/
theorem mem_batches (hk : 1 ≤ k) :
    ∀ (fuel i : ℕ) (l : List α), ∀ batch ∈ batches key k cut fuel i l,
      ∃ a rest, batch = a :: rest ∧ batch.length ≤ k ∧ batch ⊆ l ∧ ∀ b ∈ batch, key b = key a := by
  intro fuel
  induction fuel with
  | zero =>
      intro i l batch hb
      cases hb
  | succ fuel ih =>
      intro i l batch hb
      rcases l with _ | ⟨a, l⟩
      · cases hb
      have hmk := more_le key k cut (key a) (i + 1) 1 hk l
      have hml := more_le_length key k cut (key a) (i + 1) 1 l
      have hkey := key_of_mem_more key k cut (key a) (i + 1) 1 l
      rw [batches] at hb
      generalize more key k cut (key a) (i + 1) 1 l = m at hmk hml hkey hb
      rcases List.mem_cons.1 hb with rfl | hb
      · refine ⟨a, _, rfl, ?_, ?_, fun b hb => ?_⟩
        · rw [List.length_cons, List.length_take, Nat.min_eq_left hml]
          omega
        · exact List.cons_subset_cons a (List.take_subset _ _)
        · rcases List.mem_cons.1 hb with rfl | hb
          · rfl
          · exact hkey b hb
      · obtain ⟨c, rest, hc, hlen, hsub, hall⟩ := ih _ _ batch hb
        exact ⟨c, rest, hc, hlen, fun b hb => List.mem_cons_of_mem a
          ((List.drop_subset _ _) (hsub hb)), hall⟩

/-- A batch is shortened exactly by a cut among the items it would take. -/
theorem more_cut_iff (i n : ℕ) (l : List α) :
    more key k cut y i n l = more key k (fun _ => false) y i n l ↔
      ∀ j < more key k (fun _ => false) y i n l, cut (i + j) = false := by
  induction l generalizing i n with
  | nil => simp [more]
  | cons a l ih =>
      simp only [more]
      by_cases h : key a ≠ y ∨ k ≤ n
      · rw [if_pos (h.imp_right Or.inr), if_pos (h.imp_right Or.inr)]
        simp
      · rw [if_neg (show ¬(key a ≠ y ∨ false = true ∨ k ≤ n) by simpa using h)]
        cases hc : cut i with
        | true =>
            rw [if_pos (.inr (.inl rfl))]
            refine ⟨fun h0 => by omega, fun hall => ?_⟩
            rw [← Nat.add_zero i, hall 0 (Nat.succ_pos _)] at hc
            cases hc
        | false =>
            rw [if_neg (show ¬(key a ≠ y ∨ false = true ∨ k ≤ n) by simpa using h),
              Nat.add_right_cancel_iff, ih]
            constructor
            · intro hall j hj
              rcases Nat.eq_zero_or_pos j with rfl | hpos
              · exact hc
              · have := hall (j - 1) (by omega)
                rwa [show i + 1 + (j - 1) = i + j by omega] at this
            · intro hall j hj
              rw [Nat.add_assoc, Nat.add_comm 1]
              exact hall (j + 1) (by omega)

end One

/-! ### Where batches begin -/

/-- How many items directly before item `b` have its key. -/
def runBefore (ys : List κ) (b : ℕ) : ℕ :=
  ((ys.take b).reverse.takeWhile fun y => ys[b]? = some y).length

/-- Inside a run from the front everything before counts. -/
theorem runBefore_inside {ys : List κ} {y : κ} {b : ℕ} (hb : ys[b]? = some y)
    (hrun : ∀ z ∈ ys.take b, z = y) (hlen : b ≤ ys.length) : runBefore ys b = b := by
  have hall : ∀ z ∈ (ys.take b).reverse, decide (ys[b]? = some z) = true := by
    intro z hz
    rw [hrun z (List.mem_reverse.1 hz)]
    exact decide_eq_true hb
  rw [runBefore, List.takeWhile_eq_self_iff.2 hall, List.length_reverse, List.length_take,
    Nat.min_eq_left hlen]

/-- Behind a first batch the count is that behind the rest, up to the size of the batch. -/
theorem runBefore_behind {ys : List κ} {y : κ} {k m b : ℕ} (hrun : ∀ z ∈ ys.take m, z = y)
    (hmb : m ≤ b) (hb : b < ys.length) (hends : m = k ∨ ∃ z, ys[m]? = some z ∧ z ≠ y) :
    runBefore ys b % k = runBefore (ys.drop m) (b - m) % k := by
  have hget : (ys.drop m)[b - m]? = ys[b]? := by
    rw [List.getElem?_drop, Nat.add_sub_cancel' hmb]
  have hsplit : (ys.take b).reverse =
      ((ys.drop m).take (b - m)).reverse ++ (ys.take m).reverse := by
    rw [← List.reverse_append, ← List.take_add, Nat.add_sub_cancel' hmb]
  unfold runBefore
  rw [hget, hsplit, List.takeWhile_append]
  split_ifs with hfull
  · -- the run of item `b` reaches back to the first batch
    rw [List.length_append, hfull]
    have hafter := List.takeWhile_eq_self_iff.1
      (List.IsPrefix.eq_of_length (List.takeWhile_prefix _) hfull)
    by_cases hy : ys[b]? = some y
    · rcases hends with rfl | ⟨z, hz, hne⟩
      · have hall : ∀ z ∈ (ys.take m).reverse, decide (ys[b]? = some z) = true := by
          intro z hz
          rw [hrun z (List.mem_reverse.1 hz)]
          exact decide_eq_true hy
        have hlen : (ys.take m).reverse.length = m := by
          rw [List.length_reverse, List.length_take, Nat.min_eq_left (by omega)]
        rw [List.takeWhile_eq_self_iff.2 hall, hlen, Nat.add_mod_right]
      · refine absurd ?_ hne
        rcases Nat.eq_or_lt_of_le hmb with rfl | hlt
        · exact Option.some_inj.1 (hz.symm.trans hy)
        · have hmem : z ∈ ((ys.drop m).take (b - m)).reverse := by
            refine List.mem_reverse.2 (List.mem_of_getElem? (i := 0) ?_)
            rw [List.getElem?_take_of_lt (by omega), List.getElem?_drop]
            exact hz
          exact (Option.some_inj.1 (hy.symm.trans (of_decide_eq_true (hafter z hmem)))).symm
    · have hnone : (ys.take m).reverse.takeWhile (fun z => decide (ys[b]? = some z)) = [] := by
        refine List.takeWhile_eq_nil_iff.2 fun hpos htrue => hy ?_
        rw [← hrun _ (List.mem_reverse.1 (List.get_mem _ ⟨0, hpos⟩))]
        exact of_decide_eq_true htrue
      rw [hnone, List.length_nil, Nat.add_zero]
  · rfl

/-- **When cuts change nothing**: each of them falls behind a multiple of `k` items of its key. -/
theorem batches_eq_iff (cut : ℕ → Bool) (hk : 1 ≤ k) :
    ∀ (fuel i : ℕ) (l : List α), l.length ≤ fuel →
      (batches key k cut fuel i l = batches key k (fun _ => false) fuel i l ↔
        ∀ b < l.length, cut (i + b) = true → runBefore (l.map key) b % k = 0) := by
  intro fuel
  induction fuel with
  | zero =>
      intro i l hl
      refine ⟨fun _ b hb => ?_, fun _ => rfl⟩
      omega
  | succ fuel ih =>
      intro i l hl
      rcases l with _ | ⟨a, l⟩
      · exact ⟨fun _ b hb => absurd hb (Nat.not_lt_zero b), fun _ => rfl⟩
      have hmk := more_le key k (fun _ => false) (key a) (i + 1) 1 hk l
      have hml := more_le_length key k (fun _ => false) (key a) (i + 1) 1 l
      have hkey := key_of_mem_more key k (fun _ => false) (key a) (i + 1) 1 l
      have hends := more_ends key k (key a) (i + 1) 1 hk l
      have hcut := more_cut_iff key k cut (key a) (i + 1) 1 l
      have hml' := more_le_length key k cut (key a) (i + 1) 1 l
      rw [batches, batches]
      generalize more key k (fun _ => false) (key a) (i + 1) 1 l = m at hmk hml hkey hends hcut ⊢
      generalize more key k cut (key a) (i + 1) 1 l = m' at hcut hml' ⊢
      have hrun : ∀ z ∈ ((a :: l).map key).take (m + 1), z = key a := by
        intro z hz
        rw [List.map_cons, List.take_succ_cons, ← List.map_take] at hz
        rcases List.mem_cons.1 hz with rfl | hz
        · rfl
        · obtain ⟨c, hc, rfl⟩ := List.mem_map.1 hz
          exact hkey c hc
      by_cases hm : m' = m
      · subst hm
        have hfalse := hcut.1 rfl
        have hlen : (l.drop m').length ≤ fuel := by
          rw [List.length_drop]
          rw [List.length_cons] at hl
          omega
        have hshift : ∀ b, m' < b → b < l.length + 1 →
            runBefore ((a :: l).map key) b % k =
              runBefore ((l.drop m').map key) (b - (m' + 1)) % k := by
          intro b hb hbl
          rw [runBefore_behind (m := m' + 1) hrun hb (by simpa using hbl), List.map_cons,
            List.drop_succ_cons, List.map_drop]
          rcases hends with h | h | ⟨c, hc, hne⟩
          · omega
          · exact .inl (by omega)
          · exact .inr ⟨key c, by simp [hc], hne⟩
        rw [List.cons.injEq, and_iff_right rfl, ih (i + 1 + m') (l.drop m') hlen]
        constructor
        · intro hall b hb hc
          rcases Nat.lt_or_ge m' b with hlt | hge
          · rw [hshift b hlt hb]
            refine hall _ ?_ ?_
            · rw [List.length_drop]
              rw [List.length_cons] at hb
              omega
            · rwa [show i + 1 + m' + (b - (m' + 1)) = i + b by omega]
          · rcases Nat.eq_zero_or_pos b with rfl | hpos
            · exact Nat.zero_mod k
            · have := hfalse (b - 1) (by omega)
              rw [show i + 1 + (b - 1) = i + b by omega, hc] at this
              cases this
        · intro hall b hb hc
          rw [List.length_drop] at hb
          have hb' : m' + 1 + b < l.length + 1 := by omega
          have := hall (m' + 1 + b) hb' (by
            rwa [show i + (m' + 1 + b) = i + 1 + m' + b by omega])
          rwa [hshift _ (by omega) hb', Nat.add_sub_cancel_left] at this
      · refine iff_of_false (fun heq => hm ?_) fun hall => ?_
        · have htake := (List.cons.inj (List.cons.inj heq).1).2
          have hlen := congrArg List.length htake
          rwa [List.length_take, List.length_take, Nat.min_eq_left hml', Nat.min_eq_left hml]
            at hlen
        · have hex : ∃ j < m, cut (i + 1 + j) = true := by
            by_contra hno
            refine hm (hcut.2 fun j hj => ?_)
            rw [← Bool.not_eq_true]
            exact fun hc => hno ⟨j, hj, hc⟩
          obtain ⟨j, hj, hc⟩ := hex
          have hzero := hall (1 + j) (by rw [List.length_cons]; omega) (by
            rwa [← Nat.add_assoc])
          have hlen : ((a :: l).map key).length = l.length + 1 := by simp
          have hget : ((a :: l).map key)[1 + j]? = some (key a) := by
            rw [List.getElem?_eq_getElem (by omega)]
            refine congrArg some (hrun _ (List.mem_take_iff_getElem.2 ⟨1 + j, by omega, rfl⟩))
          rw [runBefore_inside hget (fun z hz => hrun z
            ((List.take_sublist_take_left (by omega)).subset hz)) (by omega),
            Nat.mod_eq_of_lt (by omega)] at hzero
          omega

end Vino.Lib.Batches
