import Mathlib

/-!
# Cutting a List into Chunks

A list is cut into chunks of a given length; the last chunk may be shorter, and there is no empty
one.  The results are about `List.toChunks`.

* `toChunks_eq_map`: the chunk at a place, and how many there are,
* `flatten_toChunks`: the chunks make up the list,
* `mem_toChunks_ne_nil`, `mem_toChunks_length`: their lengths.
-/

namespace Vino.Lib.Chunks

variable {α : Type} {n : ℕ}

/-- The chunks by their places. -/
def cut (n : ℕ) (xs : List α) : List (List α) :=
  (List.range ((xs.length + n - 1) / n)).map fun i => (xs.drop (i * n)).take n

theorem cut_nil (hn : 0 < n) : cut n ([] : List α) = [] := by
  have hzero : (([] : List α).length + n - 1) / n = 0 := Nat.div_eq_of_lt (by simp; omega)
  rw [cut, hzero, List.range_zero, List.map_nil]

/-- A full chunk in front. -/
theorem cut_append (hn : 0 < n) (a ys : List α) (ha : a.length = n) :
    cut n (a ++ ys) = a :: cut n ys := by
  have hcount : ((a ++ ys).length + n - 1) / n = (ys.length + n - 1) / n + 1 := by
    have hsum : (a ++ ys).length + n - 1 = (ys.length + n - 1) + n := by
      rw [List.length_append]
      omega
    rw [hsum, Nat.add_div_right _ hn]
  rw [cut, hcount, List.range_succ_eq_map, List.map_cons, List.map_map, cut, Nat.zero_mul,
    List.drop_zero, ← ha, List.take_left]
  refine congrArg (a :: ·) (List.map_congr_left fun i _ => ?_)
  show ((a ++ ys).drop ((i + 1) * a.length)).take a.length = _
  have hplace : (i + 1) * a.length = a.length + i * a.length := by ring
  rw [hplace, ← List.drop_drop, List.drop_left]

/-- A last chunk that need not be full. -/
theorem cut_short {a : List α} (ha : a.length ≤ n) (hne : a ≠ []) : cut n a = [a] := by
  have hpos := List.length_pos_iff.2 hne
  have hcount : (a.length + n - 1) / n = 1 := by
    rw [Nat.div_eq_iff (by omega)]
    omega
  rw [cut, hcount]
  simp [List.take_of_length_le ha]

theorem toChunksGo_eq (hn : 0 < n) (xs : List α) (acc : Array α) (done : Array (List α))
    (hacc : acc.size ≤ n) (hne : acc.toList ≠ []) :
    List.toChunks.go n xs acc done = done.toList ++ cut n (acc.toList ++ xs) := by
  induction xs generalizing acc done with
  | nil => simp [List.toChunks.go, cut_short (a := acc.toList) (by simpa using hacc) hne]
  | cons x xs ih =>
    rw [List.toChunks.go]
    split_ifs with hfull
    · rw [beq_iff_eq] at hfull
      have hone := ih ((Array.mkEmpty n).push x) (done.push acc.toList) (by simp; omega) (by simp)
      rw [hone, cut_append hn acc.toList (x :: xs) (by simpa using hfull)]
      simp
    · rw [beq_iff_eq] at hfull
      rw [ih _ _ (by rw [Array.size_push]; omega) (by simp)]
      simp

/-- **The chunks of a list**, by their places. -/
theorem toChunks_eq_cut (hn : 0 < n) (xs : List α) : xs.toChunks n = cut n xs := by
  cases xs with
  | nil => rw [cut_nil hn, List.toChunks]
  | cons x xs =>
    obtain ⟨k, rfl⟩ := Nat.exists_eq_succ_of_ne_zero hn.ne'
    exact toChunksGo_eq hn xs #[x] #[] (by simp) (by simp)

theorem length_toChunks (hn : 0 < n) (xs : List α) :
    (xs.toChunks n).length = (xs.length + n - 1) / n := by
  rw [toChunks_eq_cut hn, cut, List.length_map, List.length_range]

theorem toChunks_cons (hn : 0 < n) {xs : List α} (hne : xs ≠ []) :
    xs.toChunks n = xs.take n :: (xs.drop n).toChunks n := by
  rw [toChunks_eq_cut hn, toChunks_eq_cut hn]
  by_cases hshort : xs.length ≤ n
  · rw [List.take_of_length_le hshort, List.drop_of_length_le hshort, cut_nil hn,
      cut_short hshort hne]
  · have hfull : (xs.take n).length = n := by
      rw [List.length_take]
      omega
    conv_lhs => rw [← List.take_append_drop n xs]
    exact cut_append hn _ _ hfull

/-- **The chunks make up the list.** -/
theorem flatten_toChunks (hn : 0 < n) (xs : List α) : (xs.toChunks n).flatten = xs := by
  induction hlen : xs.length using Nat.strong_induction_on generalizing xs with
  | _ m ih =>
    by_cases hne : xs = []
    · rw [hne, toChunks_eq_cut hn, cut_nil hn, List.flatten_nil]
    · have hpos := List.length_pos_iff.2 hne
      have hrest := ih (xs.drop n).length (by rw [List.length_drop]; omega) (xs.drop n) rfl
      rw [toChunks_cons hn hne, List.flatten_cons, hrest, List.take_append_drop]

theorem mem_toChunks_length (hn : 0 < n) {xs chunk : List α} (h : chunk ∈ xs.toChunks n) :
    chunk.length ≤ n := by
  rw [toChunks_eq_cut hn, cut] at h
  obtain ⟨i, -, rfl⟩ := List.mem_map.1 h
  exact List.length_take_le _ _

theorem mem_toChunks_ne_nil (hn : 0 < n) {xs chunk : List α} (h : chunk ∈ xs.toChunks n) :
    chunk ≠ [] := by
  rw [toChunks_eq_cut hn, cut] at h
  obtain ⟨i, hi, rfl⟩ := List.mem_map.1 h
  have hin := (Nat.lt_div_iff_mul_lt hn).1 (List.mem_range.1 hi)
  rw [← List.length_pos_iff, List.length_take, List.length_drop]
  omega

/-- The chunk at a place. -/
theorem getElem?_toChunks (hn : 0 < n) (xs : List α) (i : ℕ) :
    (xs.toChunks n)[i]? =
      if i * n < xs.length then some ((xs.drop (i * n)).take n) else none := by
  have hiff : i < (xs.length + n - 1) / n ↔ i * n < xs.length := by
    rw [Nat.lt_div_iff_mul_lt hn]
    omega
  rw [toChunks_eq_cut hn, cut, List.getElem?_map]
  split_ifs with h
  · rw [List.getElem?_range (hiff.2 h), Option.map_some]
  · rw [List.getElem?_eq_none (by rw [List.length_range]; exact not_lt.1 fun hlt => h (hiff.1 hlt)),
      Option.map_none]

/-- A chunk that is not the last is full. -/
theorem toChunks_full (hn : 0 < n) {xs t u : List α} {pre post : List (List α)}
    (h : xs.toChunks n = pre ++ t :: u :: post) : t.length = n := by
  have ht : (xs.toChunks n)[pre.length]? = some t := by
    rw [h, List.getElem?_append_right le_rfl, Nat.sub_self]
    rfl
  have hu : (xs.toChunks n)[pre.length + 1]? = some u := by
    rw [h, List.getElem?_append_right (Nat.le_add_right _ 1), Nat.add_sub_cancel_left]
    rfl
  rw [getElem?_toChunks hn] at ht hu
  split_ifs at ht hu with hin hnext
  obtain rfl := Option.some.inj ht
  have hplace : (pre.length + 1) * n = pre.length * n + n := by ring
  rw [List.length_take, List.length_drop]
  omega

/-- The length of the last chunk. -/
theorem toChunks_last (hn : 0 < n) {xs t : List α} {pre : List (List α)}
    (h : xs.toChunks n = pre ++ [t]) : xs.length = pre.length * n + t.length := by
  have ht : (xs.toChunks n)[pre.length]? = some t := by
    rw [h, List.getElem?_append_right le_rfl, Nat.sub_self]
    rfl
  have hend : (xs.toChunks n)[pre.length + 1]? = none := by
    rw [h, List.getElem?_append_right (Nat.le_add_right _ 1), Nat.add_sub_cancel_left]
    rfl
  rw [getElem?_toChunks hn] at ht hend
  split_ifs at ht hend with hin hnext
  obtain rfl := Option.some.inj ht
  have hplace : (pre.length + 1) * n = pre.length * n + n := by ring
  rw [List.length_take, List.length_drop]
  omega

end Vino.Lib.Chunks
