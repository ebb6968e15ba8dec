import Vino.Lib.Buffer

/-!
# Gathering Scattered Parts

A message that lies in several parts is copied into one buffer after another.  A cursor, a part and
an offset into it, says how far the message has been read; it moves on to the next part as soon as
a part is used up, so that empty parts are passed over.  `gather` fills one buffer and returns the
cursor; it fails where the parts are read out of range.

* `Cursor`: what is still to be read from a cursor,
* `gather_spec`: the buffer holds the next bytes of the message, whatever it held before.
-/

namespace Vino.Lib.Gather

open Vino.Lib.Buffer

variable {α : Type}

/-- Fill the buffer from `dstOff` on, starting at offset `off` of part `i`. -/
def gather (part : ℕ → Option (List α)) (count : ℕ) (dst : List α) (dstOff i off : ℕ) :
    Option (List α × ℕ × ℕ) :=
  if dstOff < dst.length ∧ i < count then
    match part i with
    | none => none
    | some p =>
      if p.length < off then none
      else
        let n := min (p.length - off) (dst.length - dstOff)
        if off + n = p.length then
          gather part count (copyAt dstOff ((p.drop off).take n) dst) (dstOff + n) (i + 1) 0
        else
          gather part count (copyAt dstOff ((p.drop off).take n) dst) (dstOff + n) i (off + n)
  else some (dst, i, off)
termination_by (count - i, dst.length - dstOff)
decreasing_by
  · exact Prod.Lex.left _ _ (by omega)
  · refine Prod.Lex.right _ ?_
    have hlen : (copyAt dstOff ((p.drop off).take n) dst).length = dst.length := by
      refine length_copyAt ?_
      rw [List.length_take, List.length_drop]
      omega
    rw [hlen]
    omega

/-- `rest` is what is still to be read of the parts. -/
structure Cursor (ps : List (List α)) (i off : ℕ) (rest : List α) : Prop where
  inside : ∀ p, ps[i]? = some p → off ≤ p.length
  start : ps.length ≤ i → off = 0
  rest : rest = (ps.drop i).flatten.drop off

theorem cursor_start (ps : List (List α)) : Cursor ps 0 0 ps.flatten :=
  ⟨fun _ _ => Nat.zero_le _, fun _ => rfl, rfl⟩

section Spec

variable {ps : List (List α)} {i off : ℕ} {rest p : List α}

/-- What is left begins with the rest of the part under the cursor. -/
theorem Cursor.rest_eq (h : Cursor ps i off rest) (hp : ps[i]? = some p) :
    rest = p.drop off ++ (ps.drop (i + 1)).flatten := by
  have hi : i < ps.length := (List.getElem?_eq_some_iff.1 hp).1
  have hcons : ps.drop i = p :: ps.drop (i + 1) := by
    rw [List.drop_eq_getElem_cons hi, (List.getElem?_eq_some_iff.1 hp).2]
  rw [h.rest, hcons, List.flatten_cons, List.drop_append_of_le_length (h.inside p hp)]

/-- The cursor behind a part that is used up. -/
theorem Cursor.next (h : Cursor ps i off rest) (hp : ps[i]? = some p) :
    Cursor ps (i + 1) 0 (rest.drop (p.length - off)) := by
  have hlen : (p.drop off).length = p.length - off := List.length_drop
  refine ⟨fun _ _ => Nat.zero_le _, fun _ => rfl, ?_⟩
  rw [h.rest_eq hp, ← hlen, List.drop_left, List.drop_zero]

/-- The cursor within a part. -/
theorem Cursor.within (h : Cursor ps i off rest) (hp : ps[i]? = some p) {n : ℕ}
    (hn : off + n ≤ p.length) : Cursor ps i (off + n) (rest.drop n) := by
  refine ⟨fun q hq => ?_, fun hle => ?_, ?_⟩
  · obtain rfl : p = q := Option.some.inj (hp.symm.trans hq)
    exact hn
  · have hi := (List.getElem?_eq_some_iff.1 hp).1
    omega
  · rw [h.rest, List.drop_drop]

/-- Where no part is left, nothing is. -/
theorem Cursor.rest_nil (h : Cursor ps i off rest) (hi : ps.length ≤ i) : rest = [] := by
  rw [h.rest, List.drop_of_length_le hi, List.flatten_nil, List.drop_nil]

end Spec

/-- **Filling a buffer.**  The part of the buffer in front is kept, the remainder holds the next
bytes, and the cursor stands behind them. -/
theorem gather_spec {part : ℕ → Option (List α)} {ps : List (List α)}
    (hpart : ∀ i < ps.length, part i = ps[i]?) (dst : List α) (dstOff i off : ℕ) {rest : List α}
    (hcur : Cursor ps i off rest) (hoff : dstOff ≤ dst.length)
    (hrest : dst.length - dstOff ≤ rest.length) :
    ∃ i' off', gather part ps.length dst dstOff i off =
        some (dst.take dstOff ++ rest.take (dst.length - dstOff), i', off') ∧
      Cursor ps i' off' (rest.drop (dst.length - dstOff)) := by
  have hcopy : ∀ (p : List α) (n : ℕ), off + n ≤ p.length → n ≤ dst.length - dstOff →
      (copyAt dstOff ((p.drop off).take n) dst).length = dst.length ∧
        (copyAt dstOff ((p.drop off).take n) dst).take (dstOff + n) =
          dst.take dstOff ++ (p.drop off).take n := by
    intro p n hn hfit
    have hlen : ((p.drop off).take n).length = n := by
      rw [List.length_take, List.length_drop]
      omega
    refine ⟨length_copyAt (by omega), ?_⟩
    have hfront : (dst.take dstOff ++ (p.drop off).take n).length = dstOff + n := by
      rw [List.length_append, hlen, List.length_take]
      omega
    rw [copyAt, ← List.append_assoc, ← hfront, List.take_left]
  unfold gather
  split
  · next hin =>
    obtain ⟨hdst, hi⟩ := hin
    obtain ⟨p, hp⟩ : ∃ p, ps[i]? = some p := ⟨ps[i], List.getElem?_eq_getElem hi⟩
    have hinside := hcur.inside p hp
    have heq := hcur.rest_eq hp
    rw [hpart i hi, hp]
    simp only [if_neg (Nat.not_lt.2 hinside)]
    obtain ⟨n, hn⟩ : ∃ n, min (p.length - off) (dst.length - dstOff) = n := ⟨_, rfl⟩
    rw [hn]
    obtain ⟨hlen, htake⟩ := hcopy p n (by omega) (by omega)
    -- what the copy took is the front of what was left
    have hfront : rest.take n = (p.drop off).take n := by
      rw [heq, List.take_append_of_le_length]
      rw [List.length_drop]
      omega
    have hjoin : (copyAt dstOff ((p.drop off).take n) dst).take (dstOff + n) ++
        (rest.drop n).take (dst.length - (dstOff + n)) =
          dst.take dstOff ++ rest.take (dst.length - dstOff) := by
      have hsplit : dst.length - dstOff = n + (dst.length - (dstOff + n)) := by omega
      rw [htake, ← hfront, List.append_assoc, hsplit, List.take_add]
    have hdrop : (rest.drop n).drop (dst.length - (dstOff + n)) =
        rest.drop (dst.length - dstOff) := by
      rw [List.drop_drop]
      congr 1
      omega
    have hleft : dst.length - (dstOff + n) ≤ (rest.drop n).length := by
      rw [List.length_drop]
      omega
    split
    · next hend =>
      have hnext : Cursor ps (i + 1) 0 (rest.drop n) := by
        have := hcur.next hp
        rwa [show p.length - off = n by omega] at this
      obtain ⟨i', off', hrun, hcur'⟩ := gather_spec hpart
        (copyAt dstOff ((p.drop off).take n) dst) (dstOff + n) (i + 1) 0 hnext
        (by rw [hlen]; omega) (by rw [hlen]; exact hleft)
      rw [hlen] at hrun hcur'
      exact ⟨i', off', by rw [hrun, hjoin], hdrop ▸ hcur'⟩
    · obtain ⟨i', off', hrun, hcur'⟩ := gather_spec hpart
        (copyAt dstOff ((p.drop off).take n) dst) (dstOff + n) i (off + n)
        (hcur.within hp (by omega)) (by rw [hlen]; omega) (by rw [hlen]; exact hleft)
      rw [hlen] at hrun hcur'
      exact ⟨i', off', by rw [hrun, hjoin], hdrop ▸ hcur'⟩
  · next hout =>
    have hfull : dst.length - dstOff = 0 := by
      by_cases hdst : dstOff < dst.length
      · have hnil := hcur.rest_nil (Nat.not_lt.1 fun hi => hout ⟨hdst, hi⟩)
        rw [hnil] at hrest
        simpa using hrest
      · omega
    rw [hfull, List.take_zero, List.append_nil, List.drop_zero, List.take_of_length_le (by omega)]
    exact ⟨i, off, rfl, hcur⟩
termination_by (ps.length - i, dst.length - dstOff)
decreasing_by
  · refine Prod.Lex.right _ ?_
    rw [hlen]
    omega
  · exact Prod.Lex.left _ _ (by omega)

end Vino.Lib.Gather
