import Mathlib

/-!
# Fixed-Length Buffers

A message is often laid out by allocating a zeroed buffer and copying its fields to their
offsets.  `Holds l off w` says that `w` stands in `l` at offset `off`; copying a field makes it
stand there and keeps every field it does not overlap.

* `holds_copyAt`: the field just copied,
* `Holds.copyAt`: the fields before and behind it,
* `Holds.drop_eq`: what a reader positioned at the offset sees,
* `copyAt_append`: a field replaced in place.
-/

namespace Vino.Lib.Buffer

variable {α : Type}

/-- Overwrite `l` with `b` from offset `off` on. -/
def copyAt (off : ℕ) (b l : List α) : List α := l.take off ++ (b ++ l.drop (off + b.length))

/-- The word `w` stands in `l` at offset `off`. -/
def Holds (l : List α) (off : ℕ) (w : List α) : Prop := ∀ i < w.length, l[off + i]? = w[i]?

section Copy

variable {l b w : List α} {off pos : ℕ}

theorem length_copyAt (h : off + b.length ≤ l.length) : (copyAt off b l).length = l.length := by
  simp only [copyAt, List.length_append, List.length_take, List.length_drop]
  omega

theorem getElem?_copyAt (h : off + b.length ≤ l.length) (i : ℕ) :
    (copyAt off b l)[i]? =
      if off ≤ i ∧ i < off + b.length then b[i - off]? else l[i]? := by
  have htake : (l.take off).length = off := by rw [List.length_take]; omega
  unfold copyAt
  split_ifs with hi
  · rw [List.getElem?_append_right (by omega), htake, List.getElem?_append_left (by omega)]
  · rcases Nat.lt_or_ge i off with hlt | hge
    · rw [List.getElem?_append_left (by omega), List.getElem?_take_of_lt hlt]
    · rw [List.getElem?_append_right (by omega), htake, List.getElem?_append_right (by omega),
        List.getElem?_drop]
      congr 1
      omega

/-- **The field just copied stands at its offset.** -/
theorem holds_copyAt (h : off + b.length ≤ l.length) : Holds (copyAt off b l) off b := by
  intro i hi
  rw [getElem?_copyAt h, if_pos (by omega)]
  congr 1
  omega

/-- **Fields that do not overlap the copied one are kept.** -/
theorem Holds.copyAt (hw : Holds l pos w) (h : off + b.length ≤ l.length)
    (hdisj : pos + w.length ≤ off ∨ off + b.length ≤ pos) :
    Holds (Buffer.copyAt off b l) pos w := by
  intro i hi
  rw [getElem?_copyAt h, if_neg (by omega)]
  exact hw i hi

/-- What a reader positioned at the offset of a field sees. -/
theorem Holds.drop_eq (hw : Holds l pos w) : ∃ r, l.drop pos = w ++ r := by
  refine ⟨(l.drop pos).drop w.length, ?_⟩
  have htake : (l.drop pos).take w.length = w := by
    refine List.ext_getElem? fun i => ?_
    rcases Nat.lt_or_ge i w.length with hi | hi
    · rw [List.getElem?_take_of_lt hi, List.getElem?_drop, hw i hi]
    · rw [List.getElem?_eq_none (by rw [List.length_take]; omega), List.getElem?_eq_none hi]
  conv_lhs => rw [← List.take_append_drop w.length (l.drop pos), htake]

/-- Copying over a field of the same length, between what is in front and behind. -/
theorem copyAt_append {p m t : List α} (hp : p.length = off) (hm : m.length = b.length) :
    Buffer.copyAt off b (p ++ (m ++ t)) = (p ++ b) ++ t := by
  subst hp
  rw [List.append_assoc]
  rw [Buffer.copyAt, List.take_left, ← hm, ← List.drop_drop, List.drop_left, List.drop_left]

end Copy

end Vino.Lib.Buffer
