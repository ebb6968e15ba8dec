import Mathlib

/-!
# Spans of a Wrapping Counter

A 32-bit counter is handed out in spans: each takes a number of consecutive values, and the next
one starts behind it or further on.  `Laid start lo hi spans` says that the spans, in order, lie
between the positions `lo` and `hi` of a counter that started at `start`, with gaps allowed.

`Contiguous seq seq' spans` is the layout without gaps, which takes the counter from `seq` to `seq'`.

* `Laid.append`, `Contiguous.append`: how layouts compose,
* `Contiguous.laid`: a layout without gaps takes as many positions as its spans have values,
* `Laid.pairwise_disjoint`: spans laid over at most `2 ^ 32` positions share no counter value.
-/

namespace Vino.Lib.Spans

/-- Consecutive values of a counter. -/
structure Span where
  seq : UInt32
  len : ℕ
  deriving DecidableEq, Repr

/-- No value belongs to both spans. -/
def Span.Disjoint (a b : Span) : Prop :=
  ∀ i < a.len, ∀ j < b.len, a.seq + UInt32.ofNat i ≠ b.seq + UInt32.ofNat j

/-- The spans lie in order between two positions of a counter. -/
def Laid (start : UInt32) : ℕ → ℕ → List Span → Prop
  | lo, hi, [] => lo ≤ hi
  | lo, hi, s :: spans =>
      ∃ pos, lo ≤ pos ∧ s.seq = start + UInt32.ofNat pos ∧ Laid start (pos + s.len) hi spans

variable {start : UInt32} {lo mid hi : ℕ}

theorem Laid.le : ∀ {spans : List Span} {lo : ℕ}, Laid start lo hi spans → lo ≤ hi
  | [], _, h => h
  | _ :: _, _, h => by
      obtain ⟨pos, hlo, -, hrest⟩ := h
      have hle := hrest.le
      omega

theorem Laid.mono_left {lo' : ℕ} (hlo : lo' ≤ lo) :
    ∀ {spans : List Span}, Laid start lo hi spans → Laid start lo' hi spans
  | [], h => Nat.le_trans hlo h
  | _ :: _, h => by
      obtain ⟨pos, hpos, hseq, hrest⟩ := h
      exact ⟨pos, Nat.le_trans hlo hpos, hseq, hrest⟩

theorem Laid.mono_right {hi' : ℕ} (hhi : hi ≤ hi') :
    ∀ {spans : List Span} {lo : ℕ}, Laid start lo hi spans → Laid start lo hi' spans
  | [], _, h => Nat.le_trans h hhi
  | _ :: _, _, h => by
      obtain ⟨pos, hpos, hseq, hrest⟩ := h
      exact ⟨pos, hpos, hseq, hrest.mono_right hhi⟩

theorem Laid.append {spans' : List Span} : ∀ {spans : List Span} {lo : ℕ},
    Laid start lo mid spans → Laid start mid hi spans' → Laid start lo hi (spans ++ spans')
  | [], _, h, h' => h'.mono_left h
  | _ :: _, _, h, h' => by
      obtain ⟨pos, hpos, hseq, hrest⟩ := h
      exact ⟨pos, hpos, hseq, hrest.append h'⟩

theorem Laid.left {spans' : List Span} : ∀ {spans : List Span} {lo : ℕ},
    Laid start lo hi (spans ++ spans') → Laid start lo hi spans
  | [], _, h => h.le
  | _ :: _, _, h => by
      obtain ⟨pos, hpos, hseq, hrest⟩ := h
      exact ⟨pos, hpos, hseq, hrest.left⟩

theorem Laid.bounds {s : Span} : ∀ {spans : List Span} {lo : ℕ}, Laid start lo hi spans →
    s ∈ spans → ∃ pos, lo ≤ pos ∧ pos + s.len ≤ hi ∧ s.seq = start + UInt32.ofNat pos
  | [], _, _, hs => absurd hs List.not_mem_nil
  | t :: spans, lo, h, hs => by
      obtain ⟨pos, hpos, hseq, hrest⟩ := h
      rcases List.mem_cons.1 hs with rfl | hs
      · exact ⟨pos, hpos, hrest.le, hseq⟩
      · obtain ⟨pos', hpos', hle, hseq'⟩ := hrest.bounds hs
        exact ⟨pos', by omega, hle, hseq'⟩

theorem ofNat_ne {m n : ℕ} (hlt : m < n) (hn : n < m + 2 ^ 32) :
    UInt32.ofNat m ≠ UInt32.ofNat n := by
  intro h
  have hmod : m % 2 ^ 32 = n % 2 ^ 32 := by
    simpa [UInt32.toNat_ofNat'] using congrArg UInt32.toNat h
  omega

/-- **Spans laid over fewer positions than the counter has values share none.** -/
theorem Laid.pairwise_disjoint : ∀ {spans : List Span} {lo : ℕ}, Laid start lo hi spans →
    hi ≤ lo + 2 ^ 32 → spans.Pairwise Span.Disjoint
  | [], _, _, _ => List.Pairwise.nil
  | s :: spans, lo, h, hhi => by
      obtain ⟨pos, hpos, hseq, hrest⟩ := h
      refine List.Pairwise.cons ?_ (hrest.pairwise_disjoint (by omega))
      intro t ht i hi' j hj heq
      obtain ⟨pos', hpos', hle, hseq'⟩ := hrest.bounds ht
      rw [hseq, hseq', UInt32.add_assoc, UInt32.add_assoc, UInt32.add_right_inj,
        ← UInt32.ofNat_add, ← UInt32.ofNat_add] at heq
      exact ofNat_ne (by omega) (by omega) heq

/-! ### Layouts without gaps -/

/-- The number of counter values the spans take. -/
def total (spans : List Span) : ℕ := (spans.map Span.len).sum

@[simp]
theorem total_nil : total [] = 0 := rfl

@[simp]
theorem total_cons (s : Span) (spans : List Span) : total (s :: spans) = s.len + total spans := by
  simp [total]

@[simp]
theorem total_append (spans spans' : List Span) :
    total (spans ++ spans') = total spans + total spans' := by
  simp [total]

/-- The spans take the counter from `seq` to `seq'`, one right behind the other. -/
def Contiguous : UInt32 → UInt32 → List Span → Prop
  | seq, seq', [] => seq' = seq
  | seq, seq', s :: spans => s.seq = seq ∧ Contiguous (seq + UInt32.ofNat s.len) seq' spans

theorem Contiguous.append {seq' seq'' : UInt32} {spans' : List Span} :
    ∀ {spans : List Span} {seq : UInt32}, Contiguous seq seq' spans →
      Contiguous seq' seq'' spans' → Contiguous seq seq'' (spans ++ spans')
  | [], _, h, h' => by
      cases h
      exact h'
  | _ :: _, _, ⟨hseq, hrest⟩, h' => ⟨hseq, hrest.append h'⟩

theorem Contiguous.left {seq'' : UInt32} {spans' : List Span} :
    ∀ {spans : List Span} {seq : UInt32}, Contiguous seq seq'' (spans ++ spans') →
      ∃ seq', Contiguous seq seq' spans
  | [], seq, _ => ⟨seq, rfl⟩
  | _ :: _, _, ⟨hseq, hrest⟩ => by
      obtain ⟨seq', hleft⟩ := hrest.left
      exact ⟨seq', hseq, hleft⟩

/-- **A layout without gaps**, from any position of the counter. -/
theorem Contiguous.laid {seq' : UInt32} : ∀ {spans : List Span} {lo : ℕ},
    Contiguous (start + UInt32.ofNat lo) seq' spans →
      Laid start lo (lo + total spans) spans ∧ seq' = start + UInt32.ofNat (lo + total spans)
  | [], _, h => ⟨Nat.le_refl _, h⟩
  | s :: spans, lo, ⟨hseq, hrest⟩ => by
      rw [UInt32.add_assoc, ← UInt32.ofNat_add] at hrest
      obtain ⟨hlaid, hend⟩ := hrest.laid
      rw [total_cons, ← Nat.add_assoc]
      exact ⟨⟨lo, Nat.le_refl lo, hseq, hlaid⟩, hend⟩

/-- Spans without gaps share no value until the counter has gone round. -/
theorem Contiguous.pairwise_disjoint {seq seq' : UInt32} {spans : List Span}
    (h : Contiguous seq seq' spans) (htotal : total spans ≤ 2 ^ 32) :
    spans.Pairwise Span.Disjoint := by
  have hzero : seq = seq + UInt32.ofNat 0 := by simp
  rw [hzero] at h
  exact h.laid.1.pairwise_disjoint (by omega)

end Vino.Lib.Spans
