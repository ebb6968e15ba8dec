import Mathlib
import Vino.Haar.Decode

/-!
# The Coder Never Saturates on Real Pixels

Bounds carried through the colour transform, the three Haar levels, the quantisers and the
DPCM, for channels of at most `2 ^ bits - 1`.  With `m` the largest channel value:

* the samples lie in `[0, 64 m]` for luma and `[-64 m, 64 m]` for chroma,
* one Haar step takes `[lo, hi]` to `[4 lo, 4 hi]` in the low band and to
  `[-2 (hi - lo), 2 (hi - lo)]` in the others,
* a quantised luma AC coefficient is at most `2 m` and a chroma one at most `4 m` in absolute
  value, a luma DC lies in `[0, 4 m]` and a chroma one in `[-m, m]`.

These are met with equality, and `2 m` and `4 m` are just below the ceilings of the depth.
-/

namespace Vino.Haar.Range

open Vino.Haar.Transform Vino.Haar.Coder Vino.Haar.Strip Vino.Haar.Decode Vino.Lib.Checked
  Vino.Lib.Reader

/-! ### The Haar levels -/

/-- All entries of a matrix lie between `lo` and `hi`. -/
def Within {n : ℕ} (lo hi : ℤ) (m : Matrix (Fin n) (Fin n) ℤ) : Prop :=
  ∀ r c, lo ≤ m r c ∧ m r c ≤ hi

section Intervals

variable {a b lo hi lo' hi' : ℤ}

theorem add32_within (ha : lo ≤ a ∧ a ≤ hi) (hb : lo' ≤ b ∧ b ≤ hi') (hl : I32 (lo + lo'))
    (hh : I32 (hi + hi')) :
    Succeeds (add32 a b) fun x => lo + lo' ≤ x ∧ x ≤ hi + hi' := by
  unfold I32 at hl hh
  refine (succeeds_add32 (by unfold I32; omega)).mono ?_
  rintro x rfl
  omega

theorem sub32_within (ha : lo ≤ a ∧ a ≤ hi) (hb : lo' ≤ b ∧ b ≤ hi') (hl : I32 (lo - hi'))
    (hh : I32 (hi - lo')) :
    Succeeds (sub32 a b) fun x => lo - hi' ≤ x ∧ x ≤ hi - lo' := by
  unfold I32 at hl hh
  refine (succeeds_sub32 (by unfold I32; omega)).mono ?_
  rintro x rfl
  omega

end Intervals

/-- **One Haar step.** -/
theorem haar2d_within {h : ℕ} {lo hi : ℤ} {src : Matrix (Fin (2 * h)) (Fin (2 * h)) ℤ}
    (hsrc : Within lo hi src) (hlo : -268435456 ≤ lo) (hle : lo ≤ hi) (hhi : hi ≤ 268435456) :
    Succeeds (haar2d src) fun s => Within (4 * lo) (4 * hi) s.ll ∧
      Within (-2 * (hi - lo)) (2 * (hi - lo)) s.hl ∧
      Within (-2 * (hi - lo)) (2 * (hi - lo)) s.lh ∧
      Within (-2 * (hi - lo)) (2 * (hi - lo)) s.hh := by
  have hfit : ∀ x : ℤ, -1073741824 ≤ x ∧ x ≤ 1073741824 → I32 x := fun x hx => by
    unfold I32; omega
  refine (Succeeds.tabulate fun r => Succeeds.tabulate fun i =>
    add32_within (hsrc r (evenIx i)) (hsrc r (oddIx i)) (hfit _ (by omega))
      (hfit _ (by omega))).bind fun l hl => ?_
  refine (Succeeds.tabulate fun r => Succeeds.tabulate fun i =>
    sub32_within (hsrc r (evenIx i)) (hsrc r (oddIx i)) (hfit _ (by omega))
      (hfit _ (by omega))).bind fun hb hhb => ?_
  refine (Succeeds.tabulate fun i => Succeeds.tabulate fun c =>
    add32_within (hl (evenIx i) c) (hl (oddIx i) c) (hfit _ (by omega))
      (hfit _ (by omega))).bind fun ll hll => ?_
  refine (Succeeds.tabulate fun i => Succeeds.tabulate fun c =>
    sub32_within (hl (evenIx i) c) (hl (oddIx i) c) (hfit _ (by omega))
      (hfit _ (by omega))).bind fun lh hlh => ?_
  refine (Succeeds.tabulate fun i => Succeeds.tabulate fun c =>
    add32_within (hhb (evenIx i) c) (hhb (oddIx i) c) (hfit _ (by omega))
      (hfit _ (by omega))).bind fun hl' hhl => ?_
  refine (Succeeds.tabulate fun i => Succeeds.tabulate fun c =>
    sub32_within (hhb (evenIx i) c) (hhb (oddIx i) c) (hfit _ (by omega))
      (hfit _ (by omega))).bind fun hh hhh => ?_
  refine Succeeds.some ⟨fun i c => ?_, fun i c => ?_, fun i c => ?_, fun i c => ?_⟩
  · have := hll i c; dsimp only; omega
  · have := hhl i c; dsimp only; omega
  · have := hlh i c; dsimp only; omega
  · have := hhh i c; dsimp only; omega

/-- The bounds of a transformed plane whose samples span `64 * e`: the DC keeps the range of
the samples, each finer level has a quarter of the spread of the one before. -/
structure TransformBounds (lo hi e : ℤ) (t : Coeffs) : Prop where
  dc : lo ≤ t 0 ∧ t 0 ≤ hi
  level3 : ∀ i : Fin 64, 1 ≤ i.val → i.val < 4 → -(32 * e) ≤ t i ∧ t i ≤ 32 * e
  level2 : ∀ i : Fin 64, 4 ≤ i.val → i.val < 16 → -(8 * e) ≤ t i ∧ t i ≤ 8 * e
  level1 : ∀ i : Fin 64, 16 ≤ i.val → -(2 * e) ≤ t i ∧ t i ≤ 2 * e

/-- Flooring by 64 keeps a range whose ends are multiples of 64. -/
theorem Within.shiftRight_six {n : ℕ} {lo hi : ℤ} {m : Matrix (Fin n) (Fin n) ℤ}
    (h : Within (64 * lo) (64 * hi) m) (r c : Fin n) :
    lo ≤ m r c >>> (6 : ℕ) ∧ m r c >>> (6 : ℕ) ≤ hi := by
  have := h r c
  rw [Int.shiftRight_eq_div_pow]
  norm_num
  omega

theorem Within.congr {n : ℕ} {lo hi lo' hi' : ℤ} {m : Matrix (Fin n) (Fin n) ℤ}
    (h : Within lo hi m) (hlo : lo = lo') (hhi : hi = hi') : Within lo' hi' m :=
  hlo ▸ hhi ▸ h

section Bands

variable {s1 : Subbands 4} {s2 : Subbands 2} {s3 : Subbands 1} {lo hi : ℤ} {i : Fin 64}

theorem assemble_level3 (hl : Within (64 * lo) (64 * hi) s3.hl)
    (hh : Within (64 * lo) (64 * hi) s3.lh) (hd : Within (64 * lo) (64 * hi) s3.hh)
    (h1 : 1 ≤ i.val) (h4 : i.val < 4) :
    lo ≤ assemble s1 s2 s3 i ∧ assemble s1 s2 s3 i ≤ hi := by
  obtain h | h | h : i.val = 1 ∨ i.val = 2 ∨ i.val = 3 := by omega
  all_goals simp only [assemble, h, OfNat.ofNat_ne_zero, OfNat.ofNat_ne_one, if_false, if_true,
    Nat.one_ne_zero]
  · exact hl.shiftRight_six 0 0
  · exact hh.shiftRight_six 0 0
  · exact hd.shiftRight_six 0 0

theorem assemble_level2 (hl : Within (64 * lo) (64 * hi) s2.hl)
    (hh : Within (64 * lo) (64 * hi) s2.lh) (hd : Within (64 * lo) (64 * hi) s2.hh)
    (h4 : 4 ≤ i.val) (h16 : i.val < 16) :
    lo ≤ assemble s1 s2 s3 i ∧ assemble s1 s2 s3 i ≤ hi := by
  have hn : i.val ≠ 0 ∧ i.val ≠ 1 ∧ i.val ≠ 2 ∧ i.val ≠ 3 := by omega
  unfold assemble
  rw [if_neg hn.1, if_neg hn.2.1, if_neg hn.2.2.1, if_neg hn.2.2.2]
  split_ifs
  · exact hl.shiftRight_six _ _
  · exact hh.shiftRight_six _ _
  · exact hd.shiftRight_six _ _

theorem assemble_level1 (hl : Within (64 * lo) (64 * hi) s1.hl)
    (hh : Within (64 * lo) (64 * hi) s1.lh) (hd : Within (64 * lo) (64 * hi) s1.hh)
    (h16 : 16 ≤ i.val) :
    lo ≤ assemble s1 s2 s3 i ∧ assemble s1 s2 s3 i ≤ hi := by
  have hn : i.val ≠ 0 ∧ i.val ≠ 1 ∧ i.val ≠ 2 ∧ i.val ≠ 3 := by omega
  have hn' : ¬i.val < 8 ∧ ¬i.val < 12 ∧ ¬i.val < 16 := by omega
  unfold assemble
  rw [if_neg hn.1, if_neg hn.2.1, if_neg hn.2.2.1, if_neg hn.2.2.2, if_neg hn'.1,
    if_neg hn'.2.1, if_neg hn'.2.2]
  split_ifs
  · exact hl.shiftRight_six _ _
  · exact hh.shiftRight_six _ _
  · exact hd.shiftRight_six _ _

end Bands

/-- **The transform of a plane** whose samples lie in `[lo, hi]`. -/
theorem transform_bounds {lo hi e : ℤ} {block : Matrix (Fin 8) (Fin 8) ℤ}
    (hblock : Within lo hi block) (hspan : hi - lo = 64 * e) (hlo : -65536 ≤ lo) (hle : lo ≤ hi)
    (hhi : hi ≤ 65536) : Succeeds (transform block) (TransformBounds lo hi e) := by
  refine (haar2d_within (h := 4) hblock (by omega) hle (by omega)).bind
    fun s1 ⟨h1, h1l, h1h, h1d⟩ => ?_
  refine (haar2d_within (h := 2) h1 (by omega) (by omega) (by omega)).bind
    fun s2 ⟨h2, h2l, h2h, h2d⟩ => ?_
  refine (haar2d_within (h := 1) h2 (by omega) (by omega) (by omega)).bind
    fun s3 ⟨h3, h3l, h3h, h3d⟩ => ?_
  -- The ranges of the subbands, as multiples of the divisor 64.
  have e1 : ∀ {m : Matrix (Fin 4) (Fin 4) ℤ}, Within (-2 * (hi - lo)) (2 * (hi - lo)) m →
      Within (64 * -(2 * e)) (64 * (2 * e)) m := fun h => h.congr (by omega) (by omega)
  have e2 : ∀ {m : Matrix (Fin 2) (Fin 2) ℤ},
      Within (-2 * (4 * hi - 4 * lo)) (2 * (4 * hi - 4 * lo)) m →
      Within (64 * -(8 * e)) (64 * (8 * e)) m := fun h => h.congr (by omega) (by omega)
  have e3 : ∀ {m : Matrix (Fin 1) (Fin 1) ℤ},
      Within (-2 * (4 * (4 * hi) - 4 * (4 * lo))) (2 * (4 * (4 * hi) - 4 * (4 * lo))) m →
      Within (64 * -(32 * e)) (64 * (32 * e)) m := fun h => h.congr (by omega) (by omega)
  have hll : Within (64 * lo) (64 * hi) s3.ll := h3.congr (by omega) (by omega)
  exact Succeeds.some ⟨hll.shiftRight_six 0 0,
    fun _ => assemble_level3 (e3 h3l) (e3 h3h) (e3 h3d),
    fun _ => assemble_level2 (e2 h2l) (e2 h2h) (e2 h2d),
    fun _ => assemble_level1 (e1 h1l) (e1 h1h) (e1 h1d)⟩

/-! ### The quantisers -/

section Quantisers

variable {m : ℤ} {t : Coeffs} {i : Fin 64}

/-- Signed half-up rounding keeps a range whose ends are whole steps. -/
theorem roundShift {x lo hi : ℤ} {s : ℕ} (hs : 1 ≤ s) (h : 2 ^ s * lo ≤ x ∧ x ≤ 2 ^ s * hi) :
    lo ≤ (x + 2 ^ (s - 1)) >>> s ∧ (x + 2 ^ (s - 1)) >>> s ≤ hi := by
  obtain ⟨r, rfl⟩ : ∃ r, s = r + 1 := ⟨s - 1, by omega⟩
  rw [Int.shiftRight_eq_div_pow, Nat.add_sub_cancel]
  have hp : (0 : ℤ) < 2 ^ r := by positivity
  push_cast
  rw [pow_succ] at h ⊢
  constructor
  · rw [Int.le_ediv_iff_mul_le (by omega)]
    nlinarith
  · refine Int.lt_add_one_iff.1 ?_
    rw [Int.ediv_lt_iff_lt_mul (by omega)]
    nlinarith

/-- Every value met here is far inside the 32-bit range. -/
theorem i32_of_le {x : ℤ} (h : -1048576 ≤ x ∧ x ≤ 1048576) : I32 x := by
  unfold I32
  omega

/-- A luma position that rounds half up. -/
theorem quantizeRaw_round {c k : ℤ} {s : ℕ} (hs : 1 ≤ s) (hb : stepBias i = (s, 2 ^ (s - 1)))
    (hfit : I32 (c + 2 ^ (s - 1))) (h : 2 ^ s * -k ≤ c ∧ c ≤ 2 ^ s * k) :
    Succeeds (quantizeRaw c i) fun q => -k ≤ q ∧ q ≤ k := by
  have hne : (2 : ℤ) ^ (s - 1) ≠ 0 := by positivity
  unfold quantizeRaw
  rw [hb]
  dsimp only
  rw [if_neg hne]
  exact (succeeds_add32 hfit).seq (Succeeds.some (roundShift hs h))

/-- A luma position that truncates towards zero. -/
theorem quantizeRaw_trunc {c k : ℤ} (hb : stepBias i = (1, 0)) (hk : k ≤ 65536)
    (h : 2 * -k ≤ c ∧ c ≤ 2 * k) : Succeeds (quantizeRaw c i) fun q => -k ≤ q ∧ q ≤ k := by
  unfold quantizeRaw
  rw [hb]
  dsimp only
  rw [if_pos rfl]
  refine (succeeds_abs32 (i32_of_le (by omega))).seq ?_
  simp only [Int.shiftRight_eq_div_pow, pow_one, Nat.cast_ofNat]
  split_ifs
  · refine (succeeds_neg32 (i32_of_le (by omega))).mono ?_
    rintro _ rfl
    omega
  · exact Succeeds.some (by omega)

/-- **A luma AC coefficient before the clamp.** -/
theorem quantizeRaw_bounds (ht : TransformBounds 0 (64 * m) m t) (hm : 0 ≤ m) (hm' : m ≤ 1023)
    (hi : i ≠ 0) : Succeeds (quantizeRaw (t i) i) fun q => -(2 * m) ≤ q ∧ q ≤ 2 * m := by
  have h0 : i.val ≠ 0 := fun h => hi (Fin.ext h)
  obtain h | h | h | h | h | h : i.val ≤ 2 ∨ i.val = 3 ∨ (4 ≤ i.val ∧ i.val ≤ 11) ∨
      (12 ≤ i.val ∧ i.val ≤ 15) ∨ (16 ≤ i.val ∧ i.val ≤ 47) ∨ 48 ≤ i.val := by omega
  · have := ht.level3 i (by omega) (by omega)
    refine quantizeRaw_round (s := 4) (by omega) ?_ (i32_of_le ?_) ?_
    · rw [stepBias, if_pos h]; rfl
    · omega
    · omega
  · have := ht.level3 i (by omega) (by omega)
    refine quantizeRaw_round (s := 5) (by omega) ?_ (i32_of_le ?_) ?_
    · rw [stepBias, if_neg (by omega), if_pos h]; rfl
    · omega
    · omega
  · have := ht.level2 i (by omega) (by omega)
    refine quantizeRaw_round (s := 2) (by omega) ?_ (i32_of_le ?_) ?_
    · rw [stepBias, if_neg (by omega), if_neg (by omega), if_pos h.2]; rfl
    · omega
    · omega
  · have := ht.level2 i (by omega) (by omega)
    refine quantizeRaw_round (s := 3) (by omega) ?_ (i32_of_le ?_) ?_
    · rw [stepBias, if_neg (by omega), if_neg (by omega), if_neg (by omega), if_pos h.2]; rfl
    · omega
    · omega
  · have := ht.level1 i (by omega)
    refine quantizeRaw_trunc ?_ (by omega) (by omega)
    rw [stepBias, if_neg (by omega), if_neg (by omega), if_neg (by omega), if_neg (by omega),
      if_pos h.2]
  · have := ht.level1 i (by omega)
    refine quantizeRaw_round (s := 2) (by omega) ?_ (i32_of_le ?_) ?_
    · rw [stepBias, if_neg (by omega), if_neg (by omega), if_neg (by omega), if_neg (by omega),
        if_neg (by omega)]
      rfl
    · omega
    · omega

/-- **The clamp never changes a value.** -/
theorem quantize_eq_raw (ht : TransformBounds 0 (64 * m) m t) (hm : 0 ≤ m) (hm' : m ≤ 1023)
    (hi : i ≠ 0) : quantize (t i) i = quantizeRaw (t i) i := by
  obtain ⟨q, hq, hb⟩ := quantizeRaw_bounds ht hm hm' hi
  have hclamp : clamp12 q = q := by unfold clamp12; omega
  rw [quantize, hq]
  exact congrArg some hclamp

/-- A chroma AC coefficient. -/
theorem quantizeChromaAc_bounds (ht : TransformBounds (-(64 * m)) (64 * m) (2 * m) t)
    (hm : 0 ≤ m) (hm' : m ≤ 1023) (hi : i ≠ 0) :
    Succeeds (quantizeChromaAc (t i) i) fun q => -(4 * m) ≤ q ∧ q ≤ 4 * m := by
  have h0 : i.val ≠ 0 := fun h => hi (Fin.ext h)
  have hround : ∀ s : ℕ, chromaAcShift i = s → 1 ≤ s → I32 (t i + 2 ^ (s - 1)) →
      2 ^ s * -(4 * m) ≤ t i ∧ t i ≤ 2 ^ s * (4 * m) →
      Succeeds (quantizeChromaAc (t i) i) fun q => -(4 * m) ≤ q ∧ q ≤ 4 * m := by
    intro s hs hpos hfit h
    unfold quantizeChromaAc
    rw [hs]
    exact (succeeds_add32 hfit).seq (Succeeds.some (roundShift hpos h))
  have ht3 := ht.level3 i
  have ht2 := ht.level2 i
  have ht1 := ht.level1 i
  by_cases h4 : i.val = 1 ∨ i.val = 2 ∨ (4 ≤ i.val ∧ i.val ≤ 11)
  · refine hround 4 (by rw [chromaAcShift, if_pos h4]) (by omega) (i32_of_le ?_) ?_ <;> omega
  · by_cases h6 : 48 ≤ i.val
    · refine hround 6 (by rw [chromaAcShift, if_neg h4, if_pos h6]) (by omega) (i32_of_le ?_) ?_ <;>
        omega
    · refine hround 5 (by rw [chromaAcShift, if_neg h4, if_neg h6]) (by omega)
        (i32_of_le ?_) ?_ <;> omega

/-- The DC of plane 0, luma. -/
theorem quantizeDcRound_luma {v : ℤ} (hm : 0 ≤ m) (hm' : m ≤ 1023) (h : 0 ≤ v ∧ v ≤ 64 * m) :
    Succeeds (quantizeDcRound 0 v) fun q => 0 ≤ q ∧ q ≤ 4 * m := by
  refine (succeeds_add32 (i32_of_le ?_)).seq ?_
  · rw [if_pos rfl]
    omega
  · exact Succeeds.some (roundShift (s := 4) (by omega) (by omega))

/-- The DC of a chroma plane. -/
theorem quantizeDcRound_chroma {v : ℤ} {plane : ℕ} (hplane : plane ≠ 0) (hm : 0 ≤ m)
    (hm' : m ≤ 1023) (h : -(64 * m) ≤ v ∧ v ≤ 64 * m) :
    Succeeds (quantizeDcRound plane v) fun q => -m ≤ q ∧ q ≤ m := by
  unfold quantizeDcRound
  rw [if_neg hplane]
  refine (succeeds_add32 (i32_of_le (by omega))).seq ?_
  exact Succeeds.some (roundShift (s := 6) (by omega) (by omega))

end Quantisers

/-! ### Last positions -/

/-- The ascending pass over the first `n` positions has seen the last nonzero one of them. -/
theorem lastSignificant_prefix (q : Coeffs) (n : ℕ) (hn : n ≤ 63) :
    let l := (List.range' 1 n).foldl
      (fun last i => if q (Fin.ofNat 64 i) ≠ 0 then i else last) 0
    (l = 0 ∧ ∀ i : Fin 64, i ≠ 0 → i.val ≤ n → q i = 0) ∨
      ∃ i : Fin 64, i ≠ 0 ∧ i.val = l ∧ q i ≠ 0 ∧ ∀ j, i < j → j.val ≤ n → q j = 0 := by
  induction n with
  | zero =>
      exact .inl ⟨rfl, fun i hi h0 => absurd (Fin.ext (by simpa using h0)) hi⟩
  | succ n ih =>
      specialize ih (by omega)
      rw [List.range'_concat, List.foldl_append]
      simp only [one_mul, List.foldl_cons, List.foldl_nil]
      have hval : (Fin.ofNat 64 (1 + n)).val = 1 + n := Nat.mod_eq_of_lt (by omega)
      -- Position `n + 1` is the only new one.
      have hnew : ∀ j : Fin 64, j.val ≤ n + 1 → j.val ≤ n ∨ j = Fin.ofNat 64 (1 + n) := by
        intro j hj
        rcases Nat.lt_or_ge j.val (n + 1) with h | h
        · exact .inl (by omega)
        · exact .inr (Fin.ext (by omega))
      by_cases h : q (Fin.ofNat 64 (1 + n)) = 0
      · rw [if_neg (not_not.2 h)]
        rcases ih with ⟨hl, hz⟩ | ⟨i, hi, hil, hq, hz⟩
        · refine .inl ⟨hl, fun j hj hjn => ?_⟩
          rcases hnew j hjn with hle | rfl
          · exact hz j hj hle
          · exact h
        · refine .inr ⟨i, hi, hil, hq, fun j hij hjn => ?_⟩
          rcases hnew j hjn with hle | rfl
          · exact hz j hij hle
          · exact h
      · rw [if_pos h]
        refine .inr ⟨Fin.ofNat 64 (1 + n), fun h0 => ?_, hval, h, fun j hij hjn => ?_⟩
        · have := congrArg Fin.val h0
          rw [hval, Fin.val_zero] at this
          omega
        · have := Fin.lt_def.1 hij
          omega

theorem isLastAc_lastSignificant (q : Coeffs) : IsLastAc q (lastSignificant q) := by
  rcases lastSignificant_prefix q 63 le_rfl with ⟨hl, hz⟩ | ⟨i, hi, hil, hq, hz⟩
  · exact .inl ⟨hl, fun i hi => hz i hi (by omega)⟩
  · exact .inr ⟨i, hi, hil, hq, fun j hij => hz j hij (by omega)⟩

/-! ### Blocks -/

/-- The colour transform of one pixel. -/
theorem colour_bounds {m r g b : ℤ} (hm : m ≤ 1023) (hr : 0 ≤ r ∧ r ≤ m) (hg : 0 ≤ g ∧ g ≤ m)
    (hb : 0 ≤ b ∧ b ≤ m) :
    Succeeds (colour r g b) fun p => (0 ≤ p.1 ∧ p.1 ≤ 64 * m) ∧
      (-(64 * m) ≤ p.2.1 ∧ p.2.1 ≤ 64 * m) ∧ (-(64 * m) ≤ p.2.2 ∧ p.2.2 ≤ 64 * m) := by
  refine (succeeds_sub32 (i32_of_le (by omega))).seq ?_
  refine (succeeds_sub32 (i32_of_le (by omega))).seq ?_
  refine (succeeds_add32 (i32_of_le (by omega))).seq ?_
  simp only [Int.shiftRight_eq_div_pow, Nat.reducePow, Nat.cast_ofNat]
  refine (succeeds_mul32 (i32_of_le (by omega))).seq ?_
  refine (succeeds_mul32 (i32_of_le (by omega))).seq ?_
  refine (succeeds_add32 (i32_of_le (by omega))).seq ?_
  refine (succeeds_mul32 (i32_of_le (by omega))).seq ?_
  refine (succeeds_mul32 (i32_of_le (by omega))).seq ?_
  refine Succeeds.some ?_
  dsimp only
  omega

/-- What the quantiser makes of a block with channels of at most `m`. -/
structure BlockBounds (m : ℤ) (b : ColourBlock) : Prop where
  lcr : IsLastAc b.qcr b.lcr
  lcb : IsLastAc b.qcb b.lcb
  ly : IsLastAc b.qy b.ly
  dcr : -m ≤ b.qcr 0 ∧ b.qcr 0 ≤ m
  dcb : -m ≤ b.qcb 0 ∧ b.qcb 0 ≤ m
  dy : 0 ≤ b.qy 0 ∧ b.qy 0 ≤ 4 * m
  acr : ∀ i, i ≠ 0 → -(4 * m) ≤ b.qcr i ∧ b.qcr i ≤ 4 * m
  acb : ∀ i, i ≠ 0 → -(4 * m) ≤ b.qcb i ∧ b.qcb i ≤ 4 * m
  ay : ∀ i, i ≠ 0 → -(2 * m) ≤ b.qy i ∧ b.qy i ≤ 2 * m

theorem quantizePlane_succeeds {dc : ℤ → Option ℤ} {ac : ℤ → Fin 64 → Option ℤ} {t : Coeffs}
    {P Q : ℤ → Prop} (hdc : Succeeds (dc (t 0)) P)
    (hac : ∀ i, i ≠ 0 → Succeeds (ac (t i) i) Q) :
    Succeeds (quantizePlane dc ac t) fun q => P (q 0) ∧ ∀ i, i ≠ 0 → Q (q i) := by
  have hentry : ∀ i : Fin 64, Succeeds (if i = 0 then dc (t i) else ac (t i) i)
      fun x => (i = 0 → P x) ∧ (i ≠ 0 → Q x) := by
    intro i
    by_cases hi : i = 0
    · subst hi
      exact hdc.mono fun x hx => ⟨fun _ => hx, fun h => absurd rfl h⟩
    · rw [if_neg hi]
      exact (hac i hi).mono fun x hx => ⟨fun h => absurd h hi, fun _ => hx⟩
  exact (Succeeds.tabulate hentry).mono fun q hq => ⟨(hq 0).1 rfl, fun i hi => (hq i).2 hi⟩

section Block

variable {m : ℤ} {cr cb y : Matrix (Fin 8) (Fin 8) ℤ} (hm : 0 ≤ m) (hm' : m ≤ 1023)
  (hcr : Within (-(64 * m)) (64 * m) cr) (hcb : Within (-(64 * m)) (64 * m) cb)
  (hy : Within 0 (64 * m) y)
include hm hm' hcr hcb hy

/-- **One block**, whether or not the luma quantiser clamps. -/
theorem colourBlock_bounds :
    Succeeds (colourBlock cr cb y) fun b =>
      colourBlockWith quantizeRaw cr cb y = some b ∧ BlockBounds m b := by
  obtain ⟨tcr, hTcr, htcr⟩ := transform_bounds (e := 2 * m) hcr (by omega) (by omega) (by omega)
    (by omega)
  obtain ⟨tcb, hTcb, htcb⟩ := transform_bounds (e := 2 * m) hcb (by omega) (by omega) (by omega)
    (by omega)
  obtain ⟨ty, hTy, hty⟩ := transform_bounds (e := m) hy (by omega) (by omega) (by omega)
    (by omega)
  obtain ⟨qcr, hQcr, hdcr, hacr⟩ := quantizePlane_succeeds
    (quantizeDcRound_chroma (show 2 ≠ 0 by omega) hm hm' htcr.dc)
    fun i => quantizeChromaAc_bounds (i := i) htcr hm hm'
  obtain ⟨qcb, hQcb, hdcb, hacb⟩ := quantizePlane_succeeds
    (quantizeDcRound_chroma (show 1 ≠ 0 by omega) hm hm' htcb.dc)
    fun i => quantizeChromaAc_bounds (i := i) htcb hm hm'
  obtain ⟨qy, hQy, hdy, hay⟩ := quantizePlane_succeeds
    (quantizeDcRound_luma hm hm' hty.dc) fun i => quantizeRaw_bounds (i := i) hty hm hm'
  have hclamp : quantizePlane (quantizeDcRound 0) quantize ty =
      quantizePlane (quantizeDcRound 0) quantizeRaw ty := by
    unfold quantizePlane
    congr 1
    funext i
    split_ifs with hi
    · rfl
    · exact quantize_eq_raw hty hm hm' hi
  have hraw : colourBlockWith quantizeRaw cr cb y = some
      { qcr := qcr, qcb := qcb, qy := qy, lcr := lastSignificant qcr,
        lcb := lastSignificant qcb, ly := lastSignificant qy } := by
    rw [colourBlockWith, hTcr, hTcb, hTy]
    simp only [Option.bind_eq_bind, Option.bind_some, hQcr, hQcb, hQy]
    rfl
  have heq : colourBlock cr cb y = colourBlockWith quantizeRaw cr cb y := by
    rw [colourBlock, colourBlockWith, colourBlockWith, hTcr, hTcb, hTy]
    simp only [Option.bind_eq_bind, Option.bind_some, hclamp]
  exact ⟨_, heq.trans hraw, hraw, isLastAc_lastSignificant qcr, isLastAc_lastSignificant qcb,
    isLastAc_lastSignificant qy, hdcr, hdcb, hdy, hacr, hacb, hay⟩

end Block

/-! ### Strips -/

/-- The largest channel value at a depth. -/
def maxChannel (depth : Depth) : ℤ := 2 ^ depth.bits - 1

theorem maxChannel_bounds (depth : Depth) : 0 ≤ maxChannel depth ∧ maxChannel depth ≤ 1023 := by
  cases depth <;> decide

/-- The ceilings of a depth are just above the bounds. -/
theorem maxChannel_lt_cmax (depth : Depth) :
    4 * maxChannel depth < 2 ^ depth.dcCmax ∧ 2 * maxChannel depth < 2 ^ depth.acCmax ∧
      4 * maxChannel depth < 2 ^ depth.chromaAcCmax := by
  cases depth <;> decide

theorem magCategory_le_of_bounds {v k : ℤ} {c : ℕ} (h : -k ≤ v ∧ v ≤ k) (hk : k < 2 ^ c) :
    magCategory v ≤ c := by
  rw [magCategory_le_iff]
  have : (v.natAbs : ℤ) < 2 ^ c := by omega
  exact_mod_cast this

/-- Every channel of the pixel source is a sample of the depth. -/
def PixelsFit (depth : Depth) (px : PixelSource) : Prop :=
  ∀ x y, (px x y).1.toNat ≤ 2 ^ depth.bits - 1 ∧ (px x y).2.1.toNat ≤ 2 ^ depth.bits - 1 ∧
    (px x y).2.2.toNat ≤ 2 ^ depth.bits - 1

/-- The DC differences of bounded blocks. -/
theorem dcDifferences_bounds {m : ℤ} (blocks : List ColourBlock)
    (hb : ∀ b ∈ blocks, BlockBounds m b) (pcr pcb py : ℤ) (hcr : -m ≤ pcr ∧ pcr ≤ m)
    (hcb : -m ≤ pcb ∧ pcb ≤ m) (hy : 0 ≤ py ∧ py ≤ 4 * m) :
    ∀ d ∈ dcDifferences pcr pcb py blocks, -(4 * m) ≤ d ∧ d ≤ 4 * m := by
  induction blocks generalizing pcr pcb py with
  | nil => intro d hd; simp [dcDifferences] at hd
  | cons b bs ih =>
      have hhead := hb b List.mem_cons_self
      have h1 := hhead.dcr
      have h2 := hhead.dcb
      have h3 := hhead.dy
      intro d hd
      simp only [dcDifferences, List.mem_cons] at hd
      rcases hd with rfl | rfl | rfl | hd
      · omega
      · omega
      · omega
      · exact ih (fun b' hb' => hb b' (List.mem_cons_of_mem b hb')) _ _ _ h1 h2 h3 d hd

section Strip

variable {g : Geometry} {px : PixelSource} (hpx : PixelsFit g.depth px) (ox oy : ℕ)
include hpx

theorem blockSample_bounds (k : ℕ) (r c : Fin 8) :
    Succeeds (blockSample g ox oy px k r c) fun p =>
      (0 ≤ p.1 ∧ p.1 ≤ 64 * maxChannel g.depth) ∧
      (-(64 * maxChannel g.depth) ≤ p.2.1 ∧ p.2.1 ≤ 64 * maxChannel g.depth) ∧
      (-(64 * maxChannel g.depth) ≤ p.2.2 ∧ p.2.2 ≤ 64 * maxChannel g.depth) := by
  have hchannel : ∀ n : ℕ, n ≤ 2 ^ g.depth.bits - 1 →
      0 ≤ (n : ℤ) ∧ (n : ℤ) ≤ maxChannel g.depth := by
    intro n hn
    have hpos := Nat.two_pow_pos g.depth.bits
    have hcast : ((2 ^ g.depth.bits : ℕ) : ℤ) = 2 ^ g.depth.bits := by push_cast; rfl
    unfold maxChannel
    omega
  obtain ⟨hr, hg, hb⟩ := hpx (ox + (k &&& (1 <<< (g.stripWShift - 3) - 1)) * 8 + c)
    (oy + (k >>> (g.stripWShift - 3)) * 8 + r)
  exact colour_bounds (maxChannel_bounds g.depth).2 (hchannel _ hr) (hchannel _ hg)
    (hchannel _ hb)

/-- **The blocks of a strip**, whether or not the luma quantiser clamps. -/
theorem colourStripBlocks_bounds :
    Succeeds (colourStripBlocks g ox oy px) fun blocks =>
      stripBlocksWith (colourBlockWith quantizeRaw) g ox oy px = some blocks ∧
        blocks.length = 16 ∧ ∀ b ∈ blocks, BlockBounds (maxChannel g.depth) b := by
  obtain ⟨hm, hm'⟩ := maxChannel_bounds g.depth
  have hblock : ∀ k : ℕ, Succeeds
      ((tabulate fun r => tabulate fun c => blockSample g ox oy px k r c) >>= fun s =>
        colourBlock (fun r c => (s r c).2.2) (fun r c => (s r c).2.1) fun r c => (s r c).1)
      fun b => ((tabulate fun r => tabulate fun c => blockSample g ox oy px k r c) >>= fun s =>
        colourBlockWith quantizeRaw (fun r c => (s r c).2.2) (fun r c => (s r c).2.1)
          fun r c => (s r c).1) = some b ∧ BlockBounds (maxChannel g.depth) b := by
    intro k
    obtain ⟨s, hs, hbounds⟩ := Succeeds.tabulate fun r : Fin 8 => Succeeds.tabulate fun c : Fin 8 =>
      blockSample_bounds hpx ox oy k r c
    rw [hs]
    exact colourBlock_bounds hm hm' (fun r c => (hbounds r c).2.2) (fun r c => (hbounds r c).2.1)
      fun r c => (hbounds r c).1
  obtain ⟨blocks, hblocks, hlen, hall⟩ := Succeeds.mapM (List.range 16) fun k _ =>
    (hblock k).mono fun b hb => hb.2
  refine ⟨blocks, hblocks, ?_, by simpa using hlen, hall⟩
  rw [← hblocks]
  unfold stripBlocksWith
  congr 1
  funext k
  obtain ⟨b, hb, hraw, -⟩ := hblock k
  exact hraw.trans hb.symm

end Strip

/-- The blocks of real pixels are within every ceiling of the depth. -/
theorem stripWellFormed_of_bounds {depth : Depth} {blocks : List ColourBlock}
    (hlen : blocks.length = 16) (hb : ∀ b ∈ blocks, BlockBounds (maxChannel depth) b) :
    StripWellFormed depth blocks := by
  obtain ⟨hm, -⟩ := maxChannel_bounds depth
  obtain ⟨hdc, hac, hcac⟩ := maxChannel_lt_cmax depth
  refine ⟨hlen, fun b hmem => ?_, fun d hd => ?_⟩
  · obtain ⟨hlcr, hlcb, hly, -, -, -, hacr, hacb, hay⟩ := hb b hmem
    exact ⟨hlcr, hlcb, hly, fun i hi => magCategory_le_of_bounds (hacr i hi) hcac,
      fun i hi => magCategory_le_of_bounds (hacb i hi) hcac,
      fun i hi => magCategory_le_of_bounds (hay i hi) hac⟩
  · exact magCategory_le_of_bounds
      (dcDifferences_bounds blocks hb 0 0 0 (by omega) (by omega) (by omega) d hd) hdc

/-- **What the dock decodes.**  The strip encoded from real pixels decodes to its position and
to exactly the quantised blocks. -/
theorem decodeStrip_colourStripAt {g : Geometry} {px : PixelSource}
    (hpx : PixelsFit g.depth px) (sx sy : ℕ) :
    ∃ blocks strip, colourStripBlocks g sx sy px = some blocks ∧
      colourStripAt g sx sy px = some strip ∧
      decodeStrip g.depth g.coding strip =
        some (UInt16.ofNat sx, UInt16.ofNat sy, blocks) := by
  obtain ⟨blocks, hblocks, -, hlen, hbounds⟩ := colourStripBlocks_bounds hpx sx sy
  refine ⟨blocks, _, hblocks, ?_, decodeStrip_of_wellFormed
    (stripWellFormed_of_bounds hlen hbounds) (UInt16.ofNat sx) (UInt16.ofNat sy)⟩
  rw [colourStripAt, hblocks]
  rfl

/-- `esc` writes `v` so that it is read back: the saturation has not changed it. -/
def EscExact (cmax : ℕ) (v : ℤ) : Prop :=
  ∀ w : Bits, ∃ word, (w.esc v cmax).bits = w.bits ++ word ∧ Reads (readEsc w.coding cmax) word v

theorem escExact {cmax : ℕ} {v : ℤ} (hcmax : 0 < cmax) (h : magCategory v ≤ cmax) :
    EscExact cmax v := fun w =>
  ⟨escWord w.coding v cmax, (emits_esc v cmax).bits w, reads_esc w.coding hcmax h⟩

/-- **The entropy coder never saturates on real pixels.**  For every pixel source whose
channels are samples of the depth and every strip position: no 32-bit operation overflows, the
luma clamp changes nothing, every AC coefficient and every DC difference is within its
ceiling, and `esc` writes each of them exactly. -/
theorem colourStripBlocks_in_range (g : Geometry) (ox oy : ℕ) (px : PixelSource)
    (hpx : PixelsFit g.depth px) :
    ∃ blocks, colourStripBlocks g ox oy px = some blocks ∧ blocks.length = 16 ∧
      stripBlocksWith (colourBlockWith quantizeRaw) g ox oy px = some blocks ∧
      (∀ b ∈ blocks, ∀ i, i ≠ 0 →
        (magCategory (b.qy i) ≤ g.depth.acCmax ∧ EscExact g.depth.acCmax (b.qy i)) ∧
        (magCategory (b.qcb i) ≤ g.depth.chromaAcCmax ∧
          EscExact g.depth.chromaAcCmax (b.qcb i)) ∧
        (magCategory (b.qcr i) ≤ g.depth.chromaAcCmax ∧
          EscExact g.depth.chromaAcCmax (b.qcr i))) ∧
      ∀ d ∈ dcDifferences 0 0 0 blocks,
        magCategory d ≤ g.depth.dcCmax ∧ EscExact g.depth.dcCmax d := by
  obtain ⟨blocks, hblocks, hraw, hlen, hbounds⟩ := colourStripBlocks_bounds hpx ox oy
  obtain ⟨-, hwf, hdc⟩ := stripWellFormed_of_bounds hlen hbounds
  refine ⟨blocks, hblocks, hlen, hraw, fun b hb i hi => ?_, fun d hd => ?_⟩
  · have hy := (hwf b hb).ay i hi
    have hcb := (hwf b hb).acb i hi
    have hcr := (hwf b hb).acr i hi
    exact ⟨⟨hy, escExact (acCmax_pos _) hy⟩, ⟨hcb, escExact (chromaAcCmax_pos _) hcb⟩,
      hcr, escExact (chromaAcCmax_pos _) hcr⟩
  · exact ⟨hdc d hd, escExact (dcCmax_pos _) (hdc d hd)⟩

/-- Full-range noise on a 128×8 strip at ten bits. -/
theorem colourStripBlocks_in_range_sample :
    let g := (Geometry.new 16 true false 3 7 3).withDepth .ten
    let px : PixelSource := fun x y => if (x + y) % 2 = 0 then (1023, 0, 1023) else (0, 1023, 7)
    ∃ blocks, colourStripBlocks g 128 8 px = some blocks ∧
      ∀ d ∈ dcDifferences 0 0 0 blocks, magCategory d ≤ 12 := by
  intro g px
  have hpx : PixelsFit g.depth px := by
    intro x y
    dsimp only [px]
    split_ifs <;> decide
  obtain ⟨blocks, hblocks, -, -, -, hdc⟩ := colourStripBlocks_in_range g 128 8 px hpx
  exact ⟨blocks, hblocks, fun d hd => (hdc d hd).1⟩

/-! ### Flat strips -/

/-- The block of an evenly grey area: a luma DC and nothing else. -/
def greyBlock (v : ℕ) : ColourBlock where
  qcr := 0
  qcb := 0
  qy := fun i => if i = 0 then 4 * v else 0
  lcr := 0
  lcb := 0
  ly := 0

theorem lastSignificant_eq_zero {q : Coeffs} (h : ∀ i, i ≠ 0 → q i = 0) :
    lastSignificant q = 0 := by
  rcases isLastAc_lastSignificant q with ⟨hl, -⟩ | ⟨i, hi, -, hq, -⟩
  · exact hl
  · exact absurd (h i hi) hq

theorem quantize_zero : ∀ i : Fin 64, quantize 0 i = some 0 ∧ quantizeChromaAc 0 i = some 0 := by
  decide +kernel

/-- A constant plane has a DC only. -/
theorem transform_const {c : ℤ} (hc : 0 ≤ c ∧ c ≤ 65536) :
    ∃ t : Coeffs, transform (fun _ _ => c) = some t ∧ t 0 = c ∧ ∀ i, i ≠ 0 → t i = 0 := by
  have hwithin : Within c c (fun _ _ : Fin 8 => c) := fun _ _ => ⟨le_rfl, le_rfl⟩
  obtain ⟨t, ht, hdc, h3, h2, h1⟩ := transform_bounds (e := 0) hwithin (by omega) (by omega) le_rfl
    (by omega)
  refine ⟨t, ht, by omega, fun i hi => ?_⟩
  have h0 : i.val ≠ 0 := fun h => hi (Fin.ext h)
  rcases Nat.lt_or_ge i.val 4 with hlt | hge
  · have := h3 i (by omega) hlt
    omega
  · rcases Nat.lt_or_ge i.val 16 with hlt | hge'
    · have := h2 i hge hlt
      omega
    · have := h1 i hge'
      omega

theorem quantizePlane_const {dc : ℤ → Option ℤ} {ac : ℤ → Fin 64 → Option ℤ} {t : Coeffs} {q : ℤ}
    (hdc : dc (t 0) = some q) (ht : ∀ i, i ≠ 0 → t i = 0) (hac : ∀ i, ac 0 i = some 0) :
    quantizePlane dc ac t = some fun i => if i = 0 then q else 0 := by
  refine tabulate_eq fun i => ?_
  by_cases hi : i = 0
  · rw [if_pos hi, if_pos hi, hi, hdc]
  · rw [if_neg hi, if_neg hi, ht i hi, hac i]

theorem colourBlock_grey {v : ℕ} (hv : v ≤ 1023) :
    colourBlock (fun _ _ => 0) (fun _ _ => 0) (fun _ _ => 64 * (v : ℤ)) = some (greyBlock v) := by
  obtain ⟨tc, hTc, hc0, hc⟩ := transform_const (c := 0) (by omega)
  obtain ⟨ty, hTy, hy0, hy⟩ := transform_const (c := 64 * (v : ℤ)) (by omega)
  have hchroma : ∀ plane, plane ≠ 0 →
      quantizePlane (quantizeDcRound plane) quantizeChromaAc tc = some 0 := by
    intro plane hplane
    have hdc : quantizeDcRound plane (tc 0) = some 0 := by
      rw [hc0, quantizeDcRound, if_neg hplane]
      rfl
    rw [quantizePlane_const hdc hc fun i => (quantize_zero i).2]
    congr 1
    funext i
    simp
  have hluma : quantizePlane (quantizeDcRound 0) quantize ty =
      some fun i => if i = 0 then 4 * (v : ℤ) else 0 := by
    refine quantizePlane_const ?_ hy fun i => (quantize_zero i).1
    obtain ⟨q, hq, hval⟩ := succeeds_add32 (a := 64 * (v : ℤ)) (b := 8) (i32_of_le (by omega))
    have hshift : (64 * (v : ℤ) + 8) >>> (4 : ℕ) = 4 * v := by
      rw [Int.shiftRight_eq_div_pow]
      norm_num
      omega
    rw [hy0, quantizeDcRound, if_pos rfl]
    norm_num
    rw [hq, hval]
    exact congrArg some hshift
  unfold colourBlock colourBlockWith
  rw [hTc, hTy]
  simp only [Option.bind_eq_bind, Option.bind_some, hchroma 2 (by omega), hchroma 1 (by omega),
    hluma]
  have hzero : lastSignificant (0 : Coeffs) = 0 := lastSignificant_eq_zero fun _ _ => rfl
  have hdc : lastSignificant (fun i => if i = 0 then 4 * (v : ℤ) else 0) = 0 :=
    lastSignificant_eq_zero fun i hi => if_neg hi
  rw [hzero, hdc]
  rfl

/-- **A flat strip**: sixteen times the grey block. -/
theorem colourStripBlocks_grey {g : Geometry} {px : PixelSource} {v : UInt16}
    (hv : v.toNat ≤ 1023) (hpx : ∀ x y, px x y = (v, v, v)) (ox oy : ℕ) :
    colourStripBlocks g ox oy px = some (List.replicate 16 (greyBlock v.toNat)) := by
  have hcolour : colour v.toNat v.toNat v.toNat = some (64 * (v.toNat : ℤ), 0, 0) := by
    have h0 : (0 : ℤ) >>> (2 : ℕ) = 0 := by decide
    have hs : sub32 (v.toNat : ℤ) v.toNat = some 0 := by
      simp only [sub32, sub_self]
      rfl
    have hm : mul32 64 (v.toNat : ℤ) = some (64 * (v.toNat : ℤ)) := if_pos (i32_of_le (by omega))
    have ha : add32 (64 * (v.toNat : ℤ)) 0 = some (64 * (v.toNat : ℤ)) := by
      rw [add32, add_zero]
      exact if_pos (i32_of_le (by omega))
    have hz : add32 0 0 = some 0 := rfl
    have hmz : mul32 64 0 = some 0 := rfl
    simp only [colour, hs, hm, hz, Option.bind_eq_bind, Option.bind_some, h0, hmz, ha]
    rfl
  have hsample : ∀ k : ℕ, (tabulate fun r => tabulate fun c => blockSample g ox oy px k r c) =
      some fun _ _ => (64 * (v.toNat : ℤ), 0, 0) := by
    intro k
    refine tabulate_eq fun r => tabulate_eq fun c => ?_
    simp only [blockSample, hpx, hcolour]
  have hblock : (fun k => (tabulate fun r => tabulate fun c => blockSample g ox oy px k r c) >>=
      fun s => colourBlock (fun r c => (s r c).2.2) (fun r c => (s r c).2.1) fun r c => (s r c).1) =
      fun _ => some (greyBlock v.toNat) := by
    funext k
    rw [hsample k, Option.bind_eq_bind, Option.bind_some]
    exact colourBlock_grey hv
  have hmap : (List.range 16).mapM (fun _ => some (greyBlock v.toNat)) =
      some (List.replicate 16 (greyBlock v.toNat)) :=
    List.mapM_pure.trans (congrArg some (by rw [List.map_const', List.length_range]))
  rw [← hmap, ← hblock]
  rfl

end Vino.Haar.Range
