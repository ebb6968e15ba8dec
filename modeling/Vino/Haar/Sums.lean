import Vino.Haar.Lossless
import Vino.Haar.Lengths

/-!
# Signed Sums

A coefficient of the transform is a signed sum over a square of the block: the samples of one half
less those of the other, at three sizes of the square.  A quantiser asks how many steps the sum
amounts to, and the code word of the coefficient grows with every power of two of steps.  So the
lengths of all code words of a block can be read off its samples.

* `transformOf_apply`: every coefficient is the signed sum of its square,
* `stripLength_eq`: the length of a strip, from the signed sums of its blocks,
* `halfBits_le`: a bound on it, where no sum amounts to many steps.
-/

namespace Vino.Haar.Sums

open Vino.Haar.Transform Vino.Haar.Strip Vino.Haar.Decode Vino.Haar.Range Vino.Haar.Lossless
open Vino.Haar.Lengths Vino.Lib.Checked

/-! ### Squares -/

section Squares

variable {x : ℕ → ℕ → ℤ} {n r c : ℕ} {vertical horizontal : Bool}

/-- The sign of row or column `a` of a square of side `n`. -/
def side (n : ℕ) (differs : Bool) (a : ℕ) : ℤ := if differs && decide (n / 2 ≤ a) then -1 else 1

/-- The signed sum of a square of side `n`, the `r`-th down and the `c`-th across: the upper half
less the lower, the left half less the right, or both, or all of it. -/
def signedSum (n : ℕ) (vertical horizontal : Bool) (x : ℕ → ℕ → ℤ) (r c : ℕ) : ℤ :=
  ∑ a ∈ Finset.range n, ∑ b ∈ Finset.range n,
    side n vertical a * side n horizontal b * x (n * r + a) (n * c + b)

/-- The samples summed by twos both ways. -/
def pool (x : ℕ → ℕ → ℤ) (r c : ℕ) : ℤ :=
  x (2 * r) (2 * c) + x (2 * r) (2 * c + 1) + (x (2 * r + 1) (2 * c) + x (2 * r + 1) (2 * c + 1))

theorem side_zero (n : ℕ) (hn : 2 ≤ n) (differs : Bool) : side n differs 0 = 1 := by
  unfold side
  rw [decide_eq_false (by omega), Bool.and_false, if_neg Bool.false_ne_true]

/-- A square of twice the side has the signs of the half one, each twice. -/
theorem side_double (n : ℕ) (hn : Even n) (differs : Bool) (a : ℕ) :
    side (2 * n) differs (2 * a) = side n differs a ∧
      side (2 * n) differs (2 * a + 1) = side n differs a := by
  obtain ⟨m, rfl⟩ := hn
  have heven : decide (2 * (m + m) / 2 ≤ 2 * a) = decide ((m + m) / 2 ≤ a) :=
    decide_eq_decide.2 (by omega)
  have hodd : decide (2 * (m + m) / 2 ≤ 2 * a + 1) = decide ((m + m) / 2 ≤ a) :=
    decide_eq_decide.2 (by omega)
  unfold side
  rw [heven, hodd]
  exact ⟨rfl, rfl⟩

theorem sum_range_double (f : ℕ → ℤ) (n : ℕ) :
    ∑ a ∈ Finset.range (2 * n), f a = ∑ a ∈ Finset.range n, (f (2 * a) + f (2 * a + 1)) := by
  induction n with
  | zero => rfl
  | succ n ih =>
    rw [Nat.mul_succ, Finset.sum_range_succ, Finset.sum_range_succ, ih, Finset.sum_range_succ]
    ring

/-- **A square of twice the side** is the square of the pooled samples. -/
theorem signedSum_double (hn : Even n) :
    signedSum (2 * n) vertical horizontal x r c =
      signedSum n vertical horizontal (pool x) r c := by
  unfold signedSum
  rw [sum_range_double]
  refine Finset.sum_congr rfl fun a _ => ?_
  rw [sum_range_double, sum_range_double, ← Finset.sum_add_distrib]
  refine Finset.sum_congr rfl fun b _ => ?_
  obtain ⟨hv0, hv1⟩ := side_double n hn vertical a
  obtain ⟨hh0, hh1⟩ := side_double n hn horizontal b
  have hrow (e : ℕ) : 2 * n * r + (2 * a + e) = 2 * (n * r + a) + e := by ring
  have hcol (e : ℕ) : 2 * n * c + (2 * b + e) = 2 * (n * c + b) + e := by ring
  have hrow0 := hrow 0
  have hcol0 := hcol 0
  rw [Nat.add_zero, Nat.add_zero] at hrow0 hcol0
  rw [hv0, hv1, hh0, hh1, hrow 1, hcol 1, hrow0, hcol0, pool]
  ring

theorem signedSum_two :
    signedSum 2 vertical horizontal x r c =
      x (2 * r) (2 * c) + side 2 horizontal 1 * x (2 * r) (2 * c + 1) +
        side 2 vertical 1 * (x (2 * r + 1) (2 * c) +
          side 2 horizontal 1 * x (2 * r + 1) (2 * c + 1)) := by
  unfold signedSum
  simp only [Finset.sum_range_succ, Finset.sum_range_zero, side_zero 2 le_rfl, Nat.add_zero]
  ring

/-- The sums of samples that are multiples of 64. -/
theorem signedSum_mul (k : ℤ) :
    signedSum n vertical horizontal (fun r c => k * x r c) r c =
      k * signedSum n vertical horizontal x r c := by
  unfold signedSum
  rw [Finset.mul_sum]
  refine Finset.sum_congr rfl fun a _ => ?_
  rw [Finset.mul_sum]
  exact Finset.sum_congr rfl fun b _ => by ring

end Squares

/-! ### Coefficients -/

/-- The square of a coefficient. -/
structure Wave where
  size : ℕ
  vertical : Bool
  horizontal : Bool
  row : ℕ
  col : ℕ

/-- The signed sum of the square. -/
def Wave.sum (w : Wave) (x : ℕ → ℕ → ℤ) : ℤ :=
  signedSum w.size w.vertical w.horizontal x w.row w.col

local instance neZero_four : NeZero 4 := ⟨by decide⟩

local instance neZero_sixteen : NeZero 16 := ⟨by decide⟩

/-- The square of the coefficient at position `i`. -/
def wave (i : Fin 64) : Wave :=
  let at2 (vertical horizontal : Bool) (k : ℕ) : Wave :=
    let p := scan2 (Fin.ofNat 4 k)
    ⟨4, vertical, horizontal, p.1.val, p.2.val⟩
  let at1 (vertical horizontal : Bool) (k : ℕ) : Wave :=
    let p := scan4Morton (Fin.ofNat 16 k)
    ⟨2, vertical, horizontal, p.1.val, p.2.val⟩
  if i.val = 0 then ⟨8, false, false, 0, 0⟩
  else if i.val = 1 then ⟨8, false, true, 0, 0⟩
  else if i.val = 2 then ⟨8, true, false, 0, 0⟩
  else if i.val = 3 then ⟨8, true, true, 0, 0⟩
  else if i.val < 8 then at2 false true (i.val - 4)
  else if i.val < 12 then at2 true false (i.val - 8)
  else if i.val < 16 then at2 true true (i.val - 12)
  else if i.val < 32 then at1 false true (i.val - 16)
  else if i.val < 48 then at1 true false (i.val - 32)
  else at1 true true (i.val - 48)

section Coefficients

variable {x : ℕ → ℕ → ℤ}

/-- **One Haar step** pools the samples and takes their signed sums by twos. -/
theorem haarOf_apply {h : ℕ} (i c : Fin h) :
    (haarOf (h := h) fun r c => x r.val c.val).ll i c = pool x i c ∧
      (haarOf (h := h) fun r c => x r.val c.val).ll i c = signedSum 2 false false x i c ∧
      (haarOf (h := h) fun r c => x r.val c.val).hl i c = signedSum 2 false true x i c ∧
      (haarOf (h := h) fun r c => x r.val c.val).lh i c = signedSum 2 true false x i c ∧
      (haarOf (h := h) fun r c => x r.val c.val).hh i c = signedSum 2 true true x i c := by
  have hsame : side 2 false 1 = 1 := rfl
  have hdiffers : side 2 true 1 = -1 := rfl
  simp only [signedSum_two, hsame, hdiffers, haarOf, pool, evenIx, oddIx]
  refine ⟨trivial, ?_, ?_, ?_, ?_⟩ <;> ring

theorem haarOf_ll {h : ℕ} :
    (haarOf (h := h) fun r c => x r.val c.val).ll = fun i c => pool x i.val c.val :=
  funext fun i => funext fun c => (haarOf_apply i c).1

theorem Wave.sum_ite {p : Prop} [Decidable p] (v w : Wave) (x : ℕ → ℕ → ℤ) :
    (if p then v else w).sum x = if p then v.sum x else w.sum x :=
  apply_ite (fun w => Wave.sum w x) p v w

theorem shiftRight_mul (a : ℤ) : (64 * a) >>> (6 : ℕ) = a := by
  rw [Int.shiftRight_eq_div_pow]
  exact Int.mul_ediv_cancel_left _ (by decide)

/-- **A coefficient is the signed sum of its square.** -/
theorem transformOf_apply (x : ℕ → ℕ → ℤ) (i : Fin 64) :
    transformOf (fun r c => 64 * x r.val c.val) i = (wave i).sum x := by
  set y : ℕ → ℕ → ℤ := fun r c => 64 * x r c with hy
  have h4 {v h : Bool} {r c : ℕ} : signedSum 2 v h (pool y) r c = signedSum 4 v h y r c :=
    (signedSum_double (n := 2) even_two).symm
  have h8 {v h : Bool} {r c : ℕ} : signedSum 2 v h (pool (pool y)) r c = signedSum 8 v h y r c := by
    rw [← signedSum_double (n := 2) even_two, ← signedSum_double (n := 4) ⟨2, rfl⟩]
  have hsum {n : ℕ} {v h : Bool} {r c : ℕ} :
      signedSum n v h y r c >>> (6 : ℕ) = signedSum n v h x r c := by
    rw [hy, signedSum_mul, shiftRight_mul]
  have hll : (haarOf (h := 4) fun r c => y r.val c.val).ll =
      fun i c => pool y i.val c.val := haarOf_ll
  have hll2 : (haarOf (h := 2) fun r c => pool y r.val c.val).ll =
      fun i c => pool (pool y) i.val c.val := haarOf_ll
  have hone := fun i c => haarOf_apply (x := y) (h := 4) i c
  have htwo := fun i c => haarOf_apply (x := pool y) (h := 2) i c
  have hthree := fun i c => haarOf_apply (x := pool (pool y)) (h := 1) i c
  show assemble (haarOf (h := 4) fun r c => y r.val c.val)
    (haarOf (h := 2) (haarOf (h := 4) fun r c => y r.val c.val).ll)
    (haarOf (h := 1) (haarOf (h := 2) (haarOf (h := 4) fun r c => y r.val c.val).ll).ll) i = _
  rw [hll, hll2]
  unfold assemble wave
  dsimp only
  simp only [Wave.sum_ite]
  refine ite_congr rfl (fun _ => ?_) fun _ => ite_congr rfl (fun _ => ?_) fun _ =>
    ite_congr rfl (fun _ => ?_) fun _ => ite_congr rfl (fun _ => ?_) fun _ =>
    ite_congr rfl (fun _ => ?_) fun _ => ite_congr rfl (fun _ => ?_) fun _ =>
    ite_congr rfl (fun _ => ?_) fun _ => ite_congr rfl (fun _ => ?_) fun _ =>
    ite_congr rfl (fun _ => ?_) fun _ => ?_
  · rw [(hthree 0 0).2.1, h8, hsum]; rfl
  · rw [(hthree 0 0).2.2.1, h8, hsum]; rfl
  · rw [(hthree 0 0).2.2.2.1, h8, hsum]; rfl
  · rw [(hthree 0 0).2.2.2.2, h8, hsum]; rfl
  · rw [(htwo _ _).2.2.1, h4, hsum]; rfl
  · rw [(htwo _ _).2.2.2.1, h4, hsum]; rfl
  · rw [(htwo _ _).2.2.2.2, h4, hsum]; rfl
  · rw [(hone _ _).2.2.1, hsum]; rfl
  · rw [(hone _ _).2.2.2.1, hsum]; rfl
  · rw [(hone _ _).2.2.2.2, hsum]; rfl

end Coefficients

/-! ### Steps of a quantiser -/

section Steps

variable {s m : ℕ} {bias c q : ℤ}

/-- The sum amounts to at least `m` steps, up or down: of `2 ^ step.1` each, rounded half up by the
bias, or towards zero where there is none. -/
def Reaches (step : ℕ × ℤ) (sum : ℤ) (m : ℕ) : Prop :=
  if step.2 = 0 then 2 ^ step.1 * (m : ℤ) ≤ |sum|
  else 2 ^ step.1 * (m : ℤ) ≤ sum + step.2 ∨ sum + step.2 < 2 ^ step.1 * (1 - m)

instance (step : ℕ × ℤ) (sum : ℤ) : DecidablePred (Reaches step sum) := fun _ => by
  unfold Reaches
  infer_instance

/-- A sum that amounts to some steps amounts to fewer. -/
theorem Reaches.mono {step : ℕ × ℤ} {sum : ℤ} {m' : ℕ} (h : Reaches step sum m) (hm : m' ≤ m) :
    Reaches step sum m' := by
  have hp : (0 : ℤ) < 2 ^ step.1 := by positivity
  have hle : (2 : ℤ) ^ step.1 * m' ≤ 2 ^ step.1 * m :=
    mul_le_mul_of_nonneg_left (by exact_mod_cast hm) hp.le
  unfold Reaches at h ⊢
  split_ifs with hbias
  · rw [if_pos hbias] at h
    exact hle.trans h
  · rw [if_neg hbias] at h
    rw [mul_sub] at h ⊢
    omega

theorem le_natAbs_shiftRight (s : ℕ) (x : ℤ) (hm : 1 ≤ m) :
    m ≤ (x >>> s).natAbs ↔ 2 ^ s * (m : ℤ) ≤ x ∨ x < 2 ^ s * (1 - m) := by
  have hp : (0 : ℤ) < 2 ^ s := by positivity
  have hup : (m : ℤ) ≤ x / 2 ^ s ↔ 2 ^ s * (m : ℤ) ≤ x := by
    rw [Int.le_ediv_iff_mul_le hp, mul_comm]
  have hdown : x / 2 ^ s < 1 - m ↔ x < 2 ^ s * (1 - m) := by
    rw [Int.ediv_lt_iff_lt_mul hp, mul_comm]
  rw [Int.shiftRight_eq_div_pow, ← hup, ← hdown]
  push_cast
  omega

theorem reaches_round (hbias : bias ≠ 0) (hm : 1 ≤ m) :
    m ≤ ((c + bias) >>> s).natAbs ↔ Reaches (s, bias) c m := by
  rw [le_natAbs_shiftRight s _ hm]
  unfold Reaches
  rw [if_neg hbias]

/-- **The luma quantiser** counts the steps of its position. -/
theorem reaches_quantizeRaw {i : Fin 64} (h : quantizeRaw c i = some q) (hm : 1 ≤ m) :
    m ≤ q.natAbs ↔ Reaches (stepBias i) c m := by
  unfold quantizeRaw at h
  generalize stepBias i = step at h ⊢
  obtain ⟨s, bias⟩ := step
  dsimp only at h
  by_cases hbias : bias = 0
  · rw [if_pos hbias] at h
    obtain ⟨a, ha, h⟩ := Option.bind_eq_some_iff.1 h
    rw [i32_yields _ a ha] at h
    have hq : q.natAbs = ((c.natAbs : ℤ) >>> s).natAbs := by
      split_ifs at h
      · rw [i32_yields _ q h, Int.natAbs_neg]
      · rw [← Option.some_inj.1 h]
    have hnever : ¬(c.natAbs : ℤ) < 2 ^ s * (1 - m) := by
      have hp : (0 : ℤ) < 2 ^ s := by positivity
      have hle : (2 : ℤ) ^ s * (1 - m) ≤ 0 := mul_nonpos_of_nonneg_of_nonpos hp.le (by omega)
      omega
    rw [hq, le_natAbs_shiftRight s _ hm, or_iff_left hnever, Int.natCast_natAbs]
    unfold Reaches
    rw [if_pos hbias]
  · rw [if_neg hbias] at h
    obtain ⟨a, ha, h⟩ := Option.bind_eq_some_iff.1 h
    rw [add32_yields _ _ a ha] at h
    rw [← Option.some_inj.1 h]
    exact reaches_round hbias hm

theorem reaches_quantize {i : Fin 64} (h : quantize c i = some q) (hm : 1 ≤ m) (hm' : m ≤ 2047) :
    m ≤ q.natAbs ↔ Reaches (stepBias i) c m := by
  obtain ⟨raw, hraw, h⟩ := Option.bind_eq_some_iff.1 h
  have hclamp : m ≤ (clamp12 raw).natAbs ↔ m ≤ raw.natAbs := by
    unfold clamp12
    omega
  rw [← reaches_quantizeRaw hraw hm, ← Option.some_inj.1 h, hclamp]

theorem reaches_quantizeChromaAc {i : Fin 64} (h : quantizeChromaAc c i = some q) (hm : 1 ≤ m) :
    m ≤ q.natAbs ↔ Reaches (chromaAcShift i, 2 ^ (chromaAcShift i - 1)) c m := by
  obtain ⟨a, ha, h⟩ := Option.bind_eq_some_iff.1 h
  rw [add32_yields _ _ a ha] at h
  rw [← Option.some_inj.1 h]
  exact reaches_round (by positivity) hm

end Steps

/-! ### Code words -/

section CodeWords

variable {cmax : ℕ}

/-- The bits of a code word: one, two more for every power of two that is reached below the ceiling,
and one less where the ceiling is. -/
def codeBits (cmax : ℕ) (reaches : ℕ → Prop) [DecidablePred reaches] : ℕ :=
  1 + 2 * (List.range cmax).countP (fun k => decide (reaches (2 ^ k))) -
    if reaches (2 ^ (cmax - 1)) then 1 else 0

theorem codeBits_congr {p q : ℕ → Prop} [DecidablePred p] [DecidablePred q] (hcmax : 0 < cmax)
    (h : ∀ k < cmax, p (2 ^ k) ↔ q (2 ^ k)) : codeBits cmax p = codeBits cmax q := by
  have hcount : (List.range cmax).countP (fun k => decide (p (2 ^ k))) =
      (List.range cmax).countP fun k => decide (q (2 ^ k)) :=
    List.countP_congr fun k hk => by simp [h k (List.mem_range.1 hk)]
  have htop := h (cmax - 1) (by omega)
  unfold codeBits
  rw [hcount]
  simp only [htop]

theorem countP_range_lt (a n : ℕ) : (List.range n).countP (fun k => decide (k < a)) = min a n := by
  induction n with
  | zero => simp
  | succ n ih =>
    rw [List.range_succ, List.countP_append, ih, List.countP_singleton]
    by_cases h : n < a
    · rw [if_pos (decide_eq_true h)]
      omega
    · rw [if_neg (by simpa using h)]
      omega

/-- A code word is short where no large power of two is reached. -/
theorem codeBits_le {reaches : ℕ → Prop} [DecidablePred reaches] {n : ℕ}
    (h : ∀ k < cmax, reaches (2 ^ k) → k < n) : codeBits cmax reaches ≤ 2 * n + 1 := by
  have hcount : (List.range cmax).countP (fun k => decide (reaches (2 ^ k))) ≤
      (List.range cmax).countP fun k => decide (k < n) :=
    List.countP_mono_left fun k hk hr => by
      simpa using h k (List.mem_range.1 hk) (by simpa using hr)
  rw [countP_range_lt] at hcount
  unfold codeBits
  omega

/-- **The code word of a value** grows with the powers of two that the value reaches. -/
theorem escLength_eq (v : ℤ) (hcmax : 0 < cmax) :
    escLength v cmax = codeBits cmax fun m => m ≤ v.natAbs := by
  have hreach (k : ℕ) : 2 ^ k ≤ v.natAbs ↔ k < magCategory v := by
    rw [← Nat.not_lt, ← magCategory_le_iff, Nat.not_le]
  unfold escLength codeBits
  simp only [hreach, countP_range_lt]
  by_cases hv : v = 0
  · subst hv
    simp [magCategory]
  · rw [if_neg hv]
    have hpos : 0 < magCategory v := by
      rw [← hreach, pow_zero]
      omega
    split_ifs <;> omega

end CodeWords

/-! ### Blocks -/

/-- The planes of a block. -/
inductive Plane where
  | cr
  | cb
  | y
  deriving DecidableEq

/-- The samples of a block. -/
abbrev Samples := Plane → ℕ → ℕ → ℤ

namespace Plane

/-- The sample of a pixel. -/
def sample (r g b : ℤ) : Plane → ℤ
  | .cr => b - g
  | .cb => r - g
  | .y => g + (r - g + (b - g)) / 4

/-- The step and the bias at a position. -/
def steps : Plane → Fin 64 → ℕ × ℤ
  | .y, i => stepBias i
  | .cr, i | .cb, i => (chromaAcShift i, 2 ^ (chromaAcShift i - 1))

/-- The ceiling of the code words. -/
def ceiling (depth : Depth) : Plane → ℕ
  | .y => depth.acCmax
  | .cr | .cb => depth.chromaAcCmax

/-- The signed sum at a position amounts to `m` steps. -/
def ReachesAt (plane : Plane) (x : ℕ → ℕ → ℤ) (i : Fin 64) (m : ℕ) : Prop :=
  Reaches (plane.steps i) ((wave i).sum x) m

instance (plane : Plane) (x : ℕ → ℕ → ℤ) (i : Fin 64) : DecidablePred (plane.ReachesAt x i) :=
  inferInstanceAs (DecidablePred (Reaches _ _))

/-- The last position that amounts to a step. -/
def last (plane : Plane) (x : ℕ → ℕ → ℤ) : ℕ :=
  (Finset.univ.filter fun i : Fin 64 => i ≠ 0 ∧ plane.ReachesAt x i 1).sup Fin.val

/-- The bits of the signed sums, up to that position. -/
def bits (plane : Plane) (depth : Depth) (x : ℕ → ℕ → ℤ) : ℕ :=
  ((List.range' 1 (plane.last x)).map fun i =>
    codeBits (plane.ceiling depth) (plane.ReachesAt x (Fin.ofNat 64 i))).sum

/-- The level of the block: the sum of its samples, in steps of 16 or 64, to the nearest. -/
def level (plane : Plane) (x : ℕ → ℕ → ℤ) : ℤ :=
  match plane with
  | .y => ((wave 0).sum x + 8) / 16
  | .cr | .cb => ((wave 0).sum x + 32) / 64

end Plane

/-- The bits of the last positions of a block. -/
def treeBits (x : Samples) : ℕ :=
  chromaLength (Plane.cr.last (x .cr)) + chromaLength (Plane.cb.last (x .cb)) +
    lumaLength (Plane.y.last (x .y))

/-- The bits of the signed sums of a block. -/
def acBits (depth : Depth) (x : Samples) : ℕ :=
  Plane.cr.bits depth (x .cr) + Plane.cb.bits depth (x .cb) + Plane.y.bits depth (x .y)

section Blocks

variable {x : Samples} {b : ColourBlock} {depth : Depth}

/-- The coefficients of a plane. -/
def coeffs (b : ColourBlock) : Plane → Coeffs
  | .cr => b.qcr
  | .cb => b.qcb
  | .y => b.qy

/-- The last position of a plane. -/
def lastOf (b : ColourBlock) : Plane → ℕ
  | .cr => b.lcr
  | .cb => b.lcb
  | .y => b.ly

/-- **The block is what the samples are quantised to.** -/
structure Written (x : Samples) (b : ColourBlock) : Prop where
  level : ∀ plane, coeffs b plane 0 = plane.level (x plane)
  reaches : ∀ plane i m, i ≠ 0 → 1 ≤ m → (plane = .y → m ≤ 2047) →
    (m ≤ (coeffs b plane i).natAbs ↔ plane.ReachesAt (x plane) i m)
  last : ∀ plane, IsLastAc (coeffs b plane) (lastOf b plane)

theorem quantizePlane_apply {dc : ℤ → Option ℤ} {ac : ℤ → Fin 64 → Option ℤ} {t q : Coeffs}
    (h : quantizePlane dc ac t = some q) :
    dc (t 0) = some (q 0) ∧ ∀ i, i ≠ 0 → ac (t i) i = some (q i) := by
  obtain ⟨v, hv, hq⟩ := Option.bind_eq_some_iff.1 h
  obtain rfl := Option.some_inj.1 hq
  refine ⟨by simpa using ofFnM_eq_some hv 0, fun i hi => ?_⟩
  simpa [hi] using ofFnM_eq_some hv i

/-- **A block of samples that are multiples of 64.** -/
theorem written_colourBlock
    (h : colourBlock (fun r c => 64 * x .cr r c) (fun r c => 64 * x .cb r c)
      (fun r c => 64 * x .y r c) = some b) : Written x b := by
  obtain ⟨tcr, htcr, h⟩ := Option.bind_eq_some_iff.1 h
  obtain ⟨tcb, htcb, h⟩ := Option.bind_eq_some_iff.1 h
  obtain ⟨ty, hty, h⟩ := Option.bind_eq_some_iff.1 h
  obtain ⟨qcr, hqcr, h⟩ := Option.bind_eq_some_iff.1 h
  obtain ⟨qcb, hqcb, h⟩ := Option.bind_eq_some_iff.1 h
  obtain ⟨qy, hqy, h⟩ := Option.bind_eq_some_iff.1 h
  obtain rfl := Option.some_inj.1 h
  obtain rfl := transform_yields _ _ htcr
  obtain rfl := transform_yields _ _ htcb
  obtain rfl := transform_yields _ _ hty
  obtain ⟨hdcr, hacr⟩ := quantizePlane_apply hqcr
  obtain ⟨hdcb, hacb⟩ := quantizePlane_apply hqcb
  obtain ⟨hdy, hay⟩ := quantizePlane_apply hqy
  simp only [transformOf_apply] at hdcr hacr hdcb hacb hdy hay
  refine ⟨fun plane => ?_, fun plane i m hi hm hm' => ?_, fun plane => ?_⟩
  · have hround {k : ℕ} {v q : ℤ} (h : quantizeDcRound k v = some q) :
        q = (v + 2 ^ ((if k = 0 then 4 else 6) - 1)) >>> (if k = 0 then 4 else 6 : ℕ) := by
      obtain ⟨a, ha, h⟩ := Option.bind_eq_some_iff.1 h
      rw [add32_yields _ _ a ha] at h
      exact (Option.some_inj.1 h).symm
    cases plane with
    | cr => exact (hround hdcr).trans (Int.shiftRight_eq_div_pow _ _)
    | cb => exact (hround hdcb).trans (Int.shiftRight_eq_div_pow _ _)
    | y => exact (hround hdy).trans (Int.shiftRight_eq_div_pow _ _)
  · cases plane with
    | cr => exact reaches_quantizeChromaAc (hacr i hi) hm
    | cb => exact reaches_quantizeChromaAc (hacb i hi) hm
    | y => exact reaches_quantize (hay i hi) hm (hm' rfl)
  · cases plane with
    | cr => exact isLastAc_lastSignificant qcr
    | cb => exact isLastAc_lastSignificant qcb
    | y => exact isLastAc_lastSignificant qy

theorem Written.reaches_one (h : Written x b) (plane : Plane) {i : Fin 64} (hi : i ≠ 0) :
    coeffs b plane i ≠ 0 ↔ plane.ReachesAt (x plane) i 1 := by
  rw [← h.reaches plane i 1 hi le_rfl fun _ => by decide]
  omega

/-- The last position is that of the last sum that amounts to a step. -/
theorem Written.lastOf_eq (h : Written x b) (plane : Plane) :
    lastOf b plane = plane.last (x plane) := by
  rcases h.last plane with ⟨hl, hzero⟩ | ⟨i, hi, hil, hne, hzero⟩
  · have hempty : (Finset.univ.filter fun i : Fin 64 =>
        i ≠ 0 ∧ plane.ReachesAt (x plane) i 1) = ∅ := by
      refine Finset.filter_eq_empty_iff.2 fun i _ => ?_
      rintro ⟨hi, hreaches⟩
      exact (h.reaches_one plane hi).2 hreaches (hzero i hi)
    rw [hl, Plane.last, hempty, Finset.sup_empty]
    rfl
  · have hmem : i ∈ Finset.univ.filter fun i : Fin 64 =>
        i ≠ 0 ∧ plane.ReachesAt (x plane) i 1 :=
      Finset.mem_filter.2 ⟨Finset.mem_univ i, hi, (h.reaches_one plane hi).1 hne⟩
    rw [← hil]
    refine le_antisymm (Finset.le_sup (f := Fin.val) hmem) (Finset.sup_le fun j hj => ?_)
    obtain ⟨-, hj, hreaches⟩ := Finset.mem_filter.1 hj
    by_contra hlt
    exact (h.reaches_one plane hj).2 hreaches (hzero j (Fin.lt_def.2 (by omega)))

theorem Written.planeLength_eq (h : Written x b) (depth : Depth) (plane : Plane) :
    planeLength (coeffs b plane) (lastOf b plane) (plane.ceiling depth) =
      plane.bits depth (x plane) := by
  have hlt := (h.last plane).lt
  have hceiling : 0 < plane.ceiling depth ∧ (plane = .y → plane.ceiling depth ≤ 11) := by
    cases plane <;> cases depth <;> decide
  unfold planeLength Plane.bits
  rw [← h.lastOf_eq plane]
  refine congrArg List.sum (List.map_congr_left fun i hi => ?_)
  obtain ⟨j, hj, rfl⟩ := List.mem_range'.1 hi
  have hne : Fin.ofNat 64 (1 + 1 * j) ≠ 0 := by
    intro h0
    have hval := congrArg Fin.val h0
    rw [Fin.val_ofNat, Nat.mod_eq_of_lt (by omega)] at hval
    exact absurd hval (by simp)
  rw [escLength_eq _ hceiling.1]
  refine codeBits_congr hceiling.1 fun k hk => h.reaches plane _ _ hne Nat.one_le_two_pow ?_
  intro hy
  have hk' : k ≤ 10 := by
    have := hceiling.2 hy
    omega
  exact (Nat.pow_le_pow_right Nat.two_pos hk').trans (by decide)

theorem Written.acLength_eq (h : Written x b) : acLength depth b = acBits depth x := by
  have hcr := h.planeLength_eq depth .cr
  have hcb := h.planeLength_eq depth .cb
  have hy := h.planeLength_eq depth .y
  exact congr (congrArg _ (congr (congrArg _ hcr) hcb)) hy

theorem Written.treeLength_eq (h : Written x b) : treeLength b = treeBits x := by
  have hcr := h.lastOf_eq .cr
  have hcb := h.lastOf_eq .cb
  have hy := h.lastOf_eq .y
  unfold treeLength treeBits
  rw [← hcr, ← hcb, ← hy]
  rfl

end Blocks

/-! ### Strips -/

/-- The level of the block before block `k`. -/
def levelBefore (x : ℕ → Samples) (k : ℕ) (plane : Plane) : ℤ :=
  if k = 0 then 0 else plane.level (x (k - 1) plane)

/-- How far the level of block `k` is from the one before. -/
def levelStep (x : ℕ → Samples) (k : ℕ) (plane : Plane) : ℤ :=
  plane.level (x k plane) - levelBefore x k plane

/-- The bits of the level steps of a block. -/
def levelBits (depth : Depth) (x : ℕ → Samples) (k : ℕ) : ℕ :=
  let bits (plane : Plane) : ℕ :=
    codeBits depth.dcCmax fun m => m ≤ (levelStep x k plane).natAbs
  bits .cr + bits .cb + bits .y

/-- The bits of the last positions and level steps of a strip. -/
def headBits (depth : Depth) (x : ℕ → Samples) : ℕ :=
  ((List.range 16).map fun k => treeBits (x k) + levelBits depth x k).sum

/-- The bits of the signed sums of eight blocks of a strip. -/
def halfBits (depth : Depth) (x : ℕ → Samples) (first : ℕ) : ℕ :=
  ((List.range' first 8).map fun k => acBits depth (x k)).sum

section Strips

variable {x : ℕ → Samples} {b : ℕ → ColourBlock} {depth : Depth}

/-- **The steps between the blocks** of a strip, from block `k` on. -/
theorem sum_dcDifferences (depth : Depth) : ∀ n k, (∀ i < k + n, Written (x i) (b i)) →
    ((dcDifferences (levelBefore x k .cr) (levelBefore x k .cb) (levelBefore x k .y)
        ((List.range' k n).map b)).map fun d => escLength d depth.dcCmax).sum =
      ((List.range' k n).map fun i => levelBits depth x i).sum
  | 0, _, _ => rfl
  | n + 1, k, h => by
    have hk := h k (by omega)
    have hnext (plane : Plane) : coeffs (b k) plane 0 = levelBefore x (k + 1) plane := by
      rw [hk.level plane, levelBefore, if_neg (Nat.succ_ne_zero k), Nat.add_sub_cancel]
    have hbits (plane : Plane) :
        escLength (coeffs (b k) plane 0 - levelBefore x k plane) depth.dcCmax =
          codeBits depth.dcCmax fun m => m ≤ (levelStep x k plane).natAbs := by
      rw [hk.level plane]
      exact escLength_eq _ (by cases depth <;> decide)
    have hrest := sum_dcDifferences depth n (k + 1) fun i hi => h i (by omega)
    rw [← hnext, ← hnext, ← hnext] at hrest
    rw [List.range'_succ, List.map_cons, List.map_cons, List.sum_cons, ← hrest, levelBits]
    dsimp only
    rw [← hbits, ← hbits, ← hbits, Nat.add_assoc, Nat.add_assoc]
    rfl

/-- **The length of a strip**, from the samples of its blocks. -/
theorem stripLength_eq (h : ∀ k < 16, Written (x k) (b k)) :
    stripLength depth ((List.range 16).map b) =
      18 + regionBytes (headBits depth x) + regionBytes (halfBits depth x 0) +
        regionBytes (halfBits depth x 8) := by
  have hhalf (first : ℕ) (hfirst : first + 8 ≤ 16) :
      rowLength depth ((List.range' first 8).map b) = halfBits depth x first := by
    unfold rowLength halfBits
    rw [List.map_map]
    refine congrArg List.sum (List.map_congr_left fun k hk => ?_)
    obtain ⟨j, hj, rfl⟩ := List.mem_range'.1 hk
    exact (h _ (by omega)).acLength_eq
  have hhead : mainLength depth ((List.range 16).map b) = headBits depth x := by
    have hdc := sum_dcDifferences (x := x) (b := b) depth 16 0 fun i hi => h i (by omega)
    rw [← List.range_eq_range'] at hdc
    have htree : (((List.range 16).map b).map treeLength).sum =
        ((List.range 16).map fun k => treeBits (x k)).sum := by
      rw [List.map_map]
      refine congrArg List.sum (List.map_congr_left fun k hk => ?_)
      exact (h k (List.mem_range.1 hk)).treeLength_eq
    unfold mainLength headBits
    rw [htree, List.sum_map_add]
    exact congrArg _ hdc
  have htake : ((List.range 16).map b).take 8 = (List.range' 0 8).map b := by
    rw [← List.map_take]
    rfl
  have hdrop : ((List.range 16).map b).drop 8 = (List.range' 8 8).map b := by
    rw [← List.map_drop]
    rfl
  rw [stripLength, htake, hdrop, hhead, hhalf 0 (by omega), hhalf 8 (by omega)]

end Strips

/-! ### Bounds -/

section Bounds

variable {x : ℕ → Samples} {n : ℕ}

theorem Plane.last_lt (plane : Plane) (y : ℕ → ℕ → ℤ) : plane.last y < 64 :=
  (Finset.sup_lt_iff (by decide)).2 fun i _ => i.isLt

theorem Plane.bits_le (plane : Plane) (depth : Depth) {y : ℕ → ℕ → ℤ}
    (h : ∀ i, i ≠ 0 → ¬plane.ReachesAt y i (2 ^ n)) : plane.bits depth y ≤ 63 * (2 * n + 1) := by
  have hlast := plane.last_lt y
  have hword : ∀ v ∈ (List.range' 1 (plane.last y)).map fun i =>
      codeBits (plane.ceiling depth) (plane.ReachesAt y (Fin.ofNat 64 i)), v ≤ 2 * n + 1 := by
    intro v hv
    obtain ⟨i, hi, rfl⟩ := List.mem_map.1 hv
    obtain ⟨j, hj, rfl⟩ := List.mem_range'.1 hi
    refine codeBits_le fun k _ hreaches => ?_
    by_contra hk
    refine h _ (fun h0 => ?_) (hreaches.mono (Nat.pow_le_pow_right Nat.two_pos (Nat.not_lt.1 hk)))
    have hval := congrArg Fin.val h0
    rw [Fin.val_ofNat, Nat.mod_eq_of_lt (by omega)] at hval
    exact absurd hval (by simp)
  have hsum := List.sum_le_card_nsmul _ _ hword
  rw [List.length_map, List.length_range', smul_eq_mul] at hsum
  exact hsum.trans (Nat.mul_le_mul_right _ (by omega))

/-- **The signed sums of half a strip**, where none amounts to `2 ^ n` steps. -/
theorem halfBits_le (depth : Depth) (first : ℕ)
    (h : ∀ k, first ≤ k → k < first + 8 → ∀ (plane : Plane) i, i ≠ 0 →
      ¬plane.ReachesAt (x k plane) i (2 ^ n)) :
    halfBits depth x first ≤ 1512 * (2 * n + 1) := by
  have hblock : ∀ v ∈ (List.range' first 8).map fun k => acBits depth (x k),
      v ≤ 189 * (2 * n + 1) := by
    intro v hv
    obtain ⟨k, hk, rfl⟩ := List.mem_map.1 hv
    obtain ⟨j, hj, rfl⟩ := List.mem_range'.1 hk
    have hplane (plane : Plane) := plane.bits_le depth (h (first + 1 * j) (by omega)
      (by omega) plane)
    have hcr := hplane .cr
    have hcb := hplane .cb
    have hy := hplane .y
    unfold acBits
    omega
  have hsum := List.sum_le_card_nsmul _ _ hblock
  rw [List.length_map, List.length_range', smul_eq_mul, ← Nat.mul_assoc] at hsum
  exact hsum

theorem headBits_le (depth : Depth) (x : ℕ → Samples) : headBits depth x ≤ 1824 := by
  have hlog (a : ℕ) (ha : a ≤ 64) : Nat.log 2 a ≤ 6 :=
    Nat.le_of_lt_succ (Nat.log_lt_of_lt_pow' (by decide) (by omega))
  have htree (y : Samples) : treeBits y ≤ 39 := by
    have hcr := hlog (Plane.cr.last (y .cr) + 1) (Plane.cr.last_lt (y .cr))
    have hcb := hlog (Plane.cb.last (y .cb) + 1) (Plane.cb.last_lt (y .cb))
    have hy := hlog _ (Nat.sub_le 64 (Plane.y.last (y .y)))
    unfold treeBits chromaLength lumaLength
    split_ifs <;> omega
  have hlevel (k : ℕ) : levelBits depth x k ≤ 75 := by
    have hcmax : depth.dcCmax ≤ 12 := by cases depth <;> decide
    have hword (plane : Plane) :
        (codeBits depth.dcCmax fun m => m ≤ (levelStep x k plane).natAbs) ≤
          2 * depth.dcCmax + 1 := codeBits_le fun _ hj _ => hj
    have hcr := hword .cr
    have hcb := hword .cb
    have hy := hword .y
    unfold levelBits
    dsimp only
    omega
  have hblock : ∀ v ∈ (List.range 16).map fun k => treeBits (x k) + levelBits depth x k,
      v ≤ 114 := by
    intro v hv
    obtain ⟨k, -, rfl⟩ := List.mem_map.1 hv
    have h1 := htree (x k)
    have h2 := hlevel k
    omega
  have hsum := List.sum_le_card_nsmul _ _ hblock
  rw [List.length_map, List.length_range] at hsum
  exact hsum

end Bounds

end Vino.Haar.Sums
