import Mathlib
import Vino.Lib.Checked

/-!
# The Haar Transform and the Quantiser

The front half of the codec: the reversible colour transform, three levels of separable
2-D Haar in a Mallat decomposition, and the power-of-two quantisers with their per-plane
rounding.  All arithmetic is on 32-bit integers and is checked, so a value of these functions
is also the statement that no operation on the way overflowed.

An `n × n` block is a matrix; the sixty-four coefficients of a block are numbered as on the
wire.
-/

namespace Vino.Haar.Transform

open Vino.Lib.Checked

/-! ### The transform -/

/-- The even column (or row) `2 * i`. -/
def evenIx {h : ℕ} (i : Fin h) : Fin (2 * h) := ⟨2 * i, by omega⟩

/-- The odd column (or row) `2 * i + 1`. -/
def oddIx {h : ℕ} (i : Fin h) : Fin (2 * h) := ⟨2 * i + 1, by omega⟩

/-- The four half-size subbands of one Haar step. -/
structure Subbands (h : ℕ) where
  ll : Matrix (Fin h) (Fin h) ℤ
  hl : Matrix (Fin h) (Fin h) ℤ
  lh : Matrix (Fin h) (Fin h) ℤ
  hh : Matrix (Fin h) (Fin h) ℤ

/-- One separable 2-D Haar step: the butterfly `lo = a + b`, `hi = a - b` over rows, then over
columns. -/
def haar2d {h : ℕ} (src : Matrix (Fin (2 * h)) (Fin (2 * h)) ℤ) : Option (Subbands h) := do
  let l ← tabulate fun r => tabulate fun i => add32 (src r (evenIx i)) (src r (oddIx i))
  let hb ← tabulate fun r => tabulate fun i => sub32 (src r (evenIx i)) (src r (oddIx i))
  let ll ← tabulate fun i => tabulate fun c => add32 (l (evenIx i) c) (l (oddIx i) c)
  let lh ← tabulate fun i => tabulate fun c => sub32 (l (evenIx i) c) (l (oddIx i) c)
  let hl ← tabulate fun i => tabulate fun c => add32 (hb (evenIx i) c) (hb (oddIx i) c)
  let hh ← tabulate fun i => tabulate fun c => sub32 (hb (evenIx i) c) (hb (oddIx i) c)
  return { ll, hl, lh, hh }

instance neZero_sixtyFour : NeZero 64 := ⟨by decide⟩

/-- Coefficients of a block. -/
abbrev Coeffs := Fin 64 → ℤ

/-- The 2×2 Morton scan of a 4×4 level-one band. -/
def scan4Morton (i : Fin 16) : Fin 4 × Fin 4 :=
  ([(0, 0), (0, 2), (2, 0), (2, 2), (0, 1), (0, 3), (2, 1), (2, 3),
    (1, 0), (1, 2), (3, 0), (3, 2), (1, 1), (1, 3), (3, 1), (3, 3)] :
      List (Fin 4 × Fin 4)).get i

/-- A 2×2 level-two band in row-major order. -/
def scan2 (i : Fin 4) : Fin 2 × Fin 2 :=
  ([(0, 0), (0, 1), (1, 0), (1, 1)] : List (Fin 2 × Fin 2)).get i

/-- The wire's Mallat layout: level three, then the level-two and the level-one bands HL, LH
and HH, floor-divided by 64. -/
def assemble (s1 : Subbands 4) (s2 : Subbands 2) (s3 : Subbands 1) : Coeffs := fun i =>
  let at2 (m : Matrix (Fin 2) (Fin 2) ℤ) (k : ℕ) := let p := scan2 (Fin.ofNat 4 k); m p.1 p.2
  let at1 (m : Matrix (Fin 4) (Fin 4) ℤ) (k : ℕ) :=
    let p := scan4Morton (Fin.ofNat 16 k); m p.1 p.2
  let sh (x : ℤ) := x >>> (6 : ℕ)
  if i.val = 0 then sh (s3.ll 0 0)
  else if i.val = 1 then sh (s3.hl 0 0)
  else if i.val = 2 then sh (s3.lh 0 0)
  else if i.val = 3 then sh (s3.hh 0 0)
  else if i.val < 8 then sh (at2 s2.hl (i.val - 4))
  else if i.val < 12 then sh (at2 s2.lh (i.val - 8))
  else if i.val < 16 then sh (at2 s2.hh (i.val - 12))
  else if i.val < 32 then sh (at1 s1.hl (i.val - 16))
  else if i.val < 48 then sh (at1 s1.lh (i.val - 32))
  else sh (at1 s1.hh (i.val - 48))

/-- The codec's 8×8 transform of one plane of a block. -/
def transform (block : Matrix (Fin 8) (Fin 8) ℤ) : Option Coeffs := do
  let s1 ← haar2d (h := 4) block
  let s2 ← haar2d (h := 2) s1.ll
  let s3 ← haar2d (h := 1) s2.ll
  return assemble s1 s2 s3

/-- The colour transform, in the codec's 64x fixed point: `(Y, Cb, Cr)`. -/
def colour (r g b : ℤ) : Option (ℤ × ℤ × ℤ) := do
  let cb ← sub32 r g
  let cr ← sub32 b g
  let sum ← add32 cb cr
  let y ← add32 (← mul32 64 g) (← mul32 64 (sum >>> (2 : ℕ)))
  return (y, ← mul32 64 cb, ← mul32 64 cr)

/-! ### The quantisers -/

/-- Per-coefficient `(shift, bias)` quantisation parameters of luma. -/
def stepBias (i : Fin 64) : ℕ × ℤ :=
  if i.val ≤ 2 then (4, 8)
  else if i.val = 3 then (5, 16)
  else if i.val ≤ 11 then (2, 2)
  else if i.val ≤ 15 then (3, 4)
  else if i.val ≤ 47 then (1, 0)
  else (2, 2)

/-- The quotient `quantize` computes before it clamps: the coarse bands round half up on the
signed value, the finest truncate towards zero. -/
def quantizeRaw (coeff : ℤ) (i : Fin 64) : Option ℤ :=
  let (shift, bias) := stepBias i
  if bias = 0 then do
    let q := (← abs32 coeff) >>> shift
    if coeff < 0 then neg32 q else some q
  else do
    return (← add32 coeff bias) >>> shift

/-- Clamp to the 12-bit signed long-token range. -/
def clamp12 (q : ℤ) : ℤ := max (-2048) (min q 2047)

/-- Quantise a luma AC coefficient at position `i`. -/
def quantize (coeff : ℤ) (i : Fin 64) : Option ℤ := do
  return clamp12 (← quantizeRaw coeff i)

/-- The shift of the chroma AC quantiser at position `i`. -/
def chromaAcShift (i : Fin 64) : ℕ :=
  if i.val = 1 ∨ i.val = 2 ∨ (4 ≤ i.val ∧ i.val ≤ 11) then 4
  else if 48 ≤ i.val then 6
  else 5

/-- Quantise a chroma AC coefficient, half up on the signed value. -/
def quantizeChromaAc (coeff : ℤ) (i : Fin 64) : Option ℤ := do
  let shift := chromaAcShift i
  return (← add32 coeff (2 ^ (shift - 1))) >>> shift

/-- The per-plane DC quantiser: step 16 for luma (plane 0), step 64 for chroma. -/
def quantizeDcRound (plane : ℕ) (v : ℤ) : Option ℤ := do
  let shift := if plane = 0 then 4 else 6
  return (← add32 v (2 ^ (shift - 1))) >>> shift

/-! ### Magnitude categories -/

/-- The magnitude category of a quantised coefficient: the bit length of its absolute value,
zero for zero. -/
def magCategory (coeff : ℤ) : ℕ :=
  if coeff.natAbs = 0 then 0 else Nat.log 2 coeff.natAbs + 1

/-- Bits per colour channel in the surface being encoded. -/
inductive Depth where
  | eight
  | ten
  deriving DecidableEq, Repr

/-- The number the name of the depth says. -/
def Depth.bits : Depth → ℕ
  | eight => 8
  | ten => 10

/-- Maximum escape category of a DC coefficient. -/
def Depth.dcCmax : Depth → ℕ
  | eight => 10
  | ten => 10 + 2

/-- Maximum escape category of a luma AC coefficient. -/
def Depth.acCmax : Depth → ℕ
  | eight => 9
  | ten => 9 + 2

/-- Maximum escape category of a chroma AC coefficient. -/
def Depth.chromaAcCmax : Depth → ℕ
  | eight => 10
  | ten => 10 + 2

theorem magCategory_le_iff {v : ℤ} {c : ℕ} : magCategory v ≤ c ↔ v.natAbs < 2 ^ c := by
  unfold magCategory
  split_ifs with h
  · simp [h]
  · rw [Nat.add_one_le_iff]
    exact Nat.log_lt_iff_lt_pow Nat.one_lt_two h

end Vino.Haar.Transform
