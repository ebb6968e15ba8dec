import Vino.Haar.Range

/-!
# The Transform Stage is Lossless

The colour transform and the Haar transform over the integers, with their inverses.  The 32-bit
code computes these functions unless an operation overflows, and none does on the samples of a
strip.  Every sample is a multiple of 64 there, so the division by 64 at the end of the transform
is exact, and what the codec loses it loses in the quantisers.

* `uncolour_colourOf`, `unhaar_haarOf`, `untransform_transformOf`: the inverses,
* `transform_stage_lossless`: the stage as a whole.
-/

namespace Vino.Haar.Lossless

open Vino.Haar.Transform Vino.Haar.Strip Vino.Haar.Range Vino.Lib.Checked

/-! ### Colour -/

/-- The colour transform over the integers. -/
def colourOf (r g b : ℤ) : ℤ × ℤ × ℤ :=
  (64 * g + 64 * ((r - g + (b - g)) >>> (2 : ℕ)), 64 * (r - g), 64 * (b - g))

/-- The pixel behind `(Y, Cb, Cr)`. -/
def uncolour (p : ℤ × ℤ × ℤ) : ℤ × ℤ × ℤ :=
  let cb := p.2.1 / 64
  let cr := p.2.2 / 64
  let g := p.1 / 64 - (cb + cr) >>> (2 : ℕ)
  (cb + g, g, cr + g)

theorem uncolour_colourOf (r g b : ℤ) : uncolour (colourOf r g b) = (r, g, b) := by
  have hcb : 64 * (r - g) / 64 = r - g := Int.mul_ediv_cancel_left _ (by decide)
  have hcr : 64 * (b - g) / 64 = b - g := Int.mul_ediv_cancel_left _ (by decide)
  have hy : (64 * g + 64 * ((r - g + (b - g)) >>> (2 : ℕ))) / 64 =
      g + (r - g + (b - g)) >>> (2 : ℕ) := by
    rw [← mul_add]
    exact Int.mul_ediv_cancel_left _ (by decide)
  unfold uncolour colourOf
  dsimp only
  rw [hcb, hcr, hy, add_sub_cancel_right, sub_add_cancel, sub_add_cancel]

theorem colour_yields (r g b : ℤ) : Yields (colour r g b) (colourOf r g b) := by
  refine (sub32_yields r g).bind ?_
  refine (sub32_yields b g).bind ?_
  refine (add32_yields _ _).bind ?_
  refine (mul32_yields _ _).bind ?_
  refine (mul32_yields _ _).bind ?_
  refine (add32_yields _ _).bind ?_
  refine (mul32_yields _ _).bind ?_
  refine (mul32_yields _ _).bind ?_
  exact Yields.pure _

/-! ### One Haar step -/

section Step

variable {h : ℕ}

/-- One Haar step over the integers. -/
def haarOf (src : Matrix (Fin (2 * h)) (Fin (2 * h)) ℤ) : Subbands h where
  ll i c := src (evenIx i) (evenIx c) + src (evenIx i) (oddIx c) +
    (src (oddIx i) (evenIx c) + src (oddIx i) (oddIx c))
  hl i c := src (evenIx i) (evenIx c) - src (evenIx i) (oddIx c) +
    (src (oddIx i) (evenIx c) - src (oddIx i) (oddIx c))
  lh i c := src (evenIx i) (evenIx c) + src (evenIx i) (oddIx c) -
    (src (oddIx i) (evenIx c) + src (oddIx i) (oddIx c))
  hh i c := src (evenIx i) (evenIx c) - src (evenIx i) (oddIx c) -
    (src (oddIx i) (evenIx c) - src (oddIx i) (oddIx c))

theorem haar2d_yields (src : Matrix (Fin (2 * h)) (Fin (2 * h)) ℤ) :
    Yields (haar2d src) (haarOf src) := by
  refine (Yields.tabulate fun r => Yields.tabulate fun i => add32_yields _ _).bind ?_
  refine (Yields.tabulate fun r => Yields.tabulate fun i => sub32_yields _ _).bind ?_
  refine (Yields.tabulate fun i => Yields.tabulate fun c => add32_yields _ _).bind ?_
  refine (Yields.tabulate fun i => Yields.tabulate fun c => sub32_yields _ _).bind ?_
  refine (Yields.tabulate fun i => Yields.tabulate fun c => add32_yields _ _).bind ?_
  refine (Yields.tabulate fun i => Yields.tabulate fun c => sub32_yields _ _).bind ?_
  exact Yields.pure _

theorem half_lt (r : Fin (2 * h)) : r.val / 2 < h := by omega

/-- The pair a row or column belongs to. -/
def half (r : Fin (2 * h)) : Fin h := ⟨r.val / 2, half_lt r⟩

/-- Whether a row or column is added or subtracted in its pair. -/
def side (r : Fin (2 * h)) : ℤ := if r.val % 2 = 0 then 1 else -1

/-- The matrix behind the four subbands. -/
def unhaar (s : Subbands h) : Matrix (Fin (2 * h)) (Fin (2 * h)) ℤ := fun r c =>
  (s.ll (half r) (half c) + side c * s.hl (half r) (half c) + side r * s.lh (half r) (half c) +
    side r * side c * s.hh (half r) (half c)) / 4

theorem even_or_odd (r : Fin (2 * h)) :
    (r = evenIx (half r) ∧ side r = 1) ∨ (r = oddIx (half r) ∧ side r = -1) := by
  by_cases hr : r.val % 2 = 0
  · refine .inl ⟨Fin.ext ?_, if_pos hr⟩
    simp only [evenIx, half]
    omega
  · refine .inr ⟨Fin.ext ?_, if_neg hr⟩
    simp only [oddIx, half]
    omega

/-- **A Haar step is undone.** -/
theorem unhaar_haarOf (src : Matrix (Fin (2 * h)) (Fin (2 * h)) ℤ) :
    unhaar (haarOf src) = src := by
  funext r c
  unfold unhaar haarOf
  dsimp only
  rcases even_or_odd r with ⟨hr, hrs⟩ | ⟨hr, hrs⟩ <;>
    rcases even_or_odd c with ⟨hc, hcs⟩ | ⟨hc, hcs⟩
  all_goals
    rw [hrs, hcs]
    conv_rhs => rw [hr, hc]
    omega

/-- All four subbands are divided by 64 without a remainder. -/
def Exact (s : Subbands h) : Prop := ∀ i c,
  64 * (s.ll i c >>> (6 : ℕ)) = s.ll i c ∧ 64 * (s.hl i c >>> (6 : ℕ)) = s.hl i c ∧
    64 * (s.lh i c >>> (6 : ℕ)) = s.lh i c ∧ 64 * (s.hh i c >>> (6 : ℕ)) = s.hh i c

theorem shiftRight_six_exact {x : ℤ} (hx : 64 ∣ x) : 64 * (x >>> (6 : ℕ)) = x := by
  rw [Int.shiftRight_eq_div_pow]
  exact Int.mul_ediv_cancel' hx

theorem exact_haarOf {src : Matrix (Fin (2 * h)) (Fin (2 * h)) ℤ} (hsrc : ∀ r c, 64 ∣ src r c) :
    Exact (haarOf src) := by
  intro i c
  have h1 := hsrc (evenIx i) (evenIx c)
  have h2 := hsrc (evenIx i) (oddIx c)
  have h3 := hsrc (oddIx i) (evenIx c)
  have h4 := hsrc (oddIx i) (oddIx c)
  refine ⟨?_, ?_, ?_, ?_⟩ <;>
    · refine shiftRight_six_exact ?_
      simp only [haarOf]
      omega

theorem Exact.dvd_ll {s : Subbands h} (hs : Exact s) (i c : Fin h) : 64 ∣ s.ll i c :=
  ⟨_, ((hs i c).1).symm⟩

end Step

/-! ### The transform -/

/-- The transform over the integers. -/
def transformOf (block : Matrix (Fin 8) (Fin 8) ℤ) : Coeffs :=
  let s1 := haarOf (h := 4) block
  let s2 := haarOf (h := 2) s1.ll
  assemble s1 s2 (haarOf (h := 1) s2.ll)

theorem transform_yields (block : Matrix (Fin 8) (Fin 8) ℤ) :
    Yields (transform block) (transformOf block) :=
  (haar2d_yields (h := 4) block).bind <| (haar2d_yields (h := 2) _).bind <|
    (haar2d_yields (h := 1) _).bind <| Yields.pure _

/-- Where a coefficient of a level-one band stands in the scan. -/
def mortonIx (r c : Fin 4) : ℕ := 8 * (r.val % 2) + 4 * (c.val % 2) + 2 * (r.val / 2) + c.val / 2

/-- A level-two band that starts at position `k`. -/
def band2 (t : Coeffs) (k : ℕ) : Matrix (Fin 2) (Fin 2) ℤ := fun r c =>
  64 * t (Fin.ofNat 64 (k + (2 * r.val + c.val)))

/-- A level-one band that starts at position `k`. -/
def band1 (t : Coeffs) (k : ℕ) : Matrix (Fin 4) (Fin 4) ℤ := fun r c =>
  64 * t (Fin.ofNat 64 (k + mortonIx r c))

/-- The block behind its coefficients. -/
def untransform (t : Coeffs) : Matrix (Fin 8) (Fin 8) ℤ :=
  let s3 : Subbands 1 :=
    { ll := fun _ _ => 64 * t 0, hl := fun _ _ => 64 * t 1
      lh := fun _ _ => 64 * t 2, hh := fun _ _ => 64 * t 3 }
  let s2 : Subbands 2 := { ll := unhaar s3, hl := band2 t 4, lh := band2 t 8, hh := band2 t 12 }
  unhaar { ll := unhaar s2, hl := band1 t 16, lh := band1 t 32, hh := band1 t 48 }

section Assemble

variable {s1 : Subbands 4} {s2 : Subbands 2} {s3 : Subbands 1}

theorem scan2_eq (r c : Fin 2) : scan2 (Fin.ofNat 4 (2 * r.val + c.val)) = (r, c) := by
  revert r c
  decide

/-- **The scan of a level-one band names every position once.** -/
theorem scan4Morton_eq (r c : Fin 4) : scan4Morton (Fin.ofNat 16 (mortonIx r c)) = (r, c) := by
  revert r c
  decide

theorem mortonIx_lt (r c : Fin 4) : mortonIx r c < 16 := by
  unfold mortonIx
  omega

/-- What the scan of a level-two band finds, divided by 64. -/
theorem scanned2 {m : Matrix (Fin 2) (Fin 2) ℤ} {r c : Fin 2} {k : ℕ}
    (hm : 64 * (m r c >>> (6 : ℕ)) = m r c) (hk : k = 2 * r.val + c.val) :
    64 * (m (scan2 (Fin.ofNat 4 k)).1 (scan2 (Fin.ofNat 4 k)).2 >>> (6 : ℕ)) = m r c := by
  rw [hk, scan2_eq]
  exact hm

theorem scanned1 {m : Matrix (Fin 4) (Fin 4) ℤ} {r c : Fin 4} {k : ℕ}
    (hm : 64 * (m r c >>> (6 : ℕ)) = m r c) (hk : k = mortonIx r c) :
    64 * (m (scan4Morton (Fin.ofNat 16 k)).1 (scan4Morton (Fin.ofNat 16 k)).2 >>> (6 : ℕ)) =
      m r c := by
  rw [hk, scan4Morton_eq]
  exact hm

theorem val_ofNat_sixtyFour {k : ℕ} (hk : k < 64) : (Fin.ofNat 64 k).val = k :=
  Nat.mod_eq_of_lt hk

theorem band2_assemble (h2 : Exact s2) :
    band2 (assemble s1 s2 s3) 4 = s2.hl ∧ band2 (assemble s1 s2 s3) 8 = s2.lh ∧
      band2 (assemble s1 s2 s3) 12 = s2.hh := by
  refine ⟨?_, ?_, ?_⟩ <;> funext r c <;> obtain ⟨-, hhl, hlh, hhh⟩ := h2 r c
  all_goals
    unfold band2 assemble
    rw [val_ofNat_sixtyFour (by omega), if_neg (by omega), if_neg (by omega), if_neg (by omega),
      if_neg (by omega)]
  · rw [if_pos (by omega)]
    exact scanned2 hhl (by omega)
  · rw [if_neg (by omega), if_pos (by omega)]
    exact scanned2 hlh (by omega)
  · rw [if_neg (by omega), if_neg (by omega), if_pos (by omega)]
    exact scanned2 hhh (by omega)

theorem band1_assemble (h1 : Exact s1) :
    band1 (assemble s1 s2 s3) 16 = s1.hl ∧ band1 (assemble s1 s2 s3) 32 = s1.lh ∧
      band1 (assemble s1 s2 s3) 48 = s1.hh := by
  refine ⟨?_, ?_, ?_⟩ <;> funext r c <;> obtain ⟨-, hhl, hlh, hhh⟩ := h1 r c <;>
    have hlt := mortonIx_lt r c
  all_goals
    unfold band1 assemble
    rw [val_ofNat_sixtyFour (by omega), if_neg (by omega), if_neg (by omega), if_neg (by omega),
      if_neg (by omega), if_neg (by omega), if_neg (by omega), if_neg (by omega)]
  · rw [if_pos (by omega)]
    exact scanned1 hhl (by omega)
  · rw [if_neg (by omega), if_pos (by omega)]
    exact scanned1 hlh (by omega)
  · rw [if_neg (by omega), if_neg (by omega)]
    exact scanned1 hhh (by omega)

end Assemble

/-- The subbands of the three levels of a block. -/
def levels (block : Matrix (Fin 8) (Fin 8) ℤ) : Subbands 4 × Subbands 2 × Subbands 1 :=
  let s1 := haarOf (h := 4) block
  let s2 := haarOf (h := 2) s1.ll
  (s1, s2, haarOf (h := 1) s2.ll)

theorem exact_levels {block : Matrix (Fin 8) (Fin 8) ℤ} (hblock : ∀ r c, 64 ∣ block r c) :
    Exact (levels block).1 ∧ Exact (levels block).2.1 ∧ Exact (levels block).2.2 := by
  have h1 : Exact (haarOf (h := 4) block) := exact_haarOf hblock
  have h2 : Exact (haarOf (h := 2) (haarOf (h := 4) block).ll) := exact_haarOf h1.dvd_ll
  exact ⟨h1, h2, exact_haarOf h2.dvd_ll⟩

/-- **The transform is undone** on samples that are multiples of 64. -/
theorem untransform_transformOf {block : Matrix (Fin 8) (Fin 8) ℤ}
    (hblock : ∀ r c, 64 ∣ block r c) : untransform (transformOf block) = block := by
  obtain ⟨h1, h2, h3⟩ := exact_levels hblock
  obtain ⟨b4, b8, b12⟩ := @band2_assemble (levels block).1 (levels block).2.1 (levels block).2.2 h2
  obtain ⟨b16, b32, b48⟩ := @band1_assemble (levels block).1 (levels block).2.1 (levels block).2.2 h1
  have e3 : unhaar (h := 1) (levels block).2.2 = (levels block).2.1.ll := unhaar_haarOf _
  have e2 : unhaar (h := 2) (levels block).2.1 = (levels block).1.ll := unhaar_haarOf _
  have hone : ∀ {m : Matrix (Fin 1) (Fin 1) ℤ} {x : ℤ}, x = m 0 0 → (fun _ _ => x) = m := by
    intro m x hx
    funext r c
    rw [hx, Subsingleton.elim r 0, Subsingleton.elim c 0]
  -- The subbands are rebuilt from the coarsest level up.
  have hs3 : Subbands.mk (fun _ _ => 64 * transformOf block 0)
      (fun _ _ => 64 * transformOf block 1) (fun _ _ => 64 * transformOf block 2)
      (fun _ _ => 64 * transformOf block 3) = (levels block).2.2 := by
    obtain ⟨hll, hhl, hlh, hhh⟩ := h3 0 0
    exact congr (congr (congr (congrArg Subbands.mk (hone hll)) (hone hhl)) (hone hlh)) (hone hhh)
  have hs2 : Subbands.mk (unhaar (h := 1) (levels block).2.2) (band2 (transformOf block) 4)
      (band2 (transformOf block) 8) (band2 (transformOf block) 12) = (levels block).2.1 :=
    congr (congr (congr (congrArg Subbands.mk e3) b4) b8) b12
  have hs1 : Subbands.mk (unhaar (h := 2) (levels block).2.1) (band1 (transformOf block) 16)
      (band1 (transformOf block) 32) (band1 (transformOf block) 48) = (levels block).1 :=
    congr (congr (congr (congrArg Subbands.mk e2) b16) b32) b48
  unfold untransform
  dsimp only
  rw [hs3, hs2, hs1]
  exact unhaar_haarOf (h := 4) block

/-! ### The samples of a strip -/

/-- The 32-bit code computes the colour transform of every pixel. -/
theorem colour_eq {r g b : ℤ} (hr : 0 ≤ r ∧ r ≤ 65535) (hg : 0 ≤ g ∧ g ≤ 65535)
    (hb : 0 ≤ b ∧ b ≤ 65535) : colour r g b = some (colourOf r g b) := by
  have hfit : ∀ x : ℤ, -2147483648 ≤ x ∧ x ≤ 2147483647 → I32 x := fun x hx => hx
  have hsum : (r - g + (b - g)) >>> (2 : ℕ) = (r - g + (b - g)) / 4 :=
    Int.shiftRight_eq_div_pow _ _
  obtain ⟨v, hv, -⟩ : Succeeds (colour r g b) fun _ => True := by
    refine (succeeds_sub32 (hfit _ (by omega))).seq ?_
    refine (succeeds_sub32 (hfit _ (by omega))).seq ?_
    refine (succeeds_add32 (hfit _ (by omega))).seq ?_
    rw [hsum]
    refine (succeeds_mul32 (hfit _ (by omega))).seq ?_
    refine (succeeds_mul32 (hfit _ (by omega))).seq ?_
    refine (succeeds_add32 (hfit _ (by omega))).seq ?_
    refine (succeeds_mul32 (hfit _ (by omega))).seq ?_
    refine (succeeds_mul32 (hfit _ (by omega))).seq ?_
    exact Succeeds.some trivial
  rw [hv, colour_yields r g b v hv]

/-- The 32-bit code computes the transform of every plane whose samples are this small. -/
theorem transform_eq {block : Matrix (Fin 8) (Fin 8) ℤ}
    (hblock : Within (-16777216) 16777216 block) :
    transform block = some (transformOf block) := by
  obtain ⟨t, ht, -⟩ : Succeeds (transform block) fun _ => True := by
    refine (haar2d_within (h := 4) hblock (by omega) (by omega) (by omega)).bind
      fun s1 ⟨h1, _⟩ => ?_
    refine (haar2d_within (h := 2) h1 (by omega) (by omega) (by omega)).bind fun s2 ⟨h2, _⟩ => ?_
    refine (haar2d_within (h := 1) h2 (by omega) (by omega) (by omega)).bind fun s3 _ => ?_
    exact Succeeds.some trivial
  rw [ht, transform_yields block t ht]

/-- A sample is a multiple of 64 and small enough for the transform. -/
theorem colourOf_sample {r g b : ℤ} (hr : 0 ≤ r ∧ r ≤ 65535) (hg : 0 ≤ g ∧ g ≤ 65535)
    (hb : 0 ≤ b ∧ b ≤ 65535) :
    (64 ∣ (colourOf r g b).1 ∧ 64 ∣ (colourOf r g b).2.1 ∧ 64 ∣ (colourOf r g b).2.2) ∧
      (-16777216 ≤ (colourOf r g b).1 ∧ (colourOf r g b).1 ≤ 16777216) ∧
      (-16777216 ≤ (colourOf r g b).2.1 ∧ (colourOf r g b).2.1 ≤ 16777216) ∧
      (-16777216 ≤ (colourOf r g b).2.2 ∧ (colourOf r g b).2.2 ≤ 16777216) := by
  have hsum : (r - g + (b - g)) >>> (2 : ℕ) = (r - g + (b - g)) / 4 :=
    Int.shiftRight_eq_div_pow _ _
  simp only [colourOf, hsum]
  omega

/-- The planes of a block of a strip, and what becomes of them. -/
theorem strip_planes (g : Geometry) (ox oy : ℕ) (px : PixelSource) (k : ℕ) :
    ∃ s : Fin 8 → Fin 8 → ℤ × ℤ × ℤ, (∀ r c, blockSample g ox oy px k r c = some (s r c)) ∧
      (∀ r c, 64 ∣ (s r c).1 ∧ 64 ∣ (s r c).2.1 ∧ 64 ∣ (s r c).2.2) ∧
      transform (fun r c => (s r c).1) = some (transformOf fun r c => (s r c).1) ∧
      transform (fun r c => (s r c).2.1) = some (transformOf fun r c => (s r c).2.1) ∧
      transform (fun r c => (s r c).2.2) = some (transformOf fun r c => (s r c).2.2) := by
  have hchannel : ∀ v : UInt16, 0 ≤ (v.toNat : ℤ) ∧ (v.toNat : ℤ) ≤ 65535 := fun v => by
    have := v.toNat_lt
    omega
  have hsample : ∀ r c, ∃ p, blockSample g ox oy px k r c = some p ∧
      (64 ∣ p.1 ∧ 64 ∣ p.2.1 ∧ 64 ∣ p.2.2) ∧ (-16777216 ≤ p.1 ∧ p.1 ≤ 16777216) ∧
      (-16777216 ≤ p.2.1 ∧ p.2.1 ≤ 16777216) ∧ (-16777216 ≤ p.2.2 ∧ p.2.2 ≤ 16777216) :=
    fun r c => ⟨_, colour_eq (hchannel _) (hchannel _) (hchannel _),
      colourOf_sample (hchannel _) (hchannel _) (hchannel _)⟩
  choose s hs hdvd hy hcb hcr using hsample
  exact ⟨s, hs, hdvd, transform_eq hy, transform_eq hcb, transform_eq hcr⟩

/-- **The transform stage is lossless.**  The colour transform and the transform of a block of
multiples of 64 have inverses and divide without a remainder; the 32-bit code computes them, and
does so on every block of a strip. -/
theorem transform_stage_lossless :
    (∀ r g b, uncolour (colourOf r g b) = (r, g, b)) ∧
    (∀ r g b v, colour r g b = some v → v = colourOf r g b) ∧
    (∀ block, (∀ r c, 64 ∣ block r c) →
      (Exact (levels block).1 ∧ Exact (levels block).2.1 ∧ Exact (levels block).2.2) ∧
        untransform (transformOf block) = block) ∧
    (∀ block t, transform block = some t →
      t = assemble (levels block).1 (levels block).2.1 (levels block).2.2 ∧
        t = transformOf block) ∧
    ∀ (g : Geometry) (ox oy : ℕ) (px : PixelSource) (k : ℕ),
      ∃ s : Fin 8 → Fin 8 → ℤ × ℤ × ℤ, (∀ r c, blockSample g ox oy px k r c = some (s r c)) ∧
        (∀ r c, 64 ∣ (s r c).1 ∧ 64 ∣ (s r c).2.1 ∧ 64 ∣ (s r c).2.2) ∧
        transform (fun r c => (s r c).1) = some (transformOf fun r c => (s r c).1) ∧
        transform (fun r c => (s r c).2.1) = some (transformOf fun r c => (s r c).2.1) ∧
        transform (fun r c => (s r c).2.2) = some (transformOf fun r c => (s r c).2.2) :=
  ⟨uncolour_colourOf, fun r g b => colour_yields r g b,
    fun _ hblock => ⟨exact_levels hblock, untransform_transformOf hblock⟩,
    fun block t ht => ⟨transform_yields block t ht, transform_yields block t ht⟩, strip_planes⟩

/-- A ramp over a block. -/
def ramp : Matrix (Fin 8) (Fin 8) ℤ := fun r c => 64 * (8 * r.val + c.val)

theorem untransform_ramp : untransform (transformOf ramp) = ramp :=
  (transform_stage_lossless.2.2.1 ramp fun _ _ => ⟨_, rfl⟩).2

end Vino.Haar.Lossless
