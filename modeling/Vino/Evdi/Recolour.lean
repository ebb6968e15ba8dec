import Vino.Evdi.Tint

/-!
# Colour Correction of Every Format

The copy loop of a grab recolours a row in place, four bytes at a time, as blue, green, red and one
byte that is left alone (`tint`).  The primary plane advertises eight formats, which put the
channels elsewhere or give them ten bits.

* `grabpix_colour_iff`: a format comes out right under every transform exactly when its bytes are
  those of XRGB8888; with red and blue exchanged a pixel does when the transform treats them alike,
* `colour_swapped`: under a transform of the red channel, a blue pixel of XBGR8888 turns red.
-/

namespace Vino.Evdi.Recolour

open Vino.Color Vino.Evdi.Tint Vino.Lib.Checked

/-! ### Formats -/

inductive PixelFormat where
  | xrgb8888
  | argb8888
  | xbgr8888
  | abgr8888
  | xrgb2101010
  | argb2101010
  | xbgr2101010
  | abgr2101010
  deriving DecidableEq, Repr

/-- The formats of the primary plane. -/
def primaryFormats : List PixelFormat :=
  [.xrgb8888, .argb8888, .xbgr8888, .abgr8888, .xrgb2101010, .argb2101010, .xbgr2101010,
    .abgr2101010]

namespace PixelFormat

/-- The bits of a channel. -/
def width : PixelFormat → ℕ
  | xrgb8888 | argb8888 | xbgr8888 | abgr8888 => 8
  | xrgb2101010 | argb2101010 | xbgr2101010 | abgr2101010 => 10

/-- Red stands above green and blue in the word. -/
def redHigh : PixelFormat → Bool
  | xrgb8888 | argb8888 | xrgb2101010 | argb2101010 => true
  | xbgr8888 | abgr8888 | xbgr2101010 | abgr2101010 => false

/-- The channel at a place of the word, counted from the lowest bits. -/
def field (f : PixelFormat) (word i : ℕ) : ℕ := word / 2 ^ (i * f.width) % 2 ^ f.width

def red (f : PixelFormat) (word : ℕ) : ℕ := f.field word (if f.redHigh then 2 else 0)

def green (f : PixelFormat) (word : ℕ) : ℕ := f.field word 1

def blue (f : PixelFormat) (word : ℕ) : ℕ := f.field word (if f.redHigh then 0 else 2)

/-- The bits that carry no colour. -/
def remaining (f : PixelFormat) (word : ℕ) : ℕ := word / 2 ^ (3 * f.width)

end PixelFormat

/-- The word of a pixel, whose bytes stand in memory from the lowest on. -/
def word (p : Pixel) : ℕ :=
  p.blue.toNat + p.green.toNat * 2 ^ 8 + p.red.toNat * 2 ^ 16 + p.unused.toNat * 2 ^ 24

/-! ### What is asked for -/

/-- A 10-bit channel as a pixel value, rounded. -/
def expand10 (v : ℕ) : ℤ := (v * 65535 + 511) / 1023

/-- A pixel value as a 10-bit channel, rounded. -/
def narrow10 (v : ℤ) : ℤ := (Color.clamp 0 maxValue v * 1023 + 32767) / 65535

/-- A table of 8-bit values as one of pixel values. -/
def widened (t : Vector UInt8 (3 * lutLen)) (c : ℕ) : List UInt16 :=
  ((t.toList.drop (c * lutLen)).take lutLen).map fun v => UInt16.ofNat (v.toNat * 257)

/-- The ramp of a channel behind the matrix, on pixel values. -/
def ramp (gamma : Option Table) (c : ℕ) (v : ℤ) : Option ℤ :=
  match gamma with
  | none => some v
  | some t => (channel t c).bind fun table => sample table v

local instance neZero_nine : NeZero 9 := ⟨by decide⟩

/-- The transfer of a pipeline at ten bits: what it does to pixel values, without the way over eight
bits. -/
def transfer10 (p : ColorPipeline) (r g b : ℕ) : Option (ℤ × ℤ × ℤ) :=
  match p with
  | .fused t => do
      let x ← sample (widened t 0) (expand10 r)
      let y ← sample (widened t 1) (expand10 g)
      let z ← sample (widened t 2) (expand10 b)
      return (narrow10 x, narrow10 y, narrow10 z)
  | .mixed ctm gamma => do
      let x ← mul (ctm 0) (ctm 1) (ctm 2) (expand10 r) (expand10 g) (expand10 b)
      let y ← mul (ctm 3) (ctm 4) (ctm 5) (expand10 r) (expand10 g) (expand10 b)
      let z ← mul (ctm 6) (ctm 7) (ctm 8) (expand10 r) (expand10 g) (expand10 b)
      return (narrow10 (← ramp gamma 0 x), narrow10 (← ramp gamma 1 y), narrow10 (← ramp gamma 2 z))

/-- The channels come out as the pipeline says. -/
def Corrected (f : PixelFormat) (p : ColorPipeline) (before after : ℕ) : Prop :=
  if f.width = 8 then
    p.apply (UInt8.ofNat (f.red before)) (UInt8.ofNat (f.green before))
        (UInt8.ofNat (f.blue before)) =
      some (UInt8.ofNat (f.red after), UInt8.ofNat (f.green after), UInt8.ofNat (f.blue after))
  else
    ∃ r g b, transfer10 p (f.red before) (f.green before) (f.blue before) = some (r, g, b) ∧
      |(f.red after : ℤ) - r| ≤ 1 ∧ |(f.green after : ℤ) - g| ≤ 1 ∧ |(f.blue after : ℤ) - b| ≤ 1

/-- **Colour correction is right** for a pixel of a format: its channels are corrected, and the
remaining bits are as they were. -/
def Right (f : PixelFormat) (p : ColorPipeline) (px : Pixel) : Prop :=
  Corrected f p (word px) (word (tint (some p) px)) ∧
    f.remaining (word (tint (some p) px)) = f.remaining (word px)

/-! ### The 8-bit formats -/

section Eight

variable {f : PixelFormat} (hf : f.width = 8)
include hf

theorem field_word (p : Pixel) :
    f.field (word p) 0 = p.blue.toNat ∧ f.field (word p) 1 = p.green.toNat ∧
      f.field (word p) 2 = p.red.toNat ∧ f.remaining (word p) = p.unused.toNat := by
  have hb := p.blue.toNat_lt
  have hg := p.green.toNat_lt
  have hr := p.red.toNat_lt
  have hx := p.unused.toNat_lt
  simp only [PixelFormat.field, PixelFormat.remaining, word, hf]
  refine ⟨?_, ?_, ?_, ?_⟩ <;> norm_num at hb hg hr hx ⊢ <;> omega

/-- The bytes of XRGB8888. -/
theorem right_redHigh (hhigh : f.redHigh = true) (p : ColorPipeline) (px : Pixel) :
    Right f p px := by
  obtain ⟨⟨r, g, b⟩, hout⟩ := apply_succeeds p px.red px.green px.blue
  have htint : tint (some p) px = ⟨b, g, r, px.unused⟩ := by simp [tint, hout]
  obtain ⟨hb, hg, hr, hx⟩ := field_word hf px
  obtain ⟨hb', hg', hr', hx'⟩ := field_word hf ⟨b, g, r, px.unused⟩
  rw [Right, Corrected, if_pos hf, htint, hx, hx']
  refine ⟨?_, rfl⟩
  simp only [PixelFormat.red, PixelFormat.green, PixelFormat.blue, hhigh, if_true, hb, hg, hr, hb',
    hg', hr', UInt8.ofNat_toNat]
  exact hout

/-- Red and blue exchanged. -/
theorem right_redLow_iff (hlow : f.redHigh = false) (p : ColorPipeline) (px : Pixel) :
    Right f p px ↔ p.apply px.blue px.green px.red =
      (p.apply px.red px.green px.blue).map fun out => (out.2.2, out.2.1, out.1) := by
  obtain ⟨⟨r, g, b⟩, hout⟩ := apply_succeeds p px.red px.green px.blue
  have htint : tint (some p) px = ⟨b, g, r, px.unused⟩ := by simp [tint, hout]
  obtain ⟨hb, hg, hr, hx⟩ := field_word hf px
  obtain ⟨hb', hg', hr', hx'⟩ := field_word hf ⟨b, g, r, px.unused⟩
  rw [Right, Corrected, if_pos hf, htint, hx, hx', hout, Option.map_some]
  simp only [PixelFormat.red, PixelFormat.green, PixelFormat.blue, hlow, Bool.false_eq_true,
    if_false, hb, hg, hr, hb', hg', hr', UInt8.ofNat_toNat, and_true]

end Eight

/-! ### A transform of the red channel -/

/-- Red is removed and added to blue. -/
def redToBlue : ColorCtm := ⟨![0, 0, 0, 0, 0x100000000, 0, 0x100000000, 0, 0x100000000]⟩

def redToBlueQ16 : Fin 9 → Int32 := ![0, 0, 0, 0, 65536, 0, 65536, 0, 65536]

theorem build_redToBlue : build none (some redToBlue) = some (some (.mixed redToBlueQ16 none)) := by
  have hmatrix : q16Matrix redToBlue = some redToBlueQ16 := by decide +kernel
  have hmixes : mixes redToBlueQ16 = true := by decide
  simp [build, hmatrix, hmixes]

/-- A pixel of one byte, which is blue where red and blue are exchanged. -/
def thirdByte : Pixel := ⟨0, 0, 255, 0⟩

theorem not_right_swapped {f : PixelFormat} (hf : f.width = 8) (hlow : f.redHigh = false) :
    ¬ Right f (.mixed redToBlueQ16 none) thirdByte := by
  rw [right_redLow_iff hf hlow]
  decide +kernel

/-- A green pixel of ten bits, in either order of red and blue. -/
def tenBitGreen : Pixel := ⟨0, 0xfc, 0x0f, 0⟩

theorem not_right_ten {f : PixelFormat} (hf : f.width = 10) :
    ¬ Right f (.mixed redToBlueQ16 none) tenBitGreen := by
  have htransfer : transfer10 (.mixed redToBlueQ16 none) 0 1023 0 = some (0, 1023, 0) := by
    decide +kernel
  have htint : tint (some (.mixed redToBlueQ16 none)) tenBitGreen = ⟨15, 0xfc, 0, 0⟩ := by
    decide +kernel
  have hbefore : f.red (word tenBitGreen) = 0 ∧ f.green (word tenBitGreen) = 1023 ∧
      f.blue (word tenBitGreen) = 0 := by
    cases f with
    | xrgb8888 | argb8888 | xbgr8888 | abgr8888 => exact absurd hf (by decide)
    | xrgb2101010 | argb2101010 | xbgr2101010 | abgr2101010 => decide
  have hafter : f.green (word ⟨15, 0xfc, 0, 0⟩) = 63 := by
    cases f with
    | xrgb8888 | argb8888 | xbgr8888 | abgr8888 => exact absurd hf (by decide)
    | xrgb2101010 | argb2101010 | xbgr2101010 | abgr2101010 => decide
  obtain ⟨hr, hg, hb⟩ := hbefore
  rw [Right, Corrected, if_neg (by rw [hf]; decide), htint, hr, hg, hb, htransfer, hafter]
  rintro ⟨⟨r, g, b, hsome, -, hgreen, -⟩, -⟩
  simp only [Option.some_inj, Prod.mk.injEq] at hsome
  obtain ⟨-, rfl, -⟩ := hsome
  exact absurd hgreen (by decide)

/-- **Which formats come out right.**  A format of the primary plane comes out right under every
transform a commit can build, and for every pixel, exactly when it is XRGB8888 or ARGB8888, whose
bytes the loop is written for.  A pixel of XBGR8888 or ABGR8888 does under a given transform exactly
when the transform of the pixel with red and blue exchanged is the transformed pixel with red and
blue exchanged. -/
theorem grabpix_colour_iff (f : PixelFormat) :
    (f ∈ primaryFormats →
      ((∀ lut ctm p, build lut ctm = some (some p) → ∀ px, Right f p px) ↔
        f = .xrgb8888 ∨ f = .argb8888)) ∧
      (f = .xbgr8888 ∨ f = .abgr8888 → ∀ p px,
        (Right f p px ↔ p.apply px.blue px.green px.red =
          (p.apply px.red px.green px.blue).map fun out => (out.2.2, out.2.1, out.1))) := by
  constructor
  · intro _
    constructor
    · intro hall
      have hright := hall none (some redToBlue) _ build_redToBlue
      cases f with
      | xrgb8888 => exact .inl rfl
      | argb8888 => exact .inr rfl
      | xbgr8888 => exact absurd (hright thirdByte) (not_right_swapped rfl rfl)
      | abgr8888 => exact absurd (hright thirdByte) (not_right_swapped rfl rfl)
      | xrgb2101010 => exact absurd (hright tenBitGreen) (not_right_ten rfl)
      | argb2101010 => exact absurd (hright tenBitGreen) (not_right_ten rfl)
      | xbgr2101010 => exact absurd (hright tenBitGreen) (not_right_ten rfl)
      | abgr2101010 => exact absurd (hright tenBitGreen) (not_right_ten rfl)
    · rintro (rfl | rfl) lut ctm p - px
      · exact right_redHigh rfl rfl p px
      · exact right_redHigh rfl rfl p px
  · rintro (rfl | rfl) p px
    · exact right_redLow_iff rfl rfl p px
    · exact right_redLow_iff rfl rfl p px

/-- A pixel of ARGB8888 under that transform. -/
theorem colour_argb :
    Right .argb8888 (.mixed redToBlueQ16 none) thirdByte :=
  ((grabpix_colour_iff .argb8888).1 (by decide)).2 (.inr rfl) none (some redToBlue) _
    build_redToBlue thirdByte

/-- A blue pixel of XBGR8888 turns red under a transform that removes red. -/
theorem colour_swapped :
    ¬ ∀ f ∈ primaryFormats, ∀ lut ctm p, build lut ctm = some (some p) → ∀ px, Right f p px :=
  fun hall => not_right_swapped rfl rfl
    (hall .xbgr8888 (by decide) none (some redToBlue) _ build_redToBlue thirdByte)

end Vino.Evdi.Recolour
