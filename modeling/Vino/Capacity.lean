import Vino.StripCache
import Vino.Haar.Sums

/-!
# Strips That Fit a Record

A record carries a strip of at most 4062 bytes, and a surface with a longer one cannot be framed.
How long a strip is depends on the contrasts of its picture: on how far one half of a square of
pixels is from the other, at three sizes and in three channels, counted in powers of two of the
quantiser's steps.  So a surface can be framed exactly when the contrasts of each of its strips are
few and faint enough together.  Pictures exist whose contrasts are not, at eight bits a channel as
well.

* `framed_iff`: which surfaces can be framed,
* `framed_of_faint`: those without a contrast of sixteen steps can,
* `noise_not_framed`: one that cannot.
-/

namespace Vino.Capacity

open Vino.Haar.Transform Vino.Haar.Strip Vino.Haar.Records Vino.Haar.Framing Vino.Haar.Lengths
open Vino.Haar.Lossless Vino.Haar.Sums
open Vino.Lib.Checked Vino.Profile Vino.Scanout Vino.Coherence Vino.StripCache

variable {d : Dock} {S : List (Surface d)}

/-- A dock as a session engages it: ten bits a channel where the profile allows it, else eight. -/
def Engaged (d : Dock) : Prop := d.Known ∧ d.tenBit = d.profile.capabilities.hdrCapable

/-- Every strip of the surfaces fits a record, so no selection of them is refused, and `encode`
does not fail in any run over them unless an allocation does. -/
structure Framed (S : List (Surface d)) : Prop where
  strips : ∀ f ∈ S, ∀ p ∈ f.coords, ∃ b,
    colourStripAt d.geometry p.1 p.2 (rgbReader d.tenBit f.width f.rgb) = some b ∧
      b.length ≤ 4062
  records : ∀ f ∈ S, ∀ (ps : List (ℕ × ℕ)) head, (∀ p ∈ ps, p ∈ f.coords) →
    frameRecords d.geometry (ps.map f.body) head ≠ .error .EOVERFLOW
  encodes : ∀ (calls : List (Call d)) h, (∀ f ∈ surfaces calls, f ∈ S) →
    (Head.new d).run calls = some h → ∀ plan head s' e,
      h.encode plan head none ≠ some (s', .error e)

/-- The samples of block `k` of the strip at `p`: the pixels of the picture, channel by channel. -/
def samples (f : Surface d) (p : ℕ × ℕ) (k : ℕ) : Samples := fun plane r c =>
  let across := d.geometry.stripW / 8
  let pixel := rgbReader d.tenBit f.width f.rgb (p.1 + k % across * 8 + c)
    (p.2 + k / across * 8 + r)
  plane.sample pixel.1.toNat pixel.2.1.toNat pixel.2.2.toNat

/-- The contrasts of every strip of the picture leave room for one another. -/
def Fits (f : Surface d) : Prop :=
  ∀ p ∈ f.coords,
    regionBytes (headBits d.geometry.depth (samples f p)) +
      regionBytes (halfBits d.geometry.depth (samples f p) 0) +
      regionBytes (halfBits d.geometry.depth (samples f p) 8) ≤ 4044

instance (f : Surface d) : Decidable (Fits f) := by
  unfold Fits
  infer_instance

theorem length_body (f : Surface d) (p : ℕ × ℕ) : ∃ blocks,
    colourStripBlocks d.geometry p.1 p.2 (rgbReader d.tenBit f.width f.rgb) = some blocks ∧
      (f.body p).length = stripLength d.geometry.depth blocks := by
  have hbody := f.encodeStrip_eq p
  obtain ⟨blocks, hblocks, hstrip⟩ := Option.bind_eq_some_iff.1 hbody
  refine ⟨blocks, hblocks, ?_⟩
  rw [← Option.some_inj.1 hstrip, length_colourStrip_eq]

theorem exists_of_mapM {α β : Type} {f : α → Option β} :
    ∀ {l : List α} {bs : List β}, l.mapM f = some bs → ∀ a ∈ l, ∃ b, f a = some b
  | [], _, _, a, ha => absurd ha List.not_mem_nil
  | a' :: l, bs, h, a, ha => by
    rw [List.mapM_cons] at h
    obtain ⟨b, hb, h⟩ := Option.bind_eq_some_iff.1 h
    obtain ⟨bs', hbs', -⟩ := Option.bind_eq_some_iff.1 h
    rcases List.mem_cons.1 ha with rfl | hmem
    · exact ⟨b, hb⟩
    · exact exists_of_mapM hbs' a hmem

theorem tabulate_apply {α : Type} {n : ℕ} {f : Fin n → Option α} {g : Fin n → α}
    (h : tabulate f = some g) (i : Fin n) : f i = some (g i) := by
  obtain ⟨v, hv, hg⟩ := Option.bind_eq_some_iff.1 h
  obtain rfl := Option.some_inj.1 hg
  exact ofFnM_eq_some hv i

/-- What a block of a strip is made of. -/
theorem blockSample_eq (f : Surface d) (p : ℕ × ℕ) (k : ℕ) {r c : Fin 8} {v : ℤ × ℤ × ℤ}
    (h : blockSample d.geometry p.1 p.2 (rgbReader d.tenBit f.width f.rgb) k r c = some v) :
    v = (64 * samples f p k .y r c, 64 * samples f p k .cb r c, 64 * samples f p k .cr r c) := by
  have hwide : 3 ≤ d.geometry.stripWShift := by
    rcases d.geometry.layout with ⟨h, -⟩ | ⟨h, -⟩ <;> omega
  have hacross : d.geometry.stripW / 8 = 2 ^ (d.geometry.stripWShift - 3) :=
    (Nat.pow_div hwide Nat.two_pos :)
  have hquarter (x : ℤ) : x >>> (2 : ℕ) = x / 4 := Int.shiftRight_eq_div_pow x 2
  have hv := colour_yields _ _ _ v h
  rw [hv, colourOf, ← mul_add, hquarter]
  unfold samples
  rw [hacross]
  dsimp only [Plane.sample]
  rw [Nat.one_shiftLeft, Nat.and_two_pow_sub_one_eq_mod, Nat.shiftRight_eq_div_pow]

/-- **The blocks of a strip are what its samples are quantised to.** -/
theorem colourStripBlocks_eq (f : Surface d) (p : ℕ × ℕ) : ∃ b : ℕ → ColourBlock,
    colourStripBlocks d.geometry p.1 p.2 (rgbReader d.tenBit f.width f.rgb) =
        some ((List.range 16).map b) ∧
      ∀ k < 16, Written (samples f p k) (b k) := by
  obtain ⟨blocks, hblocks, -⟩ := length_body f p
  have hall := exists_of_mapM hblocks
  obtain ⟨b₀, -⟩ := hall 0 (by decide)
  have : Nonempty ColourBlock := ⟨b₀⟩
  choose! b hb using hall
  refine ⟨b, mapM_eq_some _ hb, fun k hk => ?_⟩
  obtain ⟨s, hs, hblock⟩ := Option.bind_eq_some_iff.1 (hb k (List.mem_range.2 hk))
  have hsample (r c : Fin 8) := blockSample_eq f p k (tabulate_apply (tabulate_apply hs r) c)
  refine written_colourBlock ?_
  simpa only [hsample] using hblock

theorem length_body_eq (f : Surface d) (p : ℕ × ℕ) :
    (f.body p).length = 18 + regionBytes (headBits d.geometry.depth (samples f p)) +
      regionBytes (halfBits d.geometry.depth (samples f p) 0) +
      regionBytes (halfBits d.geometry.depth (samples f p) 8) := by
  obtain ⟨blocks, hblocks, hlen⟩ := length_body f p
  obtain ⟨b, hb, hwritten⟩ := colourStripBlocks_eq f p
  obtain rfl := Option.some_inj.1 (hblocks.symm.trans hb)
  rw [hlen, stripLength_eq hwritten]

theorem fits_iff (f : Surface d) : Fits f ↔ ∀ p ∈ f.coords, (f.body p).length ≤ 4062 := by
  refine forall₂_congr fun p _ => ?_
  rw [length_body_eq f p]
  omega

/-- Short strips are framed, in whatever order and from whichever cache they come. -/
theorem framed_of_short (hshort : ∀ f ∈ S, ∀ p ∈ f.coords, (f.body p).length ≤ 4062) :
    Framed S := by
  refine ⟨fun f hf p hp => ⟨f.body p, f.encodeStrip_eq p, hshort f hf p hp⟩, ?_, ?_⟩
  · intro f hf ps head hps herror
    rcases frameRecordsWithBoundary_spec d.geometry (ps.map f.body) head none with
      ⟨⟨b, hb, hlong⟩, -⟩ | ⟨_, -, hok, -⟩
    · obtain ⟨p, hp, rfl⟩ := List.mem_map.1 hb
      exact absurd (hshort f hf p (hps p hp)) (by omega)
    · rw [frameRecords, hok] at herror
      cases herror
  · intro calls h hS hrun plan head s' e henc
    have hk := kept_run calls (kept_new d S) hS hrun
    rcases hk.encode_cases henc with ⟨-, hr | ⟨hfault, -⟩⟩ | ⟨f, hf, -, hready, heq⟩
    · cases hr
    · exact hfault rfl
    · obtain ⟨s'', r, heq', -, hcases⟩ := encode_spec_ready hf hready plan head none
      obtain ⟨-, rfl⟩ := Prod.mk.inj (heq.symm.trans heq')
      rcases hcases with ⟨-, hr⟩ | ⟨hfault, -⟩ | ⟨-, bs, hserves, ⟨_, -, hr⟩ | ⟨_, herror, -⟩⟩
      · cases hr
      · exact hfault rfl
      · cases hr
      · obtain ⟨records, hok⟩ := frameRecords_of_short hshort hserves head
        rw [hok] at herror
        cases herror

theorem short_of_framed (h : Framed S) : ∀ f ∈ S, ∀ p ∈ f.coords, (f.body p).length ≤ 4062 := by
  intro f hf p hp
  obtain ⟨b, hb, hlen⟩ := h.strips f hf p hp
  obtain rfl := Option.some_inj.1 (hb.symm.trans (f.encodeStrip_eq p))
  exact hlen

/-- **Surfaces can be framed exactly when the contrasts of their strips leave room for one
another.** -/
theorem framed_iff (d : Dock) (S : List (Surface d)) : Framed S ↔ ∀ f ∈ S, Fits f := by
  constructor
  · intro h f hf
    exact (fits_iff f).2 (short_of_framed h f hf)
  · intro h
    exact framed_of_short fun f hf => (fits_iff f).1 (h f hf)

/-- **Faint pictures can be framed**: those in which no contrast amounts to sixteen steps. -/
theorem framed_of_faint (h : ∀ f ∈ S, ∀ p ∈ f.coords, ∀ k < 16, ∀ (plane : Plane) i, i ≠ 0 →
    ¬plane.ReachesAt (samples f p k plane) i 16) : Framed S := by
  refine framed_of_short fun f hf => (fits_iff f).1 fun p hp => ?_
  have hhead := headBits_le d.geometry.depth (samples f p)
  have hhalf (first : ℕ) (hfirst : first + 8 ≤ 16) :
      halfBits d.geometry.depth (samples f p) first ≤ 1512 * (2 * 4 + 1) :=
    halfBits_le d.geometry.depth first fun k _ hk => h f hf p hp k (by omega)
  have h0 := hhalf 0 (by omega)
  have h8 := hhalf 8 (by omega)
  unfold regionBytes roundEven
  omega

/-! ### A picture that cannot be framed -/

def ridge : Dock := ⟨profileRidge, false, false⟩

theorem engaged_ridge : Engaged ridge := ⟨⟨.inr (.inl rfl), nofun⟩, rfl⟩

/-- The pixels of a block in which a channel is full, a bit for each. -/
def noiseMask : ℕ → ℕ
  | 0 => 0xa2ae95dce1ea1dd4
  | 1 => 0x9036fae3ed8cc858
  | _ => 0x6de187d8d3dbed24

/-- A channel of a pixel of the block. -/
def noiseLevel (channel k : ℕ) : UInt8 := if (noiseMask channel).testBit k then 255 else 0

/-- One strip of sixteen equal blocks, in full and empty channels only. -/
def noise : Surface ridge where
  width := 64
  height := 16
  rgb := (List.range 3072).map fun j => noiseLevel (j % 3) (8 * (j / 3 / 64 % 8) + j / 3 % 8)
  width_dvd := by decide
  height_dvd := by decide
  size := by simp

theorem noise_pixel {x y : ℕ} (hx : x < 64) (hy : y < 16) {channel : ℕ} (hc : channel < 3) :
    noise.rgb.getD ((y * 64 + x) * 3 + channel) 0 = noiseLevel channel (8 * (y % 8) + x % 8) := by
  have hmod : ((y * 64 + x) * 3 + channel) % 3 = channel := by omega
  have hdiv : ((y * 64 + x) * 3 + channel) / 3 = y * 64 + x := by omega
  have hrow : (y * 64 + x) / 64 = y := by omega
  have hcol : (y * 64 + x) % 8 = x % 8 := by omega
  have hlt : (y * 64 + x) * 3 + channel < 3072 := by omega
  simp only [noise]
  rw [List.getD_eq_getElem?_getD, List.getElem?_map, List.getElem?_range hlt]
  simp only [Option.map_some, Option.getD_some, hmod, hdiv, hrow, hcol]

/-- The samples of the block. -/
def noiseSample (r c : Fin 8) : Option (ℤ × ℤ × ℤ) :=
  colour (noiseLevel 0 (8 * r.val + c.val)).toNat (noiseLevel 1 (8 * r.val + c.val)).toNat
    (noiseLevel 2 (8 * r.val + c.val)).toNat

/-- The quantised block. -/
def noiseBlock : Option ColourBlock := do
  let s ← tabulate fun r => tabulate fun c => noiseSample r c
  colourBlock (fun r c => (s r c).2.2) (fun r c => (s r c).2.1) fun r c => (s r c).1

theorem blockSample_noise {k : ℕ} (hk : k < 16) (r c : Fin 8) :
    blockSample ridge.geometry 0 0 (rgbReader false 64 noise.rgb) k r c = noiseSample r c := by
  have hand : k &&& (1 <<< 3 - 1) = k % 8 := Nat.and_two_pow_sub_one_eq_mod k 3
  have hshift : k >>> 3 = k / 8 := Nat.shiftRight_eq_div_pow k 3
  have hpixel : ∀ channel < 3,
      noise.rgb.getD (((k / 8 * 8 + r.val) * 64 + (k % 8 * 8 + c.val)) * 3 + channel) 0 =
        noiseLevel channel (8 * r.val + c.val) := by
    intro channel hc
    rw [noise_pixel (by omega) (by omega) hc]
    congr 1
    omega
  have h0 := hpixel 0 (by omega)
  rw [Nat.add_zero] at h0
  have hw : ridge.geometry.stripWShift - 3 = 3 := rfl
  unfold blockSample noiseSample rgbReader
  dsimp only
  rw [hw, hand, hshift, Nat.zero_add, Nat.zero_add, h0, hpixel 1 (by omega), hpixel 2 (by omega)]
  simp

theorem acLength_noiseBlock : noiseBlock.map (acLength .eight) = some 2113 := by
  decide +kernel

/-- The strip takes 4228 bytes for its AC coefficients alone. -/
theorem length_noise : 4062 < (noise.body (0, 0)).length := by
  obtain ⟨b, hb, hac⟩ := Option.map_eq_some_iff.1 acLength_noiseBlock
  obtain ⟨blocks, hblocks, hlen⟩ := length_body noise (0, 0)
  have hall : colourStripBlocks ridge.geometry 0 0 (rgbReader false 64 noise.rgb) =
      some (List.replicate 16 b) := by
    have hconst : (List.range 16).map (fun _ => b) = List.replicate 16 b := by
      rw [List.map_const', List.length_range]
    rw [← hconst]
    refine mapM_eq_some _ fun k hk => ?_
    have hk' := List.mem_range.1 hk
    simp only [blockSample_noise hk']
    exact hb
  obtain rfl := Option.some_inj.1 (hblocks.symm.trans hall)
  have hdepth : ridge.geometry.depth = .eight := rfl
  have hrow : rowLength .eight (List.replicate 8 b) = 16904 := by
    simp [rowLength, hac]
  have htake : (List.replicate 16 b).take 8 = List.replicate 8 b := rfl
  have hdrop : (List.replicate 16 b).drop 8 = List.replicate 8 b := rfl
  have hregion : regionBytes 16904 = 2114 := by decide
  rw [hlen, hdepth, stripLength, htake, hdrop, hrow, hregion]
  omega

/-- **A picture that cannot be framed**: of full and empty channels, at eight bits on a dock that is
engaged at eight bits. -/
theorem noise_not_framed : Engaged ridge ∧ ¬Framed [noise] := by
  refine ⟨engaged_ridge, fun h => ?_⟩
  have hmem : (0, 0) ∈ noise.coords := by
    show (0, 0) ∈ allStripCoords ridge.geometry 64 16
    decide
  have hshort := short_of_framed h noise List.mem_cons_self (0, 0) hmem
  have hlong := length_noise
  omega

end Vino.Capacity
