import Vino.Damage
import Vino.Stream

/-!
# Building Frames from Strips

The builders of a frame: of every strip of a surface, of the strips a damage set selects, and of
black.  They differ in which strips they encode and in the producer order they ask the framing for.

* `damage_selection`: the selected strips are those of every macro-tile a clip overlaps, in raster
  order, and the frame of a clip over the whole surface is the full frame.
-/

namespace Vino.FrameBuilders

open Vino.Haar.Transform Vino.Haar.Strip Vino.Haar.Records Vino.Scanout Vino.Damage Vino.Stream

/-! ### The builders -/

section Builders

variable (g : Geometry) (width height : ℕ) (connector : UInt8)

/-- The surface is not made of whole strips. -/
def misaligned : Bool := width % g.stripW ≠ 0 || height % g.stripH ≠ 0

/-- A full frame; the producer order is that of a surface of 3600 strips only. -/
def colourFrameEp08Variant (navarroOrdinary : Option Bool) (px : PixelSource) :
    Option (Except Errno (List (List UInt8))) :=
  if misaligned g width height then some (.error .EINVAL)
  else do
    let strips ← (allStripCoords g width height).mapM fun p => colourStripAt g p.1 p.2 px
    return frameRecordsWithBoundary g strips connector
      (navarroOrdinary.filter fun _ => strips.length = 3600)

def colourFrameEp08 (px : PixelSource) : Option (Except Errno (List (List UInt8))) :=
  colourFrameEp08Variant g width height connector none px

/-- A full frame in the ordinary producer order. -/
def colourFrameEp08NavarroOrdinary (px : PixelSource) : Option (Except Errno (List (List UInt8))) :=
  colourFrameEp08Variant g width height connector (some true) px

/-- The frame of the strips the clips select. -/
def colourFrameEp08Damage (clips : List Clip) (px : PixelSource) :
    Option (Except Errno (List (List UInt8))) :=
  if misaligned g width height then some (.error .EINVAL)
  else do
    let strips ← (damageStripCoords g width height clips).mapM fun p => colourStripAt g p.1 p.2 px
    return frameRecords g strips connector

end Builders

/-! ### Raster order -/

/-- The order of strips on a surface: by band, then from left to right. -/
def RasterLt (p q : ℕ × ℕ) : Prop := p.2 < q.2 ∨ p.2 = q.2 ∧ p.1 < q.1

variable {g : Geometry} {w h : ℕ}

theorem allStripCoords_raster (g : Geometry) (w h : ℕ) :
    (allStripCoords g w h).Pairwise RasterLt := by
  unfold allStripCoords
  refine List.pairwise_flatMap.2 ⟨fun ty _ => ?_, ?_⟩
  · refine List.pairwise_map.2 (List.pairwise_lt_range.imp fun hlt => .inr ⟨rfl, ?_⟩)
    exact Nat.mul_lt_mul_of_pos_right hlt (stripW_pos g)
  · refine List.pairwise_lt_range.imp fun hlt p hp q hq => .inl ?_
    obtain ⟨tx, -, rfl⟩ := List.mem_map.1 hp
    obtain ⟨tx', -, rfl⟩ := List.mem_map.1 hq
    exact Nat.mul_lt_mul_of_pos_right hlt (stripH_pos g)

theorem damageStripCoords_raster (g : Geometry) (w h : ℕ) (clips : List Clip) :
    (damageStripCoords g w h clips).Pairwise RasterLt :=
  (allStripCoords_raster g w h).filter _

theorem nodup_of_raster {l : List (ℕ × ℕ)} (hl : l.Pairwise RasterLt) : l.Nodup := by
  refine hl.imp fun hlt heq => ?_
  subst heq
  rcases hlt with hlt | ⟨-, hlt⟩
  · exact lt_irrefl _ hlt
  · exact lt_irrefl _ hlt

/-! ### Tiles and clips -/

/-- The macro-tile of a strip, as a rectangle. -/
def tileOf (g : Geometry) (p : ℕ × ℕ) : Clip :=
  (p.1 / g.macroW * g.macroW, p.2 / g.macroH * g.macroH,
    p.1 / g.macroW * g.macroW + g.macroW, p.2 / g.macroH * g.macroH + g.macroH)

/-- Two half-open rectangles overlap. -/
def Overlaps (a b : Clip) : Prop :=
  a.1 < b.2.2.1 ∧ b.1 < a.2.2.1 ∧ a.2.1 < b.2.2.2 ∧ b.2.1 < a.2.2.2

/-- The pixel lies in the rectangle. -/
def Inside (a : Clip) (x y : ℕ) : Prop := a.1 ≤ x ∧ x < a.2.2.1 ∧ a.2.1 ≤ y ∧ y < a.2.2.2

/-- Rectangles that are not empty overlap where they share a pixel. -/
theorem overlaps_iff {a b : Clip} (ha : a.1 < a.2.2.1 ∧ a.2.1 < a.2.2.2)
    (hb : b.1 < b.2.2.1 ∧ b.2.1 < b.2.2.2) :
    Overlaps a b ↔ ∃ x y, Inside a x y ∧ Inside b x y := by
  unfold Overlaps Inside
  constructor
  · rintro ⟨h1, h2, h3, h4⟩
    exact ⟨max a.1 b.1, max a.2.1 b.2.1, by omega, by omega⟩
  · rintro ⟨x, y, h1, h2⟩
    omega

theorem hitsMacro_iff {p : ℕ × ℕ} {clip : Clip} :
    hitsMacro g p.1 p.2 clip = true ↔ Overlaps (tileOf g p) clip := by
  simp only [hitsMacro, Overlaps, tileOf, Bool.and_eq_true, decide_eq_true_eq, and_assoc]

theorem macroW_pos (g : Geometry) : 0 < g.macroW := Nat.mul_pos (by omega) (stripW_pos g)

theorem macroH_pos (g : Geometry) : 0 < g.macroH := Nat.mul_pos (by omega) (stripH_pos g)

theorem tileOf_nonempty (g : Geometry) (p : ℕ × ℕ) :
    (tileOf g p).1 < (tileOf g p).2.2.1 ∧ (tileOf g p).2.1 < (tileOf g p).2.2.2 :=
  ⟨Nat.lt_add_of_pos_right (macroW_pos g), Nat.lt_add_of_pos_right (macroH_pos g)⟩

/-- A strip lies in its macro-tile. -/
theorem tile_bounds (g : Geometry) (tx ty : ℕ) :
    tx * g.stripW / g.macroW * g.macroW ≤ tx * g.stripW ∧
      tx * g.stripW + g.stripW ≤ tx * g.stripW / g.macroW * g.macroW + g.macroW ∧
      ty * g.stripH / g.macroH * g.macroH ≤ ty * g.stripH ∧
      ty * g.stripH + g.stripH ≤ ty * g.stripH / g.macroH * g.macroH + g.macroH := by
  have hx : tx * g.stripW / g.macroW = tx / 4 := by
    rw [Geometry.macroW, Nat.mul_comm tx, Nat.mul_comm 4, Nat.mul_div_mul_left _ _ (stripW_pos g)]
  have hy : ty * g.stripH / g.macroH = ty / 4 := by
    rw [Geometry.macroH, Nat.mul_comm ty, Nat.mul_comm 4, Nat.mul_div_mul_left _ _ (stripH_pos g)]
  have hfour : ∀ t s : ℕ, t / 4 * (4 * s) ≤ t * s ∧ t * s + s ≤ t / 4 * (4 * s) + 4 * s := by
    intro t s
    have hle : t / 4 * 4 * s ≤ t * s := Nat.mul_le_mul_right s (by omega)
    have hge : (t + 1) * s ≤ (t / 4 * 4 + 4) * s := Nat.mul_le_mul_right s (by omega)
    constructor
    · calc t / 4 * (4 * s) = t / 4 * 4 * s := by ring
        _ ≤ t * s := hle
    · calc t * s + s = (t + 1) * s := by ring
        _ ≤ (t / 4 * 4 + 4) * s := hge
        _ = t / 4 * (4 * s) + 4 * s := by ring
  rw [hx, hy]
  exact ⟨(hfour tx g.stripW).1, (hfour tx g.stripW).2, (hfour ty g.stripH).1,
    (hfour ty g.stripH).2⟩

/-! ### What is selected -/

/-- A strip corner of the surface. -/
def Corner (g : Geometry) (w h : ℕ) (p : ℕ × ℕ) : Prop :=
  g.stripW ∣ p.1 ∧ g.stripH ∣ p.2 ∧ p.1 < w ∧ p.2 < h

theorem mem_all_iff (hw : g.stripW ∣ w) (hh : g.stripH ∣ h) {p : ℕ × ℕ} :
    p ∈ allStripCoords g w h ↔ Corner g w h p := by
  rw [mem_allStripCoords hw hh]
  obtain ⟨m, rfl⟩ := hw
  obtain ⟨n, rfl⟩ := hh
  rw [Nat.mul_div_cancel_left m (stripW_pos g), Nat.mul_div_cancel_left n (stripH_pos g)]
  constructor
  · rintro ⟨tx, htx, ty, hty, rfl⟩
    have hx : tx * g.stripW < g.stripW * m := by
      rw [Nat.mul_comm]
      exact Nat.mul_lt_mul_of_pos_left htx (stripW_pos g)
    have hy : ty * g.stripH < g.stripH * n := by
      rw [Nat.mul_comm]
      exact Nat.mul_lt_mul_of_pos_left hty (stripH_pos g)
    exact ⟨⟨tx, Nat.mul_comm _ _⟩, ⟨ty, Nat.mul_comm _ _⟩, hx, hy⟩
  · rintro ⟨⟨tx, hx⟩, ⟨ty, hy⟩, hlt, hlt'⟩
    rw [hx] at hlt
    rw [hy] at hlt'
    refine ⟨tx, Nat.lt_of_mul_lt_mul_left hlt, ty, Nat.lt_of_mul_lt_mul_left hlt', ?_⟩
    rw [Nat.mul_comm tx, Nat.mul_comm ty, ← hx, ← hy]

theorem mem_damage_iff (hw : g.stripW ∣ w) (hh : g.stripH ∣ h) {clips : List Clip} {p : ℕ × ℕ} :
    p ∈ damageStripCoords g w h clips ↔
      Corner g w h p ∧ ∃ clip ∈ clips, Overlaps (tileOf g p) clip := by
  rw [damageStripCoords, List.mem_filter, mem_all_iff hw hh, List.any_eq_true]
  simp only [hitsMacro_iff]

/-- The strip a pixel lies in. -/
def stripOf (g : Geometry) (x y : ℕ) : ℕ × ℕ := (x / g.stripW * g.stripW, y / g.stripH * g.stripH)

/-- Every pixel of a clip is in a selected strip. -/
theorem pixel_selected (hw : g.stripW ∣ w) (hh : g.stripH ∣ h) {clips : List Clip} {clip : Clip}
    (hclip : clip ∈ clips) {x y : ℕ} (hin : Inside clip x y) (hx : x < w) (hy : y < h) :
    stripOf g x y ∈ damageStripCoords g w h clips := by
  have hxle : x / g.stripW * g.stripW ≤ x := Nat.div_mul_le_self x g.stripW
  have hyle : y / g.stripH * g.stripH ≤ y := Nat.div_mul_le_self y g.stripH
  refine (mem_damage_iff hw hh).2 ⟨⟨⟨_, Nat.mul_comm _ _⟩, ⟨_, Nat.mul_comm _ _⟩, ?_, ?_⟩, clip,
    hclip, ?_⟩
  · exact hxle.trans_lt hx
  · exact hyle.trans_lt hy
  · have hxlt : x < x / g.stripW * g.stripW + g.stripW := by
      have := Nat.lt_div_mul_add (stripW_pos g) (a := x)
      omega
    have hylt : y < y / g.stripH * g.stripH + g.stripH := by
      have := Nat.lt_div_mul_add (stripH_pos g) (a := y)
      omega
    obtain ⟨h1, h2, h3, h4⟩ := tile_bounds g (x / g.stripW) (y / g.stripH)
    obtain ⟨k1, k2, k3, k4⟩ := hin
    simp only [Overlaps, tileOf, stripOf]
    omega

theorem damage_mono {clips clips' : List Clip} (hsub : clips ⊆ clips') :
    (damageStripCoords g w h clips).Sublist (damageStripCoords g w h clips') := by
  refine List.monotone_filter_right _ fun p hp => ?_
  obtain ⟨clip, hclip, hhit⟩ := List.any_eq_true.1 hp
  exact List.any_eq_true.2 ⟨clip, hsub hclip, hhit⟩

/-- The rectangle of a strip. -/
def stripRect (g : Geometry) (p : ℕ × ℕ) : Clip := (p.1, p.2, p.1 + g.stripW, p.2 + g.stripH)

/-- A tile that overlaps a strip is the tile of the strip. -/
theorem tile_eq_of_overlaps {p q : ℕ × ℕ} (hq : g.stripW ∣ q.1 ∧ g.stripH ∣ q.2)
    (ho : Overlaps (tileOf g p) (stripRect g q)) : tileOf g p = tileOf g q := by
  obtain ⟨⟨tx, hx⟩, ty, hy⟩ := hq
  rw [Nat.mul_comm] at hx hy
  obtain ⟨h1, h2, h3, h4⟩ := tile_bounds g tx ty
  simp only [Overlaps, tileOf, stripRect] at ho ⊢
  rw [← hx] at h1 h2
  rw [← hy] at h3 h4
  have halign : ∀ a b m : ℕ, a * m < b * m + m → b * m < a * m + m → a = b := by
    intro a b m hab hba
    have h1 : a < b + 1 := by
      by_contra hle
      have := Nat.mul_le_mul_right m (not_lt.1 hle)
      rw [Nat.add_mul, Nat.one_mul] at this
      omega
    have h2 : b < a + 1 := by
      by_contra hle
      have := Nat.mul_le_mul_right m (not_lt.1 hle)
      rw [Nat.add_mul, Nat.one_mul] at this
      omega
    omega
  have hx' := halign (p.1 / g.macroW) (q.1 / g.macroW) g.macroW (by omega) (by omega)
  have hy' := halign (p.2 / g.macroH) (q.2 / g.macroH) g.macroH (by omega) (by omega)
  rw [hx', hy']

/-- Selecting by what is selected selects the same. -/
theorem damage_idem (hw : g.stripW ∣ w) (hh : g.stripH ∣ h) (clips : List Clip) :
    damageStripCoords g w h ((damageStripCoords g w h clips).map (stripRect g)) =
      damageStripCoords g w h clips := by
  refine List.filter_congr fun p hp => ?_
  rw [Bool.eq_iff_iff]
  simp only [List.any_eq_true, hitsMacro_iff, List.mem_map]
  have hcorner := (mem_all_iff hw hh).1 hp
  constructor
  · rintro ⟨rect, ⟨q, hq, rfl⟩, ho⟩
    obtain ⟨hqc, clip, hclip, hover⟩ := (mem_damage_iff hw hh).1 hq
    rw [← tile_eq_of_overlaps ⟨hqc.1, hqc.2.1⟩ ho] at hover
    exact ⟨clip, hclip, hover⟩
  · rintro ⟨clip, hclip, ho⟩
    refine ⟨stripRect g p, ⟨p, (mem_damage_iff hw hh).2 ⟨hcorner, clip, hclip, ho⟩, rfl⟩, ?_⟩
    have hdiv := Nat.div_mul_le_self p.1 g.macroW
    have hdiv' := Nat.div_mul_le_self p.2 g.macroH
    have hlt := Nat.lt_div_mul_add (macroW_pos g) (a := p.1)
    have hlt' := Nat.lt_div_mul_add (macroH_pos g) (a := p.2)
    have hsw := stripW_pos g
    have hsh := stripH_pos g
    simp only [Overlaps, tileOf, stripRect]
    omega

/-- A clip over the whole surface selects every strip. -/
theorem damage_full (hw : g.stripW ∣ w) (hh : g.stripH ∣ h) {clips : List Clip} {clip : Clip}
    (hclip : clip ∈ clips) (hfull : clip.1 = 0 ∧ clip.2.1 = 0 ∧ w ≤ clip.2.2.1 ∧ h ≤ clip.2.2.2) :
    damageStripCoords g w h clips = allStripCoords g w h := by
  refine List.filter_eq_self.2 fun p hp => ?_
  obtain ⟨-, -, hpx, hpy⟩ := (mem_all_iff hw hh).1 hp
  refine List.any_eq_true.2 ⟨clip, hclip, hitsMacro_iff.2 ?_⟩
  have hdiv := Nat.div_mul_le_self p.1 g.macroW
  have hdiv' := Nat.div_mul_le_self p.2 g.macroH
  have hmw := macroW_pos g
  have hmh := macroH_pos g
  simp only [Overlaps, tileOf]
  omega

/-- **Damage selection.**  On a surface of whole strips the selected strips stand in raster order,
without repetition, and are those of the macro-tiles that a clip overlaps; every strip with a pixel
of a clip is among them; more clips select more, and selecting by what was selected changes nothing;
and the frame of a clip over the whole surface is the full frame. -/
theorem damage_selection (g : Geometry) (w h : ℕ) (hw : g.stripW ∣ w) (hh : g.stripH ∣ h) :
    (∀ clips, (damageStripCoords g w h clips).Pairwise RasterLt ∧
      (damageStripCoords g w h clips).Nodup) ∧
    (∀ clips p, p ∈ damageStripCoords g w h clips ↔
      Corner g w h p ∧ ∃ clip ∈ clips, Overlaps (tileOf g p) clip) ∧
    (∀ p (clip : Clip), clip.1 < clip.2.2.1 → clip.2.1 < clip.2.2.2 →
      (Overlaps (tileOf g p) clip ↔ ∃ x y, Inside (tileOf g p) x y ∧ Inside clip x y)) ∧
    (∀ clips, ∀ clip ∈ clips, ∀ x y, Inside clip x y → x < w → y < h →
      stripOf g x y ∈ damageStripCoords g w h clips) ∧
    (∀ clips clips', clips ⊆ clips' →
      (damageStripCoords g w h clips).Sublist (damageStripCoords g w h clips')) ∧
    (∀ clips, damageStripCoords g w h (clips ++ clips) = damageStripCoords g w h clips ∧
      damageStripCoords g w h ((damageStripCoords g w h clips).map (stripRect g)) =
        damageStripCoords g w h clips) ∧
    ∀ clips, ∀ clip ∈ clips, clip.1 = 0 ∧ clip.2.1 = 0 ∧ w ≤ clip.2.2.1 ∧ h ≤ clip.2.2.2 →
      ∀ connector px, colourFrameEp08Damage g w h connector clips px =
        colourFrameEp08 g w h connector px := by
  refine ⟨fun clips => ?_, fun clips p => mem_damage_iff hw hh,
    fun p clip hx hy => overlaps_iff (tileOf_nonempty g p) ⟨hx, hy⟩,
    fun clips clip hclip x y hin hx hy => pixel_selected hw hh hclip hin hx hy,
    fun clips clips' hsub => damage_mono hsub, fun clips => ⟨?_, damage_idem hw hh clips⟩,
    fun clips clip hclip hfull connector px => ?_⟩
  · have hraster := damageStripCoords_raster g w h clips
    exact ⟨hraster, nodup_of_raster hraster⟩
  · unfold damageStripCoords
    simp only [List.any_append, Bool.or_self]
  · unfold colourFrameEp08Damage colourFrameEp08 colourFrameEp08Variant
    rw [damage_full hw hh hclip hfull]
    rfl

/-- A clip of one pixel selects its macro-tile and not the next. -/
theorem one_tile_selected :
    let g := Profile.profileRidge.geometry
    (0, 0) ∈ damageStripCoords g 512 128 [(200, 40, 201, 41)] ∧
      (256, 0) ∉ damageStripCoords g 512 128 [(200, 40, 201, 41)] ∧
      ∀ connector px, colourFrameEp08Damage g 512 128 connector [(0, 0, 512, 128)] px =
        colourFrameEp08 g 512 128 connector px := by
  obtain ⟨-, hmem, -, -, -, -, hfull⟩ :=
    damage_selection Profile.profileRidge.geometry 512 128 (by decide) (by decide)
  refine ⟨(hmem _ _).2 ⟨?_, _, List.mem_singleton_self _, ?_⟩, fun hsel => ?_,
    hfull _ _ (List.mem_singleton_self _) ⟨rfl, rfl, le_rfl, le_rfl⟩⟩
  · exact ⟨by decide, by decide, by decide, by decide⟩
  · exact ⟨by decide, by decide, by decide, by decide⟩
  · obtain ⟨-, clip, hclip, hover⟩ := (hmem _ _).1 hsel
    rw [List.mem_singleton.1 hclip] at hover
    exact absurd hover.1 (by decide)

end Vino.FrameBuilders
