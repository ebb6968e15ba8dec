import Vino.Kms.Selection
import Vino.OwedRects

/-!
# The Rectangles of a Delta Are Exact

The rectangles of `changed_strip_rects` are built on the grid of macro-tiles and clamped to the
surface, which need not be a whole number of them.  On that grid the touched macro-tiles are the
tiles that owe, so the rectangles are the clamped ones of unit tiles; the selection of strips rounds
a clamped rectangle outwards to the macro-tiles it came from.

* `rowRects_eq`: the rectangles are the clamped stacks of runs of touched macro-tiles,
* `hitsMacro_clamp`: a strip is selected by the rectangle that holds its macro-tile,
* `changed_strip_rects_exact`: the rectangles are disjoint, inside the surface, and select exactly
  the strips of the touched macro-tiles, or all of them when there are too many rectangles.
-/

namespace Vino.Kms.DamageRects

open Vino.Haar.Strip Vino.Scanout Vino.Damage Vino.OwedRects Vino.Kms.Selection

/-! ### The touched macro-tiles -/

section Bitmap

variable (g : Geometry) (pw ph : ℕ) (old new : List UInt64)

/-- The grid of macro-tiles as a bitmap of the touched ones. -/
def bitmap : List ℕ :=
  (List.range (macrosY g ph)).flatMap fun my => (List.range (macrosX g pw)).map fun mx =>
    if touched g pw ph old new my mx then 1 else 0

variable {g pw ph old new}

theorem owes_bitmap {my mx : ℕ} (hmy : my < macrosY g ph) (hmx : mx < macrosX g pw) :
    owes (bitmap g pw ph old new) (macrosX g pw) my mx = touched g pw ph old new my mx := by
  rw [owes, List.getD_eq_getElem?_getD, bitmap, getElem?_grid _ _ hmy hmx, Option.getD_some]
  cases touched g pw ph old new my mx <;> rfl

theorem nextRun_congr {owes owes' : ℕ → Bool} {n : ℕ} (h : ∀ x < n, owes x = owes' x) (t : ℕ) :
    nextRun owes n t = nextRun owes' n t := by
  have hfind : ∀ {p q : ℕ → Bool} {s : ℕ}, (∀ x < n, p x = q x) →
      (List.range' s (n - s)).find? p = (List.range' s (n - s)).find? q := by
    intro p q s hpq
    refine List.find?_congr fun x hx => hpq x ?_
    have hin := List.mem_range'_1.1 hx
    omega
  unfold nextRun
  rw [hfind h]
  cases (List.range' t (n - t)).find? owes' with
  | none => rfl
  | some start =>
    have hnot : (List.range' start (n - start)).find? (fun x => !owes x) =
        (List.range' start (n - start)).find? fun x => !owes' x :=
      hfind fun x hx => by rw [h x hx]
    dsimp only
    rw [hnot]

theorem bandRuns_congr {owes owes' : ℕ → Bool} {n : ℕ} (h : ∀ x < n, owes x = owes' x) :
    ∀ fuel t, bandRuns owes n fuel t = bandRuns owes' n fuel t
  | 0, _ => rfl
  | fuel + 1, t => by
      unfold bandRuns
      rw [nextRun_congr h t]
      cases nextRun owes' n t with
      | none => rfl
      | some r =>
        dsimp only
        rw [bandRuns_congr h fuel r.2]

theorem bands_bitmap {my : ℕ} (hmy : my < macrosY g ph) :
    bandRuns (touched g pw ph old new my) (macrosX g pw) (macrosX g pw + 1) 0 =
      bands (bitmap g pw ph old new) (macrosX g pw) my :=
  bandRuns_congr (fun _ hmx => (owes_bitmap hmy hmx).symm) _ _

end Bitmap

/-! ### Clamping -/

section Clamp

variable (g : Geometry) (pw ph : ℕ)

/-- A rectangle of macro-tiles, in pixels and clamped to the surface. -/
def clamp (r : Clip) : Clip :=
  (r.1 * g.macroW, r.2.1 * g.macroH, min (r.2.2.1 * g.macroW) pw, min (r.2.2.2 * g.macroH) ph)

/-- The rectangles end inside the grid. -/
def Bounded (n : ℕ) (rects : List Clip) : Prop := ∀ r ∈ rects, r.2.2.1 ≤ n

variable {g pw ph}

theorem macroW_pos (g : Geometry) : 0 < g.macroW := Nat.mul_pos (by omega) (stripW_pos g)

theorem macroH_pos (g : Geometry) : 0 < g.macroH := Nat.mul_pos (by omega) (stripH_pos g)

/-- Clamping tells the right edges of the grid apart. -/
theorem clamp_right {b b' : ℕ} (hb : b ≤ macrosX g pw) (hb' : b' ≤ macrosX g pw) :
    min (b * g.macroW) pw = min (b' * g.macroW) pw ↔ b = b' := by
  have hstrict : ∀ {c c' : ℕ}, c < c' → c' ≤ macrosX g pw →
      min (c * g.macroW) pw < min (c' * g.macroW) pw := by
    intro c c' hlt hle
    have hin : c * g.macroW < pw := macroX_lt (lt_of_lt_of_le hlt hle)
    have hmul := Nat.mul_lt_mul_of_pos_right hlt (macroW_pos g)
    omega
  constructor
  · intro heq
    rcases Nat.lt_trichotomy b b' with hlt | rfl | hlt
    · exact absurd heq (hstrict hlt hb').ne
    · rfl
    · exact absurd heq (hstrict hlt hb).ne'
  · rintro rfl
    rfl

/-- No clamped edge is taken for the top edge of a row. -/
theorem clamp_bottom {e my : ℕ} (hmy : my < macrosY g ph) :
    min (e * g.macroH) ph = my * g.macroH ↔ e = my := by
  have hin := macroY_lt hmy
  constructor
  · intro heq
    have hmul : e * g.macroH = my * g.macroH := by omega
    exact Nat.eq_of_mul_eq_mul_right (macroH_pos g) hmul
  · rintro rfl
    omega

theorem growRect_clamp {p : ℕ × ℕ} (hp : p.2 ≤ macrosX g pw) {my : ℕ} (hmy : my < macrosY g ph)
    (y : ℕ) : ∀ rects : List Clip, Bounded (macrosX g pw) rects →
      growRect (rects.map (clamp g pw ph)) (p.1 * g.macroW) (min (p.2 * g.macroW) pw)
          (my * g.macroH) (min (y * g.macroH) ph) =
        (growRect rects p.1 p.2 my y).map (List.map (clamp g pw ph))
  | [], _ => rfl
  | r :: rects, hrects => by
      have ih := growRect_clamp hp hmy y rects fun q hq => hrects q (List.mem_cons_of_mem r hq)
      have hmatch : (clamp g pw ph r).1 = p.1 * g.macroW ∧
          (clamp g pw ph r).2.2.1 = min (p.2 * g.macroW) pw ∧
          (clamp g pw ph r).2.2.2 = my * g.macroH ↔
          r.1 = p.1 ∧ r.2.2.1 = p.2 ∧ r.2.2.2 = my := by
        simp only [clamp, Nat.mul_right_cancel_iff (macroW_pos g),
          clamp_right (hrects r List.mem_cons_self) hp, clamp_bottom hmy]
      rw [List.map_cons, growRect, ih, growRect]
      cases growRect rects p.1 p.2 my y with
      | some rects' => rfl
      | none =>
          simp only [Option.map_none, if_congr hmatch rfl rfl]
          split_ifs <;> rfl

/-- **One run**, on the grid and clamped. -/
theorem addClip_clamp {p : ℕ × ℕ} (hp : p.2 ≤ macrosX g pw) {my : ℕ} (hmy : my < macrosY g ph)
    {rects : List Clip} (hrects : Bounded (macrosX g pw) rects) :
    addClip (rects.map (clamp g pw ph)) (macroClip g pw ph my p) =
      (addRect 1 1 my rects p).map (List.map (clamp g pw ph)) := by
  have hgrow := growRect_clamp hp hmy (my + 1) rects hrects
  rw [Nat.add_mul, Nat.one_mul] at hgrow
  simp only [addClip, macroClip, addRect, hgrow, Nat.mul_one, List.length_map]
  cases growRect rects p.1 p.2 my (my + 1) with
  | some rects' => rfl
  | none =>
      dsimp only [Option.map_none]
      split_ifs
      · rfl
      · simp only [Option.map_some, List.map_append, List.map_cons, List.map_nil, clamp,
          Nat.add_mul, Nat.one_mul]

theorem Bounded.addRect {n my : ℕ} {rects rects' : List Clip} {p : ℕ × ℕ} (hp : p.2 ≤ n)
    (h : Bounded n rects) (hadd : Scanout.addRect 1 1 my rects p = some rects') :
    Bounded n rects' := by
  rw [Scanout.addRect, Nat.mul_one, Nat.mul_one, Nat.mul_one] at hadd
  rcases growRect_spec rects p.1 p.2 my (my + 1) with
    ⟨hnone, -⟩ | ⟨before, r, behind, rfl, -, -, -, hsome⟩
  · simp only [hnone] at hadd
    split_ifs at hadd
    obtain rfl := Option.some_inj.1 hadd
    intro r hr
    rcases List.mem_append.1 hr with hr | hr
    · exact h r hr
    · rw [List.mem_singleton.1 hr]
      exact hp
  · simp only [hsome] at hadd
    obtain rfl := Option.some_inj.1 hadd
    intro q hq
    rcases List.mem_append.1 hq with hq | hq
    · exact h q (List.mem_append_left _ hq)
    · rcases List.mem_cons.1 hq with rfl | hq
      · exact h r (List.mem_append_right _ List.mem_cons_self)
      · exact h q (List.mem_append_right _ (List.mem_cons_of_mem r hq))

/-- A loop over clamped rectangles follows the loop over those of the grid. -/
theorem foldlM_clamp {α : Type} {f f' : List Clip → α → Option (List Clip)} {n : ℕ} :
    ∀ (l : List α) (rects : List Clip), Bounded n rects →
      (∀ a ∈ l, ∀ rects, Bounded n rects → f (rects.map (clamp g pw ph)) a =
          (f' rects a).map (List.map (clamp g pw ph)) ∧
        ∀ rects', f' rects a = some rects' → Bounded n rects') →
      l.foldlM f (rects.map (clamp g pw ph)) =
          (l.foldlM f' rects).map (List.map (clamp g pw ph)) ∧
        ∀ rects', l.foldlM f' rects = some rects' → Bounded n rects'
  | [], rects, hrects, _ => by
      refine ⟨rfl, fun rects' h => ?_⟩
      obtain rfl : rects = rects' := by simpa using h
      exact hrects
  | a :: l, rects, hrects, h => by
      obtain ⟨hstep, hbound⟩ := h a List.mem_cons_self rects hrects
      rw [List.foldlM_cons, List.foldlM_cons, hstep]
      cases hf : f' rects a with
      | none => exact ⟨rfl, fun _ h => nomatch h⟩
      | some mid =>
        exact foldlM_clamp l mid (hbound mid hf) fun b hb => h b (List.mem_cons_of_mem a hb)

variable {old new : List UInt64}

/-- **The rectangles** are the clamped ones of the touched macro-tiles. -/
theorem rowRects_eq :
    rowRects g pw ph old new (macrosY g ph) =
      (owedRects (bitmap g pw ph old new) (macrosX g pw) (macrosY g ph) 1 1).map
        (List.map (clamp g pw ph)) := by
  refine (foldlM_clamp (n := macrosX g pw) _ [] (by simp [Bounded]) ?_).1
  intro my hmy rects hrects
  have hlt := List.mem_range.1 hmy
  rw [bands_bitmap hlt]
  refine foldlM_clamp _ rects hrects fun p hp rects hrects => ?_
  have hle := (mem_bands.1 hp).2.1
  exact ⟨addClip_clamp hle hlt hrects, fun rects' => hrects.addRect hle⟩

end Clamp

/-! ### The selection -/

section Selection

variable {g : Geometry} {pw ph : ℕ} {old new : List UInt64}

theorem macro_column (g : Geometry) (tx : ℕ) : tx * g.stripW / g.macroW = tx / 4 := by
  rw [Geometry.macroW, Nat.mul_comm tx, Nat.mul_comm 4, Nat.mul_div_mul_left _ _ (stripW_pos g)]

theorem macro_row (g : Geometry) (ty : ℕ) : ty * g.stripH / g.macroH = ty / 4 := by
  rw [Geometry.macroH, Nat.mul_comm ty, Nat.mul_comm 4, Nat.mul_div_mul_left _ _ (stripH_pos g)]

theorem column_lt {tx : ℕ} (htx : tx < pw / g.stripW) : tx / 4 < macrosX g pw := by
  unfold macrosX macros
  rw [per_x]
  omega

theorem row_lt {ty : ℕ} (hty : ty < ph / g.stripH) : ty / 4 < macrosY g ph := by
  unfold macrosY macros
  rw [per_y]
  omega

/-- **Rounding outwards** undoes the clamping. -/
theorem hitsMacro_clamp {tx ty : ℕ} (htx : tx < pw / g.stripW) (hty : ty < ph / g.stripH)
    (u : Clip) : hitsMacro g (tx * g.stripW) (ty * g.stripH) (clamp g pw ph u) = true ↔
      OwedRects.Holds u (tx / 4) (ty / 4) := by
  have hx := macroX_lt (column_lt htx)
  have hy := macroY_lt (row_lt hty)
  have hleft : u.1 * g.macroW < tx / 4 * g.macroW + g.macroW ↔ u.1 ≤ tx / 4 := by
    rw [← Nat.succ_mul, Nat.mul_lt_mul_right (macroW_pos g), Nat.lt_succ_iff]
  have hright : tx / 4 * g.macroW < min (u.2.2.1 * g.macroW) pw ↔ tx / 4 < u.2.2.1 := by
    rw [lt_min_iff, Nat.mul_lt_mul_right (macroW_pos g)]
    exact and_iff_left hx
  have htop : u.2.1 * g.macroH < ty / 4 * g.macroH + g.macroH ↔ u.2.1 ≤ ty / 4 := by
    rw [← Nat.succ_mul, Nat.mul_lt_mul_right (macroH_pos g), Nat.lt_succ_iff]
  have hbottom : ty / 4 * g.macroH < min (u.2.2.2 * g.macroH) ph ↔ ty / 4 < u.2.2.2 := by
    rw [lt_min_iff, Nat.mul_lt_mul_right (macroH_pos g)]
    exact and_iff_left hy
  simp only [hitsMacro, macro_column, macro_row, clamp, Bool.and_eq_true, decide_eq_true_eq, hleft,
    hright, htop, hbottom, OwedRects.Holds]
  constructor
  · rintro ⟨⟨⟨hr, hl⟩, hb⟩, ht⟩
    exact ⟨hl, hr, ht, hb⟩
  · rintro ⟨hl, hr, ht, hb⟩
    exact ⟨⟨⟨hr, hl⟩, hb⟩, ht⟩

/-- A pixel of a clamped rectangle lies in one of its macro-tiles. -/
theorem holds_clamp {u : Clip} {x y : ℕ} (h : OwedRects.Holds (clamp g pw ph u) x y) :
    OwedRects.Holds u (x / g.macroW) (y / g.macroH) := by
  obtain ⟨h1, h2, h3, h4⟩ := h
  simp only [clamp, lt_min_iff] at h1 h2 h3 h4
  refine ⟨?_, ?_, ?_, ?_⟩
  · exact (Nat.le_div_iff_mul_le (macroW_pos g)).2 h1
  · exact (Nat.div_lt_iff_lt_mul (macroW_pos g)).2 h2.1
  · exact (Nat.le_div_iff_mul_le (macroH_pos g)).2 h3
  · exact (Nat.div_lt_iff_lt_mul (macroH_pos g)).2 h4.1

/-- The strip whose corner is the point differs. -/
def StripDiffers (g : Geometry) (pw : ℕ) (old new : List UInt64) (p : ℕ × ℕ) : Prop :=
  old[p.2 / g.stripH * (pw / g.stripW) + p.1 / g.stripW]? ≠
    new[p.2 / g.stripH * (pw / g.stripW) + p.1 / g.stripW]?

/-- Some strip of the macro-tile of the point differs. -/
def MacroDiffers (g : Geometry) (pw ph : ℕ) (old new : List UInt64) (p : ℕ × ℕ) : Prop :=
  ∃ q ∈ allStripCoords g pw ph, q.1 / g.macroW = p.1 / g.macroW ∧
    q.2 / g.macroH = p.2 / g.macroH ∧ StripDiffers g pw old new q

/-- The rectangle is not empty and lies inside the surface. -/
def Inside (pw ph : ℕ) (r : Clip) : Prop :=
  r.1 < r.2.2.1 ∧ r.2.2.1 ≤ pw ∧ r.2.1 < r.2.2.2 ∧ r.2.2.2 ≤ ph

theorem touched_iff (hw : g.stripW ∣ pw) (hh : g.stripH ∣ ph) {tx ty : ℕ} :
    touched g pw ph old new (ty / 4) (tx / 4) = true ↔
      MacroDiffers g pw ph old new (tx * g.stripW, ty * g.stripH) := by
  simp only [touched, List.any_eq_true, List.mem_range, Bool.and_eq_true, decide_eq_true_eq, per_x,
    per_y, MacroDiffers, mem_allStripCoords hw hh, macro_column, macro_row]
  constructor
  · rintro ⟨ty', hty', tx', htx', ⟨hrow, hcolumn⟩, hne⟩
    refine ⟨_, ⟨tx', htx', ty', hty', rfl⟩, ?_, ?_, ?_⟩
    · rw [macro_column, hcolumn]
    · rw [macro_row, hrow]
    · rw [StripDiffers, Nat.mul_div_cancel _ (stripW_pos g), Nat.mul_div_cancel _ (stripH_pos g)]
      exact hne
  · rintro ⟨_, ⟨tx', htx', ty', hty', rfl⟩, hcolumn, hrow, hne⟩
    rw [macro_column] at hcolumn
    rw [macro_row] at hrow
    rw [StripDiffers, Nat.mul_div_cancel _ (stripW_pos g),
      Nat.mul_div_cancel _ (stripH_pos g)] at hne
    exact ⟨ty', hty', tx', htx', ⟨hrow, hcolumn⟩, hne⟩

/-- Strips stand in raster order, each of them once. -/
def Raster (coords : List (ℕ × ℕ)) : Prop :=
  coords.Pairwise fun p q => p.2 < q.2 ∨ p.2 = q.2 ∧ p.1 < q.1

theorem raster_allStripCoords (g : Geometry) (w h : ℕ) : Raster (allStripCoords g w h) := by
  unfold allStripCoords Raster
  rw [List.pairwise_flatMap]
  constructor
  · intro ty _
    rw [List.pairwise_map]
    refine List.pairwise_lt_range.imp fun hlt => .inr ⟨rfl, ?_⟩
    exact Nat.mul_lt_mul_of_pos_right hlt (stripW_pos g)
  · refine List.pairwise_lt_range.imp fun hlt p hp q hq => .inl ?_
    obtain ⟨tx, -, rfl⟩ := List.mem_map.1 hp
    obtain ⟨tx', -, rfl⟩ := List.mem_map.1 hq
    exact Nat.mul_lt_mul_of_pos_right hlt (stripH_pos g)

theorem raster_damageStripCoords (g : Geometry) (w h : ℕ) (clips : List Clip) :
    Raster (damageStripCoords g w h clips) := (raster_allStripCoords g w h).filter _

/-- The rectangles that are needed: the stacks of runs of touched macro-tiles. -/
def rectsNeeded (g : Geometry) (pw ph : ℕ) (old new : List UInt64) : ℕ :=
  (runStacks (bitmap g pw ph old new) (macrosX g pw) (macrosY g ph)).card

/-- **The rectangles of the grid**, clamped, are disjoint and inside, and select what is touched. -/
theorem clamped_exact (hw : g.stripW ∣ pw) (hh : g.stripH ∣ ph) {units : List Clip}
    (h : Merged (bands (bitmap g pw ph old new) (macrosX g pw)) (macrosY g ph) [] units) :
    (units.map (clamp g pw ph)).Pairwise
        (fun r s => ∀ x y, OwedRects.Holds r x y → ¬ OwedRects.Holds s x y) ∧
      (∀ r ∈ units.map (clamp g pw ph), Inside pw ph r) ∧
      ∀ p, p ∈ damageStripCoords g pw ph (units.map (clamp g pw ph)) ↔
        p ∈ allStripCoords g pw ph ∧ MacroDiffers g pw ph old new p := by
  refine ⟨?_, ?_, fun p => ?_⟩
  · refine List.pairwise_map.2 ((List.pairwise_map.1 h.distinct).imp_of_mem ?_)
    intro u v hu hv hne x y hxu hxv
    exact hne (h.disjoint hu hv (holds_clamp hxu) (holds_clamp hxv))
  · intro r hr
    obtain ⟨u, hu, rfl⟩ := List.mem_map.1 hr
    have htall := h.tall u hu
    obtain ⟨hwide, hright, -⟩ := mem_bands.1 (h.run u hu u.2.1 le_rfl htall)
    have hbottom : u.2.2.2 ≤ macrosY g ph := by
      rcases h.ends u hu with hend | ⟨-, hmem⟩
      · exact hend
      · cases hmem
    have hx : u.1 * g.macroW < pw := macroX_lt (lt_of_lt_of_le hwide hright)
    have hy : u.2.1 * g.macroH < ph := macroY_lt (lt_of_lt_of_le htall hbottom)
    exact ⟨lt_min (Nat.mul_lt_mul_of_pos_right hwide (macroW_pos g)) hx, min_le_right _ _,
      lt_min (Nat.mul_lt_mul_of_pos_right htall (macroH_pos g)) hy, min_le_right _ _⟩
  · rw [damageStripCoords, List.mem_filter]
    refine and_congr_right fun hp => ?_
    obtain ⟨tx, htx, ty, hty, rfl⟩ := (mem_allStripCoords hw hh).1 hp
    rw [← touched_iff hw hh, ← owes_bitmap (row_lt hty) (column_lt htx)]
    have hcovers : Covers units (tx / 4) (ty / 4) ↔ tx / 4 < macrosX g pw ∧
        ty / 4 < macrosY g ph ∧
          owes (bitmap g pw ph old new) (macrosX g pw) (ty / 4) (tx / 4) = true := h.covers_iff
    rw [and_iff_right (column_lt htx), and_iff_right (row_lt hty)] at hcovers
    rw [← hcovers, List.any_map, List.any_eq_true]
    exact exists_congr fun u => and_congr_right fun _ => hitsMacro_clamp htx hty u

/-- The whole surface selects every strip. -/
theorem damageStripCoords_whole (hw : g.stripW ∣ pw) (hh : g.stripH ∣ ph) :
    damageStripCoords g pw ph [(0, 0, pw, ph)] = allStripCoords g pw ph := by
  refine List.filter_eq_self.2 fun p hp => ?_
  obtain ⟨tx, htx, ty, hty, rfl⟩ := (mem_allStripCoords hw hh).1 hp
  have hx : tx / 4 * g.macroW < pw := macroX_lt (column_lt htx)
  have hy : ty / 4 * g.macroH < ph := macroY_lt (row_lt hty)
  have hW := macroW_pos g
  have hH := macroH_pos g
  simp only [List.any_cons, List.any_nil, Bool.or_false, hitsMacro, macro_column, macro_row,
    Bool.and_eq_true, decide_eq_true_eq]
  omega

/-- A surface on which rectangles are needed is not empty. -/
theorem pos_of_rectsNeeded (h : 0 < rectsNeeded g pw ph old new) : 0 < pw ∧ 0 < ph := by
  obtain ⟨s, hs⟩ := Finset.card_pos.1 h
  obtain ⟨hy, hrun, -⟩ := mem_stacks.1 hs
  obtain ⟨hwide, hright, -⟩ := mem_bands.1 hrun
  have hx : s.2.1 * g.macroW < pw := macroX_lt (lt_of_lt_of_le hwide hright)
  have hy : s.1 * g.macroH < ph := macroY_lt hy
  omega

/-- **The damage rectangles are exact.**  For whole strips and hashes of the right number, the
rectangles are disjoint and lie inside the surface; and the strips they select, in raster order and
each of them once, are those of the macro-tiles with a strip that differs, or all strips if more
than 128 rectangles are needed. -/
theorem changed_strip_rects_exact (g : Geometry) (pw ph : ℕ) (hw : g.stripW ∣ pw)
    (hh : g.stripH ∣ ph) (old new : List UInt64)
    (hold : old.length = pw / g.stripW * (ph / g.stripH)) (hnew : new.length = old.length) :
    ∃ rects, changedStripRects g pw ph old new = some rects ∧
      rects.Pairwise (fun r s => ∀ x y, OwedRects.Holds r x y → ¬ OwedRects.Holds s x y) ∧
      (∀ r ∈ rects, Inside pw ph r) ∧ Raster (damageStripCoords g pw ph rects) ∧
      (rectsNeeded g pw ph old new ≤ 128 ∧
          (∀ p, p ∈ damageStripCoords g pw ph rects ↔
            p ∈ allStripCoords g pw ph ∧ MacroDiffers g pw ph old new p) ∨
        128 < rectsNeeded g pw ph old new ∧
          damageStripCoords g pw ph rects = allStripCoords g pw ph) := by
  rw [changedStripRects, if_pos ⟨hold, hnew⟩, rowRects_eq]
  rcases owedRects_unit (bitmap g pw ph old new) (macrosX g pw) (macrosY g ph) with
    ⟨units, hunits, h⟩ | ⟨hnone, hcard⟩
  · obtain ⟨hdisjoint, hinside, hselect⟩ := clamped_exact hw hh h
    have hfew : rectsNeeded g pw ph old new ≤ 128 := by
      rw [rectsNeeded, card_stacks h]
      exact h.few
    rw [hunits]
    exact ⟨_, rfl, hdisjoint, hinside, raster_damageStripCoords .., .inl ⟨hfew, hselect⟩⟩
  · have hneeded : 128 < rectsNeeded g pw ph old new := hcard
    obtain ⟨hpw, hph⟩ := pos_of_rectsNeeded (Nat.zero_lt_of_lt hneeded)
    rw [hnone]
    refine ⟨_, rfl, List.pairwise_singleton .., ?_, raster_damageStripCoords .., .inr ⟨hneeded, ?_⟩⟩
    · intro r hr
      rw [List.mem_singleton.1 hr]
      exact ⟨hpw, le_rfl, hph, le_rfl⟩
    · exact damageStripCoords_whole hw hh

end Selection

/-- Four by four macro-tiles, with changes in four of them: two side by side, and one each to their
right and below. -/
def scattered : List UInt64 := (List.range 256).map fun i => if i ∈ [0, 21, 45, 145] then 1 else 0

/-- Three rectangles for four macro-tiles. -/
theorem three_runs_differ :
    ∃ rects, changedStripRects Profile.profileElla.geometry 1024 256 (List.replicate 256 0)
        scattered = some rects ∧ rects.length = 3 ∧
      rects.Pairwise (fun r s => ∀ x y, OwedRects.Holds r x y → ¬ OwedRects.Holds s x y) ∧
      ∀ r ∈ rects, Inside 1024 256 r := by
  obtain ⟨rects, hrects, hdisjoint, hinside, -⟩ := changed_strip_rects_exact
    Profile.profileElla.geometry 1024 256 (by decide) (by decide) (List.replicate 256 0) scattered
    List.length_replicate (by rw [scattered, List.length_map, List.length_range,
      List.length_replicate])
  have hlength : (changedStripRects Profile.profileElla.geometry 1024 256 (List.replicate 256 0)
      scattered).map List.length = some 3 := by decide +kernel
  rw [hrects, Option.map_some, Option.some_inj] at hlength
  exact ⟨rects, hrects, hlength, hdisjoint, hinside⟩

end Vino.Kms.DamageRects
