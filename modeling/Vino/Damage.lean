import Vino.Haar.Range
import Vino.Scanout

/-!
# Which Strips a Plan Selects

Strips are addressed in three ways: by their column and band, by the pixel coordinates of their
corner, and by their index in raster order.  This module relates the three, shows that the
damage rectangles reach every strip that owes a transmission, and that a strip's body depends
only on the pixels that are hashed for it.

* `owedRects_covers`: every owing strip lies in a rectangle, and so is selected,
* `owedRects_nil`: no rectangle means that no strip owes,
* `encodeStrip_congr`: the same strip of two surfaces with the same lines has the same body,
* `encodeStrip_isSome`: encoding packed bytes never fails.
-/

namespace Vino.Damage

open Vino.Haar.Transform Vino.Haar.Strip Vino.Haar.Range Vino.Profile Vino.Scanout
open Vino.Lib.Checked

/-! ### Raster order -/

section Grid

variable {α : Type} (F : ℕ → ℕ → α) (n : ℕ)

/-- The values of `F` band by band, `n` columns each. -/
theorem length_grid (m : ℕ) :
    ((List.range m).flatMap fun ty => (List.range n).map (F ty)).length = m * n := by
  induction m with
  | zero => simp
  | succ m ih =>
      rw [List.range_succ, List.flatMap_append, List.length_append, ih]
      simp [Nat.succ_mul]

theorem getElem?_grid {m ty tx : ℕ} (hty : ty < m) (htx : tx < n) :
    ((List.range m).flatMap fun ty => (List.range n).map (F ty))[ty * n + tx]? =
      some (F ty tx) := by
  induction m with
  | zero => omega
  | succ m ih =>
      rw [List.range_succ, List.flatMap_append]
      rcases Nat.lt_or_ge ty m with hlt | hge
      · have hrow : (ty + 1) * n ≤ m * n := Nat.mul_le_mul_right n hlt
        rw [Nat.succ_mul] at hrow
        rw [List.getElem?_append_left (by rw [length_grid]; omega)]
        exact ih hlt
      · obtain rfl : ty = m := by omega
        rw [List.getElem?_append_right (by rw [length_grid]; omega), length_grid]
        simp [htx]

end Grid

variable {g : Geometry} {w h tx ty : ℕ}

theorem stripW_pos (g : Geometry) : 0 < g.stripW := Nat.two_pow_pos _

theorem stripH_pos (g : Geometry) : 0 < g.stripH := Nat.two_pow_pos _

/-- Rounding up does nothing to a whole number of strips. -/
theorem ceil_of_dvd {k : ℕ} (hk : 0 < k) (hw : k ∣ w) : (w + k - 1) / k = w / k := by
  obtain ⟨q, rfl⟩ := hw
  rw [Nat.mul_div_cancel_left q hk, Nat.add_sub_assoc hk, Nat.mul_add_div hk,
    Nat.div_eq_of_lt (by omega), Nat.add_zero]

theorem mem_allStripCoords (hw : g.stripW ∣ w) (hh : g.stripH ∣ h) {p : ℕ × ℕ} :
    p ∈ allStripCoords g w h ↔
      ∃ tx < w / g.stripW, ∃ ty < h / g.stripH, p = (tx * g.stripW, ty * g.stripH) := by
  unfold allStripCoords
  rw [ceil_of_dvd (stripW_pos g) hw, ceil_of_dvd (stripH_pos g) hh]
  simp only [List.mem_flatMap, List.mem_map, List.mem_range]
  constructor
  · rintro ⟨ty, hty, tx, htx, rfl⟩
    exact ⟨tx, htx, ty, hty, rfl⟩
  · rintro ⟨tx, htx, ty, hty, rfl⟩
    exact ⟨ty, hty, tx, htx, rfl⟩

theorem damageStripCoords_subset {clips : List Clip} {p : ℕ × ℕ}
    (hp : p ∈ damageStripCoords g w h clips) : p ∈ allStripCoords g w h :=
  (List.mem_filter.1 hp).1

/-! ### The owing strips -/

/-- Some rectangle contains the point. -/
def Covers (rects : List Clip) (x y : ℕ) : Prop :=
  ∃ r ∈ rects, r.1 ≤ x ∧ x < r.2.2.1 ∧ r.2.1 ≤ y ∧ y < r.2.2.2

variable {rects rects' : List Clip} {x y x0 x1 y0 y1 : ℕ}

theorem growRect_covers (hy : y0 ≤ y1) (hg : growRect rects x0 x1 y0 y1 = some rects') :
    (Covers rects x y → Covers rects' x y) ∧
      (x0 ≤ x → x < x1 → y0 ≤ y → y < y1 → (∀ r ∈ rects, r.2.1 ≤ y0) → Covers rects' x y) := by
  induction rects generalizing rects' with
  | nil => simp [growRect] at hg
  | cons r rest ih =>
      unfold growRect at hg
      split at hg
      · next rest' hrest =>
          obtain rfl := Option.some.inj hg
          obtain ⟨hkeep, hnew⟩ := ih hrest
          constructor
          · rintro ⟨q, hq, hin⟩
            rcases List.mem_cons.1 hq with rfl | hq
            · exact ⟨q, List.mem_cons_self, hin⟩
            · obtain ⟨q', hq', hin'⟩ := hkeep ⟨q, hq, hin⟩
              exact ⟨q', List.mem_cons_of_mem r hq', hin'⟩
          · intro h1 h2 h3 h4 htop
            obtain ⟨q, hq, hin⟩ :=
              hnew h1 h2 h3 h4 fun r' hr' => htop r' (List.mem_cons_of_mem r hr')
            exact ⟨q, List.mem_cons_of_mem r hq, hin⟩
      · split_ifs at hg with hmatch
        obtain rfl := Option.some.inj hg
        obtain ⟨hx0, hx1, hy0⟩ := hmatch
        constructor
        · rintro ⟨q, hq, h1, h2, h3, h4⟩
          rcases List.mem_cons.1 hq with rfl | hq
          · exact ⟨_, List.mem_cons_self, h1, h2, h3, by dsimp only; omega⟩
          · exact ⟨q, List.mem_cons_of_mem _ hq, h1, h2, h3, h4⟩
        · intro h1 h2 h3 h4 htop
          have hr := htop r List.mem_cons_self
          exact ⟨_, List.mem_cons_self, by dsimp only; omega, by dsimp only; omega,
            by dsimp only; omega, h4⟩

/-- Growing moves no top edge. -/
theorem growRect_top {top : ℕ} (hg : growRect rects x0 x1 y0 y1 = some rects')
    (htop : ∀ r ∈ rects, r.2.1 ≤ top) : ∀ r ∈ rects', r.2.1 ≤ top := by
  induction rects generalizing rects' with
  | nil => simp [growRect] at hg
  | cons r rest ih =>
      have hhead := htop r List.mem_cons_self
      have htail := fun q hq => htop q (List.mem_cons_of_mem r hq)
      unfold growRect at hg
      split at hg
      · next rest' hrest =>
          obtain rfl := Option.some.inj hg
          intro q hq
          rcases List.mem_cons.1 hq with rfl | hq
          · exact hhead
          · exact ih hrest htail q hq
      · split_ifs at hg
        obtain rfl := Option.some.inj hg
        intro q hq
        rcases List.mem_cons.1 hq with rfl | hq
        · exact hhead
        · exact htail q hq

/-- **One run**: what was covered stays, and the run's strips are covered. -/
theorem addRect_covers {stripW stripH : ℕ} {r : ℕ × ℕ}
    (ha : addRect stripW stripH ty rects r = some rects')
    (htop : ∀ q ∈ rects, q.2.1 ≤ ty * stripH) :
    (∀ q ∈ rects', q.2.1 ≤ ty * stripH) ∧ (∀ x y, Covers rects x y → Covers rects' x y) ∧
      (0 < stripH → 0 < stripW → ∀ tx, r.1 ≤ tx → tx < r.2 →
        Covers rects' (tx * stripW) (ty * stripH)) := by
  unfold addRect at ha
  dsimp only at ha
  have hx : ∀ tx, 0 < stripW → r.1 ≤ tx → tx < r.2 →
      r.1 * stripW ≤ tx * stripW ∧ tx * stripW < r.2 * stripW := fun _ hpos h1 h2 =>
    ⟨Nat.mul_le_mul_right _ h1, Nat.mul_lt_mul_of_pos_right h2 hpos⟩
  split at ha
  · next grown hgrow =>
      obtain rfl := Option.some.inj ha
      refine ⟨growRect_top hgrow htop, fun x y => (growRect_covers (by omega) hgrow).1, ?_⟩
      intro hH hW tx h1 h2
      obtain ⟨hl, hr⟩ := hx tx hW h1 h2
      exact (growRect_covers (by omega) hgrow).2 hl hr le_rfl (by omega) htop
  · split_ifs at ha
    obtain rfl := Option.some.inj ha
    refine ⟨?_, ?_, ?_⟩
    · intro q hq
      rcases List.mem_append.1 hq with hq | hq
      · exact htop q hq
      · obtain rfl := List.mem_singleton.1 hq
        exact le_rfl
    · rintro x y ⟨q, hq, hin⟩
      exact ⟨q, List.mem_append_left _ hq, hin⟩
    · intro hH hW tx h1 h2
      obtain ⟨hl, hr⟩ := hx tx hW h1 h2
      exact ⟨_, List.mem_append_right _ List.mem_cons_self, hl, hr, le_rfl,
        by dsimp only; omega⟩

theorem find?_range'_spec {P : ℕ → Bool} {s n a : ℕ} (hf : (List.range' s n).find? P = some a) :
    (s ≤ a ∧ a < s + n ∧ P a = true) ∧ ∀ b, s ≤ b → b < a → P b = false := by
  obtain ⟨hP, as, bs, hsplit, hbefore⟩ := List.find?_eq_some_iff_append.1 hf
  obtain ⟨k, hk, hleft, hright⟩ := List.range'_eq_append_iff.1 hsplit
  have hlen := congrArg List.length hright
  obtain ⟨m, hm⟩ : ∃ m, n - k = m + 1 := ⟨bs.length, by simpa using hlen.symm⟩
  rw [hm, List.range'_succ] at hright
  obtain rfl : a = s + k := by simpa using (List.cons.inj hright).1
  refine ⟨⟨by omega, by omega, hP⟩, ?_⟩
  intro b hb1 hb2
  have hmem : b ∈ as := by
    rw [hleft]
    exact List.mem_range'_1.2 ⟨hb1, hb2⟩
  simpa using hbefore b hmem

theorem bandRuns_none (tilesX tx : ℕ) : ∀ fuel, bandRuns (fun _ => false) tilesX fuel tx = []
  | 0 => rfl
  | fuel + 1 => by
      have hnone : (List.range' tx (tilesX - tx)).find? (fun _ => false) = none := by simp
      unfold bandRuns nextRun
      rw [hnone]

/-- **The runs of a band** contain every owing column. -/
theorem bandRuns_covers (owes : ℕ → Bool) {tilesX : ℕ} (ho : owes tx = true) (htx : tx < tilesX) :
    ∀ fuel t0, t0 ≤ tx → tilesX ≤ fuel + t0 →
      ∃ r ∈ bandRuns owes tilesX fuel t0, r.1 ≤ tx ∧ tx < r.2 := by
  intro fuel
  induction fuel with
  | zero => intro t0 h1 h2; omega
  | succ fuel ih =>
      intro t0 ht0 hfuel
      have hmem : tx ∈ List.range' t0 (tilesX - t0) := List.mem_range'_1.2 ⟨ht0, by omega⟩
      obtain ⟨start, hstart⟩ : ∃ start, (List.range' t0 (tilesX - t0)).find? owes = some start := by
        rw [← Option.isSome_iff_exists, List.find?_isSome]
        exact ⟨tx, hmem, ho⟩
      obtain ⟨hs, hle⟩ := find?_range'_spec hstart
      -- The run starts at or before the column: it is the first owing one.
      have hstart_le : start ≤ tx := by
        by_contra hlt
        exact absurd ho (by simpa using hle tx ht0 (by omega))
      have hstop : ∀ stop, (((List.range' start (tilesX - start)).find? fun x => !owes x).getD
          tilesX) = stop → tx < stop ∨ start < stop ∧ stop ≤ tx := by
        intro stop hstop
        cases hfind : (List.range' start (tilesX - start)).find? fun x => !owes x with
        | none =>
            rw [hfind] at hstop
            left
            simpa [← hstop] using htx
        | some b =>
            rw [hfind] at hstop
            obtain rfl : b = stop := by simpa using hstop
            obtain ⟨⟨hb1, hb2, hb3⟩, -⟩ := find?_range'_spec hfind
            rcases Nat.lt_or_ge tx b with hlt | hge
            · exact .inl hlt
            · refine .inr ⟨Nat.lt_of_le_of_ne hb1 ?_, hge⟩
              rintro rfl
              simp [hs.2.2] at hb3
      unfold bandRuns nextRun
      rw [hstart]
      rcases hstop _ rfl with hlt | ⟨hgt, hle'⟩
      · exact ⟨_, List.mem_cons_self, hstart_le, hlt⟩
      · obtain ⟨r, hr, hin⟩ := ih _ hle' (by omega)
        exact ⟨r, List.mem_cons_of_mem _ hr, hin⟩

/-- **One band**: its runs cover the owing strips and what was covered stays. -/
theorem foldlM_addRect_covers {stripW stripH : ℕ} (hH : 0 < stripH) (hW : 0 < stripW)
    (ty : ℕ) : ∀ (rs : List (ℕ × ℕ)) {rects rects' : List Clip},
      rs.foldlM (addRect stripW stripH ty) rects = some rects' →
      (∀ q ∈ rects, q.2.1 ≤ ty * stripH) →
      (∀ q ∈ rects', q.2.1 ≤ ty * stripH) ∧ (∀ x y, Covers rects x y → Covers rects' x y) ∧
        ∀ r ∈ rs, ∀ tx, r.1 ≤ tx → tx < r.2 → Covers rects' (tx * stripW) (ty * stripH)
  | [], rects, rects', hf, htop => by
      obtain rfl : rects = rects' := by simpa using hf
      exact ⟨htop, fun _ _ hc => hc, by simp⟩
  | r :: rs, rects, rects', hf, htop => by
      rw [List.foldlM_cons] at hf
      obtain ⟨mid, hmid, hrest⟩ := Option.bind_eq_some_iff.1 hf
      obtain ⟨htop', hkeep, hrun⟩ := addRect_covers hmid htop
      obtain ⟨htop'', hkeep', hcov⟩ := foldlM_addRect_covers hH hW ty rs hrest htop'
      refine ⟨htop'', fun x y hc => hkeep' x y (hkeep x y hc), ?_⟩
      intro q hq tx h1 h2
      rcases List.mem_cons.1 hq with rfl | hq
      · exact hkeep' _ _ (hrun hH hW tx h1 h2)
      · exact hcov q hq tx h1 h2

section OwedRects

variable {debt : List ℕ} {tilesX tilesY stripW stripH : ℕ}

/-- The rectangles of the first bands. -/
theorem foldlM_bands_covers (hH : 0 < stripH) (hW : 0 < stripW) :
    ∀ (m : ℕ) {rects : List Clip},
      (List.range m).foldlM (fun rects ty =>
        (bandRuns (fun tx => decide (0 < debt.getD (ty * tilesX + tx) 0)) tilesX (tilesX + 1)
          0).foldlM (addRect stripW stripH ty) rects) [] = some rects →
      (∀ q ∈ rects, q.2.1 ≤ m * stripH) ∧
        ∀ ty < m, ∀ tx < tilesX, 0 < debt.getD (ty * tilesX + tx) 0 →
          Covers rects (tx * stripW) (ty * stripH)
  | 0, rects, hf => by
      obtain rfl : rects = [] := by simpa using hf.symm
      exact ⟨by simp, by simp⟩
  | m + 1, rects, hf => by
      rw [List.range_succ, List.foldlM_append] at hf
      obtain ⟨mid, hmid, hlast⟩ := Option.bind_eq_some_iff.1 hf
      rw [List.foldlM_cons] at hlast
      obtain ⟨last, hband, hnil⟩ := Option.bind_eq_some_iff.1 hlast
      obtain rfl : last = rects := by simpa using hnil
      obtain ⟨htop, hcov⟩ := foldlM_bands_covers hH hW m hmid
      obtain ⟨htop', hkeep, hnew⟩ := foldlM_addRect_covers hH hW m _ hband htop
      refine ⟨fun q hq => (htop' q hq).trans (Nat.mul_le_mul_right _ (by omega)), ?_⟩
      intro ty hty tx htx howes
      rcases Nat.lt_or_ge ty m with hlt | hge
      · exact hkeep _ _ (hcov ty hlt tx htx howes)
      · obtain rfl : ty = m := by omega
        obtain ⟨r, hr, h1, h2⟩ := bandRuns_covers
          (fun tx => decide (0 < debt.getD (ty * tilesX + tx) 0)) (decide_eq_true howes) htx
          (tilesX + 1) 0 (by omega) (by omega)
        exact hnew r hr tx h1 h2

/-- **Every owing strip lies in a rectangle.** -/
theorem owedRects_covers (hH : 0 < stripH) (hW : 0 < stripW)
    (hr : owedRects debt tilesX tilesY stripW stripH = some rects) (hty : ty < tilesY)
    (htx : tx < tilesX) (howes : 0 < debt.getD (ty * tilesX + tx) 0) :
    Covers rects (tx * stripW) (ty * stripH) :=
  (foldlM_bands_covers hH hW tilesY hr).2 ty hty tx htx howes

/-- **No rectangle, no debt.** -/
theorem owedRects_nil (hH : 0 < stripH) (hW : 0 < stripW)
    (hr : owedRects debt tilesX tilesY stripW stripH = some []) (hty : ty < tilesY)
    (htx : tx < tilesX) : debt.getD (ty * tilesX + tx) 0 = 0 := by
  by_contra howes
  obtain ⟨r, hmem, -⟩ := owedRects_covers hH hW hr hty htx (Nat.pos_of_ne_zero howes)
  cases hmem

end OwedRects

/-- A covered strip is selected with its macro-tile. -/
theorem mem_damageStripCoords_of_covers (hw : g.stripW ∣ w) (hh : g.stripH ∣ h)
    (htx : tx < w / g.stripW) (hty : ty < h / g.stripH)
    (hc : Covers rects (tx * g.stripW) (ty * g.stripH)) :
    (tx * g.stripW, ty * g.stripH) ∈ damageStripCoords g w h rects := by
  refine List.mem_filter.2 ⟨(mem_allStripCoords hw hh).2 ⟨tx, htx, ty, hty, rfl⟩, ?_⟩
  obtain ⟨r, hr, h1, h2, h3, h4⟩ := hc
  refine List.any_eq_true.2 ⟨r, hr, ?_⟩
  have hmw : 0 < g.macroW := Nat.mul_pos (by omega) (stripW_pos g)
  have hmh : 0 < g.macroH := Nat.mul_pos (by omega) (stripH_pos g)
  have hx := Nat.div_add_mod (tx * g.stripW) g.macroW
  have hy := Nat.div_add_mod (ty * g.stripH) g.macroH
  have hxl := Nat.mod_lt (tx * g.stripW) hmw
  have hyl := Nat.mod_lt (ty * g.stripH) hmh
  rw [Nat.mul_comm] at hx hy
  simp only [hitsMacro, Bool.and_eq_true, decide_eq_true_eq]
  refine ⟨⟨⟨?_, ?_⟩, ?_⟩, ?_⟩ <;> omega

/-! ### What a body depends on -/

/-- The pixel of block `k` lies inside the strip. -/
theorem blockPixel_lt (g : Geometry) {k : ℕ} (hk : k < 16) (r c : Fin 8) :
    (k &&& (1 <<< (g.stripWShift - 3) - 1)) * 8 + c.val < g.stripW ∧
      (k >>> (g.stripWShift - 3)) * 8 + r.val < g.stripH := by
  unfold Geometry.stripW Geometry.stripH
  rcases g.layout with ⟨hw, hh⟩ | ⟨hw, hh⟩
  · rw [hw, hh]
    have hand : k &&& (1 <<< (6 - 3) - 1) ≤ 7 := Nat.and_le_right
    have hshift : k >>> (6 - 3) ≤ 1 := by
      rw [Nat.shiftRight_eq_div_pow]
      omega
    omega
  · rw [hw, hh]
    have hand : k &&& (1 <<< (7 - 3) - 1) ≤ 15 := Nat.and_le_right
    have hshift : k >>> (7 - 3) = 0 := by
      rw [Nat.shiftRight_eq_div_pow]
      omega
    rw [hshift]
    omega

theorem mapM_congr {α β : Type} {f f' : α → Option β} :
    ∀ l : List α, (∀ a ∈ l, f a = f' a) → l.mapM f = l.mapM f'
  | [], _ => rfl
  | a :: l, hl => by
      rw [List.mapM_cons, List.mapM_cons, hl a List.mem_cons_self,
        mapM_congr l fun b hb => hl b (List.mem_cons_of_mem a hb)]

/-- A strip is encoded from its own pixels only. -/
theorem colourStripAt_congr {g : Geometry} {ox oy : ℕ} {px px' : PixelSource}
    (h : ∀ dx < g.stripW, ∀ dy < g.stripH, px (ox + dx) (oy + dy) = px' (ox + dx) (oy + dy)) :
    colourStripAt g ox oy px = colourStripAt g ox oy px' := by
  have hsample : ∀ k < 16, blockSample g ox oy px k = blockSample g ox oy px' k := by
    intro k hk
    funext r c
    obtain ⟨hx, hy⟩ := blockPixel_lt g hk r c
    have hpixel := h _ hx _ hy
    simp only [← Nat.add_assoc] at hpixel
    simp only [blockSample, hpixel]
  have hblocks : colourStripBlocks g ox oy px = colourStripBlocks g ox oy px' := by
    unfold colourStripBlocks stripBlocksWith
    exact mapM_congr _ fun k hk => by rw [hsample k (List.mem_range.1 hk)]
  unfold colourStripAt
  rw [hblocks]

theorem getD_line (rgb : List UInt8) {s n k : ℕ} (hk : k < n) :
    ((rgb.drop s).take n).getD k 0 = rgb.getD (s + k) 0 := by
  simp [List.getD_eq_getElem?_getD, hk, List.getElem?_drop]

/-- **The hashed lines determine the body.** -/
theorem encodeStrip_congr {d : Dock} {rgb rgb' : List UInt8}
    (h : stripLines rgb w d.geometry.stripW d.geometry.stripH tx ty =
      stripLines rgb' w d.geometry.stripW d.geometry.stripH tx ty) :
    encodeStrip d w rgb (tx * d.geometry.stripW) (ty * d.geometry.stripH) =
      encodeStrip d w rgb' (tx * d.geometry.stripW) (ty * d.geometry.stripH) := by
  refine colourStripAt_congr fun dx hdx dy hdy => ?_
  have hline := List.map_inj_left.1 h dy (List.mem_range.2 hdy)
  have hbyte : ∀ j < 3, rgb.getD (((ty * d.geometry.stripH + dy) * w +
      (tx * d.geometry.stripW + dx)) * 3 + j) 0 = rgb'.getD (((ty * d.geometry.stripH + dy) * w +
      (tx * d.geometry.stripW + dx)) * 3 + j) 0 := by
    intro j hj
    have hindex : ((ty * d.geometry.stripH + dy) * w + (tx * d.geometry.stripW + dx)) * 3 + j =
        (ty * d.geometry.stripH + dy) * (w * 3) + tx * (d.geometry.stripW * 3) +
          (dx * 3 + j) := by ring
    have hk : dx * 3 + j < d.geometry.stripW * 3 := by omega
    rw [hindex, ← getD_line rgb hk, ← getD_line rgb' hk, hline]
  have h0 := hbyte 0 (by omega)
  have h1 := hbyte 1 (by omega)
  have h2 := hbyte 2 (by omega)
  rw [Nat.add_zero] at h0
  simp only [rgbReader, h0, h1, h2]

theorem depth_geometry (d : Dock) :
    d.geometry.depth = if d.tenBit then .ten else .eight := by
  unfold Dock.geometry
  dsimp only
  split_ifs <;> rfl

theorem toNat_widen_le (v : UInt8) : (v.toUInt16 <<< 2 ||| v.toUInt16 >>> 6).toNat ≤ 1023 := by
  have hle : ∀ v : Fin 256, ((UInt8.ofFin v).toUInt16 <<< 2 |||
      (UInt8.ofFin v).toUInt16 >>> 6).toNat ≤ 1023 := by decide +kernel
  exact hle v.toFin

/-- Packed bytes are samples of the depth of the link. -/
theorem pixelsFit_rgbReader (d : Dock) (rgb : List UInt8) :
    PixelsFit d.geometry.depth (rgbReader d.tenBit w rgb) := by
  intro x y
  rw [depth_geometry]
  unfold rgbReader
  cases d.tenBit
  · simp only [Bool.false_eq_true, if_false, UInt8.toNat_toUInt16, Depth.bits]
    refine ⟨?_, ?_, ?_⟩ <;> exact Nat.le_of_lt_succ (UInt8.toNat_lt _)
  · simp only [if_true]
    exact ⟨toNat_widen_le _, toNat_widen_le _, toNat_widen_le _⟩

/-- **Encoding packed bytes never fails.** -/
theorem encodeStrip_isSome (d : Dock) (rgb : List UInt8) (sx sy : ℕ) :
    ∃ body, encodeStrip d w rgb sx sy = some body := by
  obtain ⟨-, strip, -, hstrip, -⟩ := decodeStrip_colourStripAt (pixelsFit_rgbReader d rgb) sx sy
  exact ⟨strip, hstrip⟩

end Vino.Damage
