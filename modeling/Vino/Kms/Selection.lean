import Vino.Damage

/-!
# The Strips of a Delta

`changed_strip_rects` turns the strips whose hash differs from the baseline into rectangles on the
grid of macro-tiles: runs of touched tiles are joined along a row, and equal runs of neighbouring
rows are joined downwards.  More than `MAX_RECTS` of them become the whole surface.

* `mem_damageStripCoords`: every strip that differs is among those the rectangles select,
* `changedStripRects_nil`: without a rectangle no strip differs.
-/

namespace Vino.Kms.Selection

open Vino.Haar.Strip Vino.Scanout Vino.Damage

/-- Add a rectangle, merged downwards where the row above ends with the same span. -/
def addClip (rects : List Clip) (c : Clip) : Option (List Clip) :=
  match growRect rects c.1 c.2.2.1 c.2.1 c.2.2.2 with
  | some rects' => some rects'
  | none => if rects.length = maxRects then none else some (rects ++ [c])

section Rects

variable (g : Geometry) (pw ph : ℕ)

/-- The rectangle of a run of macro-tiles. -/
def macroClip (my : ℕ) (r : ℕ × ℕ) : Clip :=
  (r.1 * g.macroW, my * g.macroH, min (r.2 * g.macroW) pw, min (my * g.macroH + g.macroH) ph)

/-- Whether a strip of the macro-tile differs. -/
def touched (old new : List UInt64) (my mx : ℕ) : Bool :=
  (List.range (ph / g.stripH)).any fun ty => (List.range (pw / g.stripW)).any fun tx =>
    ty / (g.macroH / g.stripH) = my && tx / (g.macroW / g.stripW) = mx &&
      old[ty * (pw / g.stripW) + tx]? ≠ new[ty * (pw / g.stripW) + tx]?

/-- The macro-tiles of a row or a column of strips. -/
def macros (tiles per : ℕ) : ℕ := (tiles + per - 1) / per

def macrosX : ℕ := macros (pw / g.stripW) (g.macroW / g.stripW)

def macrosY : ℕ := macros (ph / g.stripH) (g.macroH / g.stripH)

/-- The rectangles of the first rows of macro-tiles. -/
def rowRects (old new : List UInt64) (rows : ℕ) : Option (List Clip) :=
  (List.range rows).foldlM
    (fun rects my => (bandRuns (touched g pw ph old new my) (macrosX g pw) (macrosX g pw + 1)
      0).foldlM (fun rects r => addClip rects (macroClip g pw ph my r)) rects)
    []

/-- The rectangles of the strips that differ; `none` stands for `EINVAL`. -/
def changedStripRects (old new : List UInt64) : Option (List Clip) :=
  if old.length = pw / g.stripW * (ph / g.stripH) ∧ new.length = old.length then
    some ((rowRects g pw ph old new (macrosY g ph)).getD [(0, 0, pw, ph)])
  else none

end Rects

/-! ### What the rectangles cover -/

variable {g : Geometry} {pw ph : ℕ} {rects rects' : List Clip}

/-- The rectangle holds the point. -/
def Holds (c : Clip) (x y : ℕ) : Prop := c.1 ≤ x ∧ x < c.2.2.1 ∧ c.2.1 ≤ y ∧ y < c.2.2.2

theorem addClip_covers {c : Clip} {top : ℕ} (ha : addClip rects c = some rects')
    (hc : c.2.1 ≤ c.2.2.2) (htop : ∀ q ∈ rects, q.2.1 ≤ top) (hc' : c.2.1 = top) :
    (∀ q ∈ rects', q.2.1 ≤ top) ∧ (∀ x y, Covers rects x y → Covers rects' x y) ∧
      ∀ x y, Holds c x y → Covers rects' x y := by
  subst hc'
  unfold addClip at ha
  split at ha
  case h_1 grown hgrow =>
    obtain rfl := Option.some.inj ha
    refine ⟨growRect_top hgrow htop, fun x y => (growRect_covers hc hgrow).1, ?_⟩
    rintro x y ⟨h1, h2, h3, h4⟩
    exact (growRect_covers hc hgrow).2 h1 h2 h3 h4 htop
  case h_2 =>
    split_ifs at ha
    obtain rfl := Option.some.inj ha
    refine ⟨?_, ?_, ?_⟩
    · intro q hq
      rcases List.mem_append.1 hq with hq | hq
      · exact htop q hq
      · rw [List.mem_singleton.1 hq]
    · rintro x y ⟨q, hq, hin⟩
      exact ⟨q, List.mem_append_left _ hq, hin⟩
    · intro x y hin
      exact ⟨c, List.mem_append_right _ List.mem_cons_self, hin⟩

/-- **One row**: its runs are covered and what was covered stays. -/
theorem foldlM_addClip_covers (my : ℕ) (hmy : my * g.macroH ≤ ph) :
    ∀ (rs : List (ℕ × ℕ)) {rects rects' : List Clip},
      rs.foldlM (fun rects r => addClip rects (macroClip g pw ph my r)) rects = some rects' →
      (∀ q ∈ rects, q.2.1 ≤ my * g.macroH) →
      (∀ q ∈ rects', q.2.1 ≤ my * g.macroH) ∧ (∀ x y, Covers rects x y → Covers rects' x y) ∧
        ∀ r ∈ rs, ∀ x y, Holds (macroClip g pw ph my r) x y → Covers rects' x y
  | [], rects, rects', hf, htop => by
      obtain rfl : rects = rects' := by simpa using hf
      exact ⟨htop, fun _ _ hc => hc, by simp⟩
  | r :: rs, rects, rects', hf, htop => by
      rw [List.foldlM_cons] at hf
      obtain ⟨mid, hmid, hrest⟩ := Option.bind_eq_some_iff.1 hf
      have hspan : (macroClip g pw ph my r).2.1 ≤ (macroClip g pw ph my r).2.2.2 := by
        simp only [macroClip]
        omega
      obtain ⟨htop', hkeep, hrun⟩ := addClip_covers hmid hspan htop rfl
      obtain ⟨htop'', hkeep', hcov⟩ := foldlM_addClip_covers my hmy rs hrest htop'
      refine ⟨htop'', fun x y hc => hkeep' x y (hkeep x y hc), ?_⟩
      intro q hq x y hin
      rcases List.mem_cons.1 hq with rfl | hq
      · exact hkeep' _ _ (hrun x y hin)
      · exact hcov q hq x y hin

/-- A macro-tile starts inside the surface. -/
theorem mul_lt_of_macros {per step m len : ℕ} (hper : 0 < per)
    (hm : m < macros (len / step) per) : m * (per * step) < len := by
  unfold macros at hm
  have hle : (m + 1) * per ≤ len / step + per - 1 :=
    (Nat.mul_le_mul_right per hm).trans (Nat.div_mul_le_self _ _)
  rw [Nat.succ_mul] at hle
  have hlt : m * per + 1 ≤ len / step := by omega
  rcases Nat.eq_zero_or_pos step with rfl | hstep
  · simp at hlt
  calc m * (per * step) = m * per * step := (Nat.mul_assoc ..).symm
    _ < (m * per + 1) * step := Nat.mul_lt_mul_of_pos_right (Nat.lt_succ_self _) hstep
    _ ≤ len / step * step := Nat.mul_le_mul_right _ hlt
    _ ≤ len := Nat.div_mul_le_self _ _

theorem per_x (g : Geometry) : g.macroW / g.stripW = 4 := Nat.mul_div_cancel _ (stripW_pos g)

theorem per_y (g : Geometry) : g.macroH / g.stripH = 4 := Nat.mul_div_cancel _ (stripH_pos g)

theorem macroX_lt {mx : ℕ} (hmx : mx < macrosX g pw) : mx * g.macroW < pw := by
  unfold macrosX at hmx
  rw [per_x] at hmx
  exact mul_lt_of_macros (by omega) hmx

theorem macroY_lt {my : ℕ} (hmy : my < macrosY g ph) : my * g.macroH < ph := by
  unfold macrosY at hmy
  rw [per_y] at hmy
  exact mul_lt_of_macros (by omega) hmy

/-- **Every touched macro-tile is covered.** -/
theorem rowRects_covers {old new : List UInt64} : ∀ (rows : ℕ) {rects : List Clip},
    rows ≤ macrosY g ph → rowRects g pw ph old new rows = some rects →
      (∀ q ∈ rects, q.2.1 ≤ rows * g.macroH) ∧
        ∀ my < rows, ∀ mx < macrosX g pw, touched g pw ph old new my mx = true →
          Covers rects (mx * g.macroW) (my * g.macroH)
  | 0, rects, _, hf => by
      obtain rfl : rects = [] := by simpa [rowRects] using hf.symm
      exact ⟨by simp, by simp⟩
  | rows + 1, rects, hrows, hf => by
      unfold rowRects at hf
      rw [List.range_succ, List.foldlM_append] at hf
      obtain ⟨mid, hmid, hlast⟩ := Option.bind_eq_some_iff.1 hf
      rw [List.foldlM_cons] at hlast
      obtain ⟨last, hband, hnil⟩ := Option.bind_eq_some_iff.1 hlast
      obtain rfl : last = rects := by simpa using hnil
      obtain ⟨htop, hcov⟩ := rowRects_covers rows (by omega) hmid
      have hy : rows * g.macroH < ph := macroY_lt (by omega)
      obtain ⟨htop', hkeep, hnew⟩ := foldlM_addClip_covers rows hy.le _ hband htop
      refine ⟨fun q hq => (htop' q hq).trans (Nat.mul_le_mul_right _ (by omega)), ?_⟩
      intro my hmy mx hmx htouched
      rcases Nat.lt_or_ge my rows with hlt | hge
      · exact hkeep _ _ (hcov my hlt mx hmx htouched)
      · obtain rfl : my = rows := by omega
        obtain ⟨r, hr, h1, h2⟩ := bandRuns_covers (touched g pw ph old new my) htouched hmx
          (macrosX g pw + 1) 0 (by omega) (by omega)
        have hx := macroX_lt hmx
        have hW : 0 < g.macroW := Nat.mul_pos (by omega) (stripW_pos g)
        have hH : 0 < g.macroH := Nat.mul_pos (by omega) (stripH_pos g)
        have hleft := Nat.mul_le_mul_right g.macroW h1
        have hright := Nat.mul_lt_mul_of_pos_right h2 hW
        refine hnew r hr _ _ ⟨hleft, ?_, le_rfl, ?_⟩ <;> simp only [macroClip] <;> omega

/-! ### The strips that differ -/

/-- A strip is selected when its macro-tile is covered. -/
theorem mem_damageStripCoords_of_macro (hw : g.stripW ∣ pw) (hh : g.stripH ∣ ph) {tx ty : ℕ}
    (htx : tx < pw / g.stripW) (hty : ty < ph / g.stripH)
    (hc : Covers rects (tx / 4 * g.macroW) (ty / 4 * g.macroH)) :
    (tx * g.stripW, ty * g.stripH) ∈ damageStripCoords g pw ph rects := by
  refine List.mem_filter.2 ⟨(mem_allStripCoords hw hh).2 ⟨tx, htx, ty, hty, rfl⟩, ?_⟩
  obtain ⟨r, hr, h1, h2, h3, h4⟩ := hc
  refine List.any_eq_true.2 ⟨r, hr, ?_⟩
  have hx : tx * g.stripW / g.macroW = tx / 4 := by
    rw [Geometry.macroW, Nat.mul_comm tx, Nat.mul_comm 4, Nat.mul_div_mul_left _ _ (stripW_pos g)]
  have hy : ty * g.stripH / g.macroH = ty / 4 := by
    rw [Geometry.macroH, Nat.mul_comm ty, Nat.mul_comm 4, Nat.mul_div_mul_left _ _ (stripH_pos g)]
  have hW : 0 < g.macroW := Nat.mul_pos (by omega) (stripW_pos g)
  have hH : 0 < g.macroH := Nat.mul_pos (by omega) (stripH_pos g)
  simp only [hitsMacro, Bool.and_eq_true, decide_eq_true_eq, hx, hy]
  refine ⟨⟨⟨?_, ?_⟩, ?_⟩, ?_⟩ <;> omega

theorem touched_of_ne {old new : List UInt64} {tx ty : ℕ} (htx : tx < pw / g.stripW)
    (hty : ty < ph / g.stripH)
    (hne : old[ty * (pw / g.stripW) + tx]? ≠ new[ty * (pw / g.stripW) + tx]?) :
    touched g pw ph old new (ty / 4) (tx / 4) = true := by
  unfold touched
  refine List.any_eq_true.2 ⟨ty, List.mem_range.2 hty, ?_⟩
  refine List.any_eq_true.2 ⟨tx, List.mem_range.2 htx, ?_⟩
  simp [per_x, per_y, hne]

/-- A strip that differs lies in a touched macro-tile that a rectangle covers. -/
theorem changedStripRects_covers {old new : List UInt64}
    (hr : changedStripRects g pw ph old new = some rects) {tx ty : ℕ} (htx : tx < pw / g.stripW)
    (hty : ty < ph / g.stripH)
    (hne : old[ty * (pw / g.stripW) + tx]? ≠ new[ty * (pw / g.stripW) + tx]?) :
    Covers rects (tx / 4 * g.macroW) (ty / 4 * g.macroH) := by
  unfold changedStripRects at hr
  split_ifs at hr
  obtain rfl := Option.some.inj hr
  have hmx : tx / 4 < macrosX g pw := by
    unfold macrosX macros
    rw [per_x]
    omega
  have hmy : ty / 4 < macrosY g ph := by
    unfold macrosY macros
    rw [per_y]
    omega
  cases hrows : rowRects g pw ph old new (macrosY g ph) with
  | some found =>
      exact (rowRects_covers _ le_rfl hrows).2 _ hmy _ hmx (touched_of_ne htx hty hne)
  | none =>
      exact ⟨_, List.mem_singleton.2 rfl, Nat.zero_le _, macroX_lt hmx, Nat.zero_le _,
        macroY_lt hmy⟩

/-- **Every strip that differs is selected.** -/
theorem mem_damageStripCoords (hw : g.stripW ∣ pw) (hh : g.stripH ∣ ph) {old new : List UInt64}
    (hr : changedStripRects g pw ph old new = some rects) {tx ty : ℕ} (htx : tx < pw / g.stripW)
    (hty : ty < ph / g.stripH)
    (hne : old[ty * (pw / g.stripW) + tx]? ≠ new[ty * (pw / g.stripW) + tx]?) :
    (tx * g.stripW, ty * g.stripH) ∈ damageStripCoords g pw ph rects :=
  mem_damageStripCoords_of_macro hw hh htx hty (changedStripRects_covers hr htx hty hne)

/-- **Without a rectangle no strip differs.** -/
theorem changedStripRects_nil {old new : List UInt64}
    (hr : changedStripRects g pw ph old new = some []) {tx ty : ℕ} (htx : tx < pw / g.stripW)
    (hty : ty < ph / g.stripH) :
    old[ty * (pw / g.stripW) + tx]? = new[ty * (pw / g.stripW) + tx]? := by
  by_contra hne
  obtain ⟨r, hmem, -⟩ := changedStripRects_covers hr htx hty hne
  cases hmem

/-- Nothing differs from itself. -/
theorem changedStripRects_self {hashes : List UInt64}
    (hlength : hashes.length = pw / g.stripW * (ph / g.stripH)) :
    changedStripRects g pw ph hashes hashes = some [] := by
  have htouched : ∀ my, touched g pw ph hashes hashes my = fun _ => false := by
    intro my
    funext mx
    simp [touched]
  have hrows : ∀ rows, rowRects g pw ph hashes hashes rows = some [] := by
    intro rows
    unfold rowRects
    simp only [htouched, bandRuns_none, List.foldlM_nil]
    generalize List.range rows = l
    induction l with
    | nil => rfl
    | cons _ l ih => simpa using ih
  rw [changedStripRects, if_pos ⟨hlength, rfl⟩, hrows]
  rfl

end Vino.Kms.Selection
