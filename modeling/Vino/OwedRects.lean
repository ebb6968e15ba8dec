import Vino.Damage

/-!
# The Rectangles of the Owing Strips

The owing strips of a band are cut into maximal runs, and a run is joined to the rectangle above it
if there is one of the same span that ends where the band begins.  So a rectangle stands for a stack
of bands with one run in common, as high as it can be.

* `owed_rects_exact`: the rectangles are made of whole strips of the surface, are disjoint and at
  most `maxRects`, and cover exactly the strips that owe; there is no answer exactly when there are
  more than `maxRects` stacks.
-/

namespace Vino.OwedRects

open Vino.Haar.Strip Vino.Scanout Vino.Damage

/-! ### The runs of a band -/

/-- The columns `[a, b)` owe, and the columns beside them do not. -/
def IsRun (owes : ℕ → Bool) (n a b : ℕ) : Prop :=
  a < b ∧ b ≤ n ∧ (∀ x < b, a ≤ x → owes x = true) ∧ (a = 0 ∨ owes (a - 1) = false) ∧
    (b = n ∨ owes b = false)

instance (owes : ℕ → Bool) (n a b : ℕ) : Decidable (IsRun owes n a b) :=
  inferInstanceAs (Decidable (_ ∧ _))

section Runs

variable {owes : ℕ → Bool} {n : ℕ}

/-- A column is in one run at most. -/
theorem isRun_unique {r s : ℕ × ℕ} {x : ℕ} (hr : IsRun owes n r.1 r.2) (hs : IsRun owes n s.1 s.2)
    (hxr : r.1 ≤ x ∧ x < r.2) (hxs : s.1 ≤ x ∧ x < s.2) : r = s := by
  have hside : ∀ {p q : ℕ × ℕ}, IsRun owes n p.1 p.2 → IsRun owes n q.1 q.2 → p.1 ≤ x ∧ x < p.2 →
      q.1 ≤ x ∧ x < q.2 → q.1 ≤ p.1 ∧ p.2 ≤ q.2 := by
    rintro p q ⟨-, hpn, hp, -, -⟩ ⟨-, hqn, hq, hleft, hright⟩ hxp hxq
    constructor
    · by_contra hlt
      rcases hleft with hzero | hout
      · omega
      · rw [hp (q.1 - 1) (by omega) (by omega)] at hout
        cases hout
    · by_contra hlt
      rcases hright with hend | hout
      · omega
      · rw [hp q.2 (by omega) (by omega)] at hout
        cases hout
  obtain ⟨h1, h2⟩ := hside hr hs hxr hxs
  obtain ⟨h3, h4⟩ := hside hs hr hxs hxr
  exact Prod.ext (by omega) (by omega)

/-- **The next run**: the first owing column, and the first behind it that does not owe. -/
theorem nextRun_spec {t s e : ℕ} (h : nextRun owes n t = some (s, e)) :
    (t ≤ s ∧ s < e ∧ e ≤ n) ∧ (∀ x < s, t ≤ x → owes x = false) ∧
      (∀ x < e, s ≤ x → owes x = true) ∧ (e = n ∨ owes e = false) := by
  unfold nextRun at h
  cases hstart : (List.range' t (n - t)).find? owes with
  | none =>
      rw [hstart] at h
      cases h
  | some start =>
      rw [hstart] at h
      simp only [Option.some_inj, Prod.mk.injEq] at h
      obtain ⟨rfl, hstop⟩ := h
      obtain ⟨⟨hts, hsn, howes⟩, hbefore⟩ := find?_range'_spec hstart
      cases hfind : (List.range' start (n - start)).find? fun x => !owes x with
      | none =>
          rw [hfind] at hstop
          obtain rfl : n = e := hstop
          refine ⟨⟨hts, by omega, le_rfl⟩, fun x hx ht => hbefore x ht hx, fun x hx hsx => ?_,
            .inl rfl⟩
          have hall := List.find?_eq_none.1 hfind x (List.mem_range'_1.2 ⟨hsx, by omega⟩)
          simpa using hall
      | some stop =>
          rw [hfind] at hstop
          obtain rfl : stop = e := hstop
          obtain ⟨⟨hs, hn, hnot⟩, hrun⟩ := find?_range'_spec hfind
          have hne : start ≠ stop := by
            rintro rfl
            rw [howes] at hnot
            cases hnot
          refine ⟨⟨hts, by omega, by omega⟩, fun x hx ht => hbefore x ht hx, fun x hx hsx => ?_,
            .inr (by simpa using hnot)⟩
          simpa using hrun x hsx hx

theorem nextRun_none {t : ℕ} (h : nextRun owes n t = none) : ∀ x < n, t ≤ x → owes x = false := by
  unfold nextRun at h
  cases hstart : (List.range' t (n - t)).find? owes with
  | none =>
      intro x hx ht
      simpa using List.find?_eq_none.1 hstart x (List.mem_range'_1.2 ⟨ht, by omega⟩)
  | some start =>
      rw [hstart] at h
      cases h

/-- The runs from a column on are the maximal ones. -/
theorem mem_bandRuns_from (a b : ℕ) : ∀ fuel t, n ≤ fuel + t →
    ((a, b) ∈ bandRuns owes n fuel t ↔ t ≤ a ∧ a < b ∧ b ≤ n ∧ (∀ x < b, a ≤ x → owes x = true) ∧
      (a = t ∨ owes (a - 1) = false) ∧ (b = n ∨ owes b = false)) := by
  intro fuel
  induction fuel with
  | zero =>
      intro t hn
      refine iff_of_false List.not_mem_nil ?_
      rintro ⟨h1, h2, h3, -⟩
      omega
  | succ fuel ih =>
      intro t hn
      unfold bandRuns
      cases hnext : nextRun owes n t with
      | none =>
          have hnone := nextRun_none hnext
          refine iff_of_false List.not_mem_nil ?_
          rintro ⟨hta, hab, hbn, howes, -⟩
          have := howes a hab le_rfl
          rw [hnone a (by omega) hta] at this
          cases this
      | some run =>
          obtain ⟨s, e⟩ := run
          obtain ⟨⟨hts, hse, hen⟩, hbefore, hin, hend⟩ := nextRun_spec hnext
          simp only [List.mem_cons, Prod.mk.injEq, ih e (by omega)]
          constructor
          · rintro (⟨rfl, rfl⟩ | ⟨hea, hab, hbn, howes, hleft, hright⟩)
            · refine ⟨hts, hse, hen, hin, ?_, hend⟩
              rcases Nat.eq_or_lt_of_le hts with heq | hlt
              · exact .inl heq.symm
              · exact .inr (hbefore _ (by omega) (by omega))
            · refine ⟨by omega, hab, hbn, howes, .inr ?_, hright⟩
              rcases hleft with rfl | hleft
              · rcases hend with rfl | hend
                · omega
                · rw [howes a hab le_rfl] at hend
                  cases hend
              · exact hleft
          · rintro ⟨hta, hab, hbn, howes, hleft, hright⟩
            rcases Nat.lt_trichotomy a s with hlt | rfl | hlt
            · have := howes a hab le_rfl
              rw [hbefore a hlt hta] at this
              cases this
            · refine .inl ⟨rfl, ?_⟩
              rcases Nat.lt_trichotomy b e with hb | rfl | hb
              · rcases hright with rfl | hright
                · omega
                · rw [hin b hb (by omega)] at hright
                  cases hright
              · rfl
              · rcases hend with rfl | hend
                · omega
                · rw [howes e hb (by omega)] at hend
                  cases hend
            · have hne : a ≠ t := by omega
              have hbefore' := hleft.resolve_left hne
              refine .inr ⟨?_, hab, hbn, howes, .inr hbefore', hright⟩
              by_contra hea
              rw [hin (a - 1) (by omega) (by omega)] at hbefore'
              cases hbefore'

theorem mem_bandRuns_iff {r : ℕ × ℕ} :
    r ∈ bandRuns owes n (n + 1) 0 ↔ IsRun owes n r.1 r.2 := by
  rw [← Prod.mk.eta (p := r), mem_bandRuns_from r.1 r.2 (n + 1) 0 (by omega), IsRun]
  simp only [Nat.zero_le, true_and]

/-- Runs stand from left to right. -/
theorem bandRuns_pairwise : ∀ fuel t, n ≤ fuel + t →
    (bandRuns owes n fuel t).Pairwise fun r s => r.2 ≤ s.1 := by
  intro fuel
  induction fuel with
  | zero => exact fun t _ => List.Pairwise.nil
  | succ fuel ih =>
      intro t hn
      unfold bandRuns
      cases hnext : nextRun owes n t with
      | none => exact List.Pairwise.nil
      | some run =>
          obtain ⟨s, e⟩ := run
          have hse := (nextRun_spec hnext).1
          refine List.pairwise_cons.2 ⟨fun r hr => ?_, ih e (by omega)⟩
          exact ((mem_bandRuns_from r.1 r.2 fuel e (by omega)).1 hr).1

end Runs

/-! ### Stacks of runs -/

section Stacks

variable {runs : ℕ → List (ℕ × ℕ)} {rects rects' : List Clip} {m : ℕ} {ps : List (ℕ × ℕ)}

/-- The band a rectangle begins in, and its span, in units of tiles. -/
def corner (r : Clip) : ℕ × ℕ × ℕ := (r.2.1, r.1, r.2.2.1)

/-- A stack begins with a run that the band above does not have. -/
def Starts (runs : ℕ → List (ℕ × ℕ)) (s : ℕ × ℕ × ℕ) : Prop :=
  s.2 ∈ runs s.1 ∧ (s.1 = 0 ∨ s.2 ∉ runs (s.1 - 1))

/-- **The stacks so far**, of the bands above `m` and of the runs `ps` of band `m`. -/
structure Merged (runs : ℕ → List (ℕ × ℕ)) (m : ℕ) (ps : List (ℕ × ℕ)) (rects : List Clip) :
    Prop where
  run : ∀ r ∈ rects, ∀ y, r.2.1 ≤ y → y < r.2.2.2 → (r.1, r.2.2.1) ∈ runs y
  tall : ∀ r ∈ rects, r.2.1 < r.2.2.2
  starts : ∀ r ∈ rects, Starts runs (corner r)
  ends : ∀ r ∈ rects, r.2.2.2 ≤ m ∨ r.2.2.2 = m + 1 ∧ (r.1, r.2.2.1) ∈ ps
  covers : ∀ y p, p ∈ runs y → y < m ∨ y = m ∧ p ∈ ps →
    ∃ r ∈ rects, (r.1, r.2.2.1) = p ∧ r.2.1 ≤ y ∧ y < r.2.2.2
  distinct : (rects.map corner).Nodup
  few : rects.length ≤ maxRects

variable (rects) in
/-- A rectangle that ends where the run begins is grown, if there is one. -/
theorem growRect_spec (x0 x1 y0 y1 : ℕ) :
    (growRect rects x0 x1 y0 y1 = none ∧
        ∀ r ∈ rects, ¬(r.1 = x0 ∧ r.2.2.1 = x1 ∧ r.2.2.2 = y0)) ∨
      ∃ before r behind, rects = before ++ r :: behind ∧
        r.1 = x0 ∧ r.2.2.1 = x1 ∧ r.2.2.2 = y0 ∧
        growRect rects x0 x1 y0 y1 =
          some (before ++ (r.1, r.2.1, r.2.2.1, y1) :: behind) := by
  induction rects with
  | nil => exact .inl ⟨rfl, fun r hr => by cases hr⟩
  | cons r rects ih =>
      rcases ih with ⟨hnone, hall⟩ | ⟨before, q, behind, rfl, h1, h2, h3, hsome⟩
      · by_cases hmatch : r.1 = x0 ∧ r.2.2.1 = x1 ∧ r.2.2.2 = y0
        · refine .inr ⟨[], r, rects, rfl, hmatch.1, hmatch.2.1, hmatch.2.2, ?_⟩
          simp only [growRect, hnone, if_pos hmatch, List.nil_append]
        · refine .inl ⟨by simp only [growRect, hnone, if_neg hmatch], fun q hq => ?_⟩
          rcases List.mem_cons.1 hq with rfl | hq
          · exact hmatch
          · exact hall q hq
      · exact .inr ⟨r :: before, q, behind, rfl, h1, h2, h3, by simp only [growRect, hsome]; rfl⟩

/-- A run of the band above ends a rectangle there. -/
theorem Merged.exists_above (h : Merged runs m ps rects) {p : ℕ × ℕ} (hp : p ∉ ps) (hm : m ≠ 0)
    (habove : p ∈ runs (m - 1)) : ∃ r ∈ rects, r.1 = p.1 ∧ r.2.2.1 = p.2 ∧ r.2.2.2 = m := by
  obtain ⟨r, hr, hspan, htop, hbottom⟩ := h.covers (m - 1) p habove (.inl (by omega))
  refine ⟨r, hr, congrArg Prod.fst hspan, congrArg Prod.snd hspan, ?_⟩
  rcases h.ends r hr with hle | ⟨-, hmem⟩
  · omega
  · rw [hspan] at hmem
    exact absurd hmem hp

/-- A run begins a stack. -/
theorem Merged.push (h : Merged runs m ps rects) {p : ℕ × ℕ} (hp : p ∈ runs m)
    (hstarts : Starts runs (m, p)) (hnew : (m, p) ∉ rects.map corner)
    (hfull : rects.length ≠ maxRects) :
    Merged runs m (ps ++ [p]) (rects ++ [(p.1, m, p.2, m + 1)]) := by
  have hfew := h.few
  have hmem : ∀ {P : Clip → Prop}, (∀ r ∈ rects, P r) → P (p.1, m, p.2, m + 1) →
      ∀ r ∈ rects ++ [(p.1, m, p.2, m + 1)], P r := by
    intro P hold hlast r hr
    rcases List.mem_append.1 hr with hr | hr
    · exact hold r hr
    · rw [List.mem_singleton.1 hr]
      exact hlast
  constructor
  · refine hmem h.run fun y hy hy' => ?_
    obtain rfl : m = y := by
      dsimp only at hy hy'
      omega
    exact hp
  · exact hmem h.tall (Nat.lt_succ_self m)
  · exact hmem h.starts hstarts
  · refine hmem (fun r hr => ?_) (.inr ⟨rfl, List.mem_append_right _ List.mem_cons_self⟩)
    exact (h.ends r hr).imp_right fun hend => ⟨hend.1, List.mem_append_left _ hend.2⟩
  · intro y p' hp' hy
    have hold : y < m ∨ y = m ∧ p' ∈ ps →
        ∃ r ∈ rects ++ [(p.1, m, p.2, m + 1)], (r.1, r.2.2.1) = p' ∧ r.2.1 ≤ y ∧ y < r.2.2.2 := by
      intro hy
      obtain ⟨r, hr, hin⟩ := h.covers y p' hp' hy
      exact ⟨r, List.mem_append_left _ hr, hin⟩
    rcases hy with hy | ⟨rfl, hy⟩
    · exact hold (.inl hy)
    · rcases List.mem_append.1 hy with hy | hy
      · exact hold (.inr ⟨rfl, hy⟩)
      · rw [List.mem_singleton.1 hy]
        exact ⟨_, List.mem_append_right _ List.mem_cons_self, rfl, le_rfl, Nat.lt_succ_self y⟩
  · rw [List.map_append, List.map_singleton]
    have hnodup := h.distinct.concat hnew
    rwa [List.concat_eq_append] at hnodup
  · rw [List.length_append, List.length_singleton]
    omega

/-- A run joins the stack above it. -/
theorem Merged.grow {before behind : List Clip} {r : Clip}
    (h : Merged runs m ps (before ++ r :: behind)) {p : ℕ × ℕ} (hp : p ∈ runs m)
    (hspan : (r.1, r.2.2.1) = p) (hend : r.2.2.2 = m) :
    Merged runs m (ps ++ [p]) (before ++ (r.1, r.2.1, r.2.2.1, m + 1) :: behind) := by
  have hr : r ∈ before ++ r :: behind := List.mem_append_right _ List.mem_cons_self
  have htall := h.tall r hr
  have hmem : ∀ {P : Clip → Prop}, (∀ q ∈ before ++ r :: behind, P q) →
      P (r.1, r.2.1, r.2.2.1, m + 1) →
      ∀ q ∈ before ++ (r.1, r.2.1, r.2.2.1, m + 1) :: behind, P q := by
    intro P hold hgrown q hq
    rcases List.mem_append.1 hq with hq | hq
    · exact hold q (List.mem_append_left _ hq)
    · rcases List.mem_cons.1 hq with rfl | hq
      · exact hgrown
      · exact hold q (List.mem_append_right _ (List.mem_cons_of_mem r hq))
  have hgrown : (r.1, r.2.1, r.2.2.1, m + 1) ∈
      before ++ (r.1, r.2.1, r.2.2.1, m + 1) :: behind :=
    List.mem_append_right _ List.mem_cons_self
  constructor
  · refine hmem h.run fun y hy hy' => ?_
    rcases Nat.lt_or_ge y m with hlt | hge
    · exact h.run r hr y hy (by omega)
    · obtain rfl : m = y := by
        dsimp only at hy'
        omega
      rw [hspan]
      exact hp
  · refine hmem h.tall ?_
    dsimp only
    omega
  · exact hmem h.starts (h.starts r hr)
  · refine hmem (fun q hq => ?_) (.inr ⟨rfl, ?_⟩)
    · exact (h.ends q hq).imp_right fun hq => ⟨hq.1, List.mem_append_left _ hq.2⟩
    · rw [hspan]
      exact List.mem_append_right _ List.mem_cons_self
  · intro y p' hp' hy
    have hold : y < m ∨ y = m ∧ p' ∈ ps →
        ∃ q ∈ before ++ (r.1, r.2.1, r.2.2.1, m + 1) :: behind,
          (q.1, q.2.2.1) = p' ∧ q.2.1 ≤ y ∧ y < q.2.2.2 := by
      intro hy
      obtain ⟨q, hq, hin, htop, hbottom⟩ := h.covers y p' hp' hy
      rcases List.mem_append.1 hq with hq | hq
      · exact ⟨q, List.mem_append_left _ hq, hin, htop, hbottom⟩
      · rcases List.mem_cons.1 hq with rfl | hq
        · refine ⟨_, hgrown, hin, htop, ?_⟩
          dsimp only
          omega
        · exact ⟨q, List.mem_append_right _ (List.mem_cons_of_mem _ hq), hin, htop, hbottom⟩
    rcases hy with hy | ⟨rfl, hy⟩
    · exact hold (.inl hy)
    · rcases List.mem_append.1 hy with hy | hy
      · exact hold (.inr ⟨rfl, hy⟩)
      · rw [List.mem_singleton.1 hy]
        refine ⟨_, hgrown, hspan, ?_, Nat.lt_succ_self y⟩
        dsimp only
        omega
  · have hsame : (before ++ (r.1, r.2.1, r.2.2.1, m + 1) :: behind).map corner =
        (before ++ r :: behind).map corner := by
      rw [List.map_append, List.map_append, List.map_cons, List.map_cons]
      rfl
    rw [hsame]
    exact h.distinct
  · have hfew := h.few
    rw [List.length_append, List.length_cons] at hfew ⊢
    exact hfew

/-- **One run**: it joins the stack above it, or begins one, unless there are too many. -/
theorem Merged.addRect (h : Merged runs m ps rects) {p : ℕ × ℕ} (hp : p ∈ runs m) (hps : p ∉ ps) :
    (∃ rects', Scanout.addRect 1 1 m rects p = some rects' ∧ Merged runs m (ps ++ [p]) rects') ∨
      Scanout.addRect 1 1 m rects p = none ∧ rects.length = maxRects ∧ Starts runs (m, p) ∧
        (m, p) ∉ rects.map corner := by
  have hunit : Scanout.addRect 1 1 m rects p = (growRect rects p.1 p.2 m (m + 1)).or
      (if rects.length = maxRects then none else some (rects ++ [(p.1, m, p.2, m + 1)])) := by
    rw [Scanout.addRect, Nat.mul_one, Nat.mul_one, Nat.mul_one]
    cases growRect rects p.1 p.2 m (m + 1) <;> rfl
  rw [hunit]
  rcases growRect_spec rects p.1 p.2 m (m + 1) with
    ⟨hnone, hall⟩ | ⟨before, r, behind, rfl, h1, h2, h3, hsome⟩
  · have hstarts : Starts runs (m, p) := by
      refine ⟨hp, ?_⟩
      by_contra hno
      rw [not_or, not_not] at hno
      obtain ⟨r, hr, h1, h2, h3⟩ := h.exists_above hps hno.1 hno.2
      exact hall r hr ⟨h1, h2, h3⟩
    have hnew : (m, p) ∉ rects.map corner := by
      intro hmem
      obtain ⟨r, hr, hcorner⟩ := List.mem_map.1 hmem
      have htop : r.2.1 = m := congrArg Prod.fst hcorner
      have hspan : (r.1, r.2.2.1) = p := congrArg Prod.snd hcorner
      have htall := h.tall r hr
      rcases h.ends r hr with hle | ⟨-, hmem⟩
      · omega
      · rw [hspan] at hmem
        exact hps hmem
    rw [hnone]
    by_cases hfull : rects.length = maxRects
    · exact .inr ⟨if_pos hfull, hfull, hstarts, hnew⟩
    · exact .inl ⟨_, if_neg hfull, h.push hp hstarts hnew hfull⟩
  · rw [hsome]
    exact .inl ⟨_, rfl, h.grow hp (Prod.ext h1 h2) h3⟩

/-- There are too many stacks in the bands up to `m`. -/
def Crowded (runs : ℕ → List (ℕ × ℕ)) (m : ℕ) : Prop :=
  ∃ l : List (ℕ × ℕ × ℕ), l.Nodup ∧ l.length = maxRects + 1 ∧
    ∀ s ∈ l, Starts runs s ∧ s.1 ≤ m

/-- Every rectangle begins in a band that has been dealt with. -/
theorem Merged.corner_le (h : Merged runs m ps rects) : ∀ s ∈ rects.map corner, s.1 ≤ m := by
  intro s hs
  obtain ⟨r, hr, rfl⟩ := List.mem_map.1 hs
  have htall := h.tall r hr
  have hbegin : (corner r).1 = r.2.1 := rfl
  rcases h.ends r hr with hend | ⟨hend, -⟩ <;> omega

/-- **One band.** -/
theorem Merged.band (hdistinct : (runs m).Nodup) :
    ∀ (rest ps : List (ℕ × ℕ)) (rects : List Clip), runs m = ps ++ rest →
      Merged runs m ps rects →
      (∃ rects', rest.foldlM (Scanout.addRect 1 1 m) rects = some rects' ∧
        Merged runs m (runs m) rects') ∨
      rest.foldlM (Scanout.addRect 1 1 m) rects = none ∧ Crowded runs m
  | [], ps, rects, hsplit, h => by
      rw [List.append_nil] at hsplit
      exact .inl ⟨rects, rfl, hsplit ▸ h⟩
  | p :: rest, ps, rects, hsplit, h => by
      have hp : p ∈ runs m := by
        rw [hsplit]
        exact List.mem_append_right _ List.mem_cons_self
      have hps : p ∉ ps := by
        rw [hsplit] at hdistinct
        intro hmem
        exact (List.nodup_append.1 hdistinct).2.2 p hmem p List.mem_cons_self rfl
      rcases h.addRect hp hps with ⟨rects', hadd, h'⟩ | ⟨hadd, hfull, hstarts, hnew⟩
      · rw [List.foldlM_cons, hadd]
        exact Merged.band hdistinct rest (ps ++ [p]) rects' (by rw [hsplit]; simp) h'
      · refine .inr ⟨by rw [List.foldlM_cons, hadd]; rfl, rects.map corner ++ [(m, p)], ?_, ?_, ?_⟩
        · have hnodup := h.distinct.concat hnew
          rwa [List.concat_eq_append] at hnodup
        · rw [List.length_append, List.length_map, hfull, List.length_singleton]
        · intro s hs
          rcases List.mem_append.1 hs with hs | hs
          · obtain ⟨r, hr, rfl⟩ := List.mem_map.1 hs
            exact ⟨h.starts r hr, h.corner_le _ hs⟩
          · rw [List.mem_singleton.1 hs]
            exact ⟨hstarts, le_rfl⟩

/-- A band that is dealt with is one of the bands above. -/
theorem Merged.next (h : Merged runs m (runs m) rects) : Merged runs (m + 1) [] rects where
  run := h.run
  tall := h.tall
  starts := h.starts
  ends := fun r hr => by
    rcases h.ends r hr with hend | ⟨hend, -⟩
    · exact .inl (by omega)
    · exact .inl hend.le
  covers := fun y p hp hy => by
    refine h.covers y p hp ?_
    rcases hy with hy | ⟨-, hy⟩
    · rcases Nat.lt_or_ge y m with hlt | hge
      · exact .inl hlt
      · obtain rfl : y = m := by omega
        exact .inr ⟨rfl, hp⟩
    · cases hy
  distinct := h.distinct
  few := h.few

/-- **All bands.** -/
theorem merged_bands (hdistinct : ∀ y, (runs y).Nodup) : ∀ m,
    (∃ rects, (List.range m).foldlM (fun rects y =>
      (runs y).foldlM (Scanout.addRect 1 1 y) rects) [] = some rects ∧ Merged runs m [] rects) ∨
    (List.range m).foldlM (fun rects y =>
      (runs y).foldlM (Scanout.addRect 1 1 y) rects) [] = none ∧ ∃ y < m, Crowded runs y
  | 0 => by
      refine .inl ⟨[], rfl, ?_⟩
      refine ⟨?_, ?_, ?_, ?_, ?_, List.nodup_nil, Nat.zero_le _⟩
      · simp
      · simp
      · simp
      · simp
      · rintro y p - (hy | ⟨-, hy⟩)
        · omega
        · cases hy
  | m + 1 => by
      rw [List.range_succ, List.foldlM_append]
      rcases merged_bands hdistinct m with ⟨rects, hrects, h⟩ | ⟨hnone, y, hy, hcrowd⟩
      · rw [hrects]
        rcases Merged.band (hdistinct m) (runs m) [] rects rfl h with
          ⟨rects', hband, h'⟩ | ⟨hband, hcrowd⟩
        · refine .inl ⟨rects', ?_, h'.next⟩
          simp only [Option.bind_eq_bind, Option.bind_some, List.foldlM_cons, List.foldlM_nil, hband]
          rfl
        · refine .inr ⟨?_, m, Nat.lt_succ_self m, hcrowd⟩
          simp only [Option.bind_eq_bind, Option.bind_some, List.foldlM_cons, hband]
          rfl
      · refine .inr ⟨?_, y, by omega, hcrowd⟩
        rw [hnone]
        rfl

end Stacks

/-! ### Tiles and pixels -/

/-- A rectangle of tiles, in pixels. -/
def scale (stripW stripH : ℕ) (r : Clip) : Clip :=
  (r.1 * stripW, r.2.1 * stripH, r.2.2.1 * stripW, r.2.2.2 * stripH)

section Scale

variable {W H : ℕ} (hW : 0 < W) (hH : 0 < H)
include hW hH

theorem growRect_scale (rects : List Clip) (x0 x1 y0 y1 : ℕ) :
    growRect (rects.map (scale W H)) (x0 * W) (x1 * W) (y0 * H) (y1 * H) =
      (growRect rects x0 x1 y0 y1).map (List.map (scale W H)) := by
  induction rects with
  | nil => rfl
  | cons r rects ih =>
      have hmatch : (scale W H r).1 = x0 * W ∧ (scale W H r).2.2.1 = x1 * W ∧
          (scale W H r).2.2.2 = y0 * H ↔ r.1 = x0 ∧ r.2.2.1 = x1 ∧ r.2.2.2 = y0 := by
        simp only [scale, Nat.mul_right_cancel_iff hW, Nat.mul_right_cancel_iff hH]
      rw [List.map_cons, growRect, ih, growRect]
      cases growRect rects x0 x1 y0 y1 with
      | some rects' => rfl
      | none =>
          simp only [Option.map_none, if_congr hmatch rfl rfl]
          split_ifs <;> rfl

theorem addRect_scale (m : ℕ) (rects : List Clip) (p : ℕ × ℕ) :
    addRect W H m (rects.map (scale W H)) p =
      (addRect 1 1 m rects p).map (List.map (scale W H)) := by
  have hgrow := growRect_scale hW hH rects p.1 p.2 m (m + 1)
  rw [Nat.add_mul, Nat.one_mul] at hgrow
  simp only [addRect, hgrow, Nat.mul_one, List.length_map]
  cases growRect rects p.1 p.2 m (m + 1) with
  | some rects' => rfl
  | none =>
      dsimp only [Option.map_none]
      split_ifs
      · rfl
      · simp only [Option.map_some, List.map_append, List.map_cons, List.map_nil, scale,
          Nat.add_mul, Nat.one_mul]

omit hW hH in
theorem foldlM_scale {α : Type} {f f' : List Clip → α → Option (List Clip)}
    (hf : ∀ rects a, f (rects.map (scale W H)) a = (f' rects a).map (List.map (scale W H))) :
    ∀ (l : List α) (rects : List Clip), l.foldlM f (rects.map (scale W H)) =
      (l.foldlM f' rects).map (List.map (scale W H))
  | [], rects => rfl
  | a :: l, rects => by
      rw [List.foldlM_cons, List.foldlM_cons, hf]
      cases f' rects a with
      | none => rfl
      | some rects' => exact foldlM_scale hf l rects'

/-- The rectangles are those of a grid of unit tiles. -/
theorem owedRects_scale (debt : List ℕ) (tilesX tilesY : ℕ) :
    owedRects debt tilesX tilesY W H =
      (owedRects debt tilesX tilesY 1 1).map (List.map (scale W H)) :=
  foldlM_scale (fun rects ty => foldlM_scale (addRect_scale hW hH ty) _ rects) _ []

end Scale

/-! ### The owing strips -/

section Debt

variable (debt : List ℕ) (tilesX tilesY : ℕ)

/-- Whether a tile owes. -/
def owes (ty tx : ℕ) : Bool := decide (0 < debt.getD (ty * tilesX + tx) 0)

/-- **The stacks of runs**: a band and a span, which is a run of that band and not of the band
above. -/
def runStacks : Finset (ℕ × ℕ × ℕ) :=
  (Finset.range tilesY ×ˢ Finset.range (tilesX + 1) ×ˢ Finset.range (tilesX + 1)).filter fun s =>
    IsRun (owes debt tilesX s.1) tilesX s.2.1 s.2.2 ∧
      (s.1 = 0 ∨ ¬IsRun (owes debt tilesX (s.1 - 1)) tilesX s.2.1 s.2.2)

/-- The runs of each band. -/
def bands (ty : ℕ) : List (ℕ × ℕ) := bandRuns (owes debt tilesX ty) tilesX (tilesX + 1) 0

variable {debt} {tilesX} {tilesY}

theorem mem_bands {ty : ℕ} {r : ℕ × ℕ} :
    r ∈ bands debt tilesX ty ↔ IsRun (owes debt tilesX ty) tilesX r.1 r.2 := mem_bandRuns_iff

theorem bands_pairwise (ty : ℕ) : (bands debt tilesX ty).Pairwise fun r s => r.2 ≤ s.1 :=
  bandRuns_pairwise _ _ (by omega)

theorem bands_nodup (ty : ℕ) : (bands debt tilesX ty).Nodup := by
  refine (bands_pairwise ty).imp_of_mem fun hr _ hle heq => ?_
  have hlt := (mem_bands.1 hr).1
  subst heq
  omega

theorem mem_stacks {s : ℕ × ℕ × ℕ} :
    s ∈ runStacks debt tilesX tilesY ↔ s.1 < tilesY ∧ Starts (bands debt tilesX) s := by
  rw [runStacks, Finset.mem_filter, Finset.mem_product, Finset.mem_product, Finset.mem_range,
    Finset.mem_range, Finset.mem_range, Starts, mem_bands, mem_bands]
  constructor
  · rintro ⟨⟨hy, -, -⟩, hstart⟩
    exact ⟨hy, hstart⟩
  · rintro ⟨hy, hrun, hstart⟩
    have hlt := hrun.1
    have hle := hrun.2.1
    exact ⟨⟨hy, by omega, by omega⟩, hrun, hstart⟩

/-- The rectangles are as many as the stacks. -/
theorem card_stacks {rects : List Clip} (h : Merged (bands debt tilesX) tilesY [] rects) :
    (runStacks debt tilesX tilesY).card = rects.length := by
  have hset : runStacks debt tilesX tilesY = (rects.map corner).toFinset := by
    ext s
    rw [mem_stacks, List.mem_toFinset]
    constructor
    · rintro ⟨hy, hmem, hstart⟩
      obtain ⟨r, hr, hspan, htop, hbottom⟩ := h.covers s.1 s.2 hmem (.inl hy)
      refine List.mem_map.2 ⟨r, hr, Prod.ext ?_ hspan⟩
      -- a run that goes on would not begin a stack
      by_contra hne
      have hlt : r.2.1 < s.1 := Nat.lt_of_le_of_ne htop hne
      have habove := h.run r hr (s.1 - 1) (by omega) (by omega)
      rw [hspan] at habove
      rcases hstart with hzero | hnot
      · omega
      · exact hnot habove
    · intro hs
      obtain ⟨r, hr, rfl⟩ := List.mem_map.1 hs
      refine ⟨?_, h.starts r hr⟩
      have htall := h.tall r hr
      have hbegin : (corner r).1 = r.2.1 := rfl
      rcases h.ends r hr with hend | ⟨-, hmem⟩
      · omega
      · cases hmem
  rw [hset, List.toFinset_card_of_nodup h.distinct, List.length_map]

theorem lt_card_of_crowded {ty : ℕ} (hy : ty < tilesY) (h : Crowded (bands debt tilesX) ty) :
    maxRects < (runStacks debt tilesX tilesY).card := by
  obtain ⟨l, hnodup, hlen, hall⟩ := h
  have hsub : l.toFinset ⊆ runStacks debt tilesX tilesY := by
    intro s hs
    obtain ⟨hstarts, hle⟩ := hall s (List.mem_toFinset.1 hs)
    exact mem_stacks.2 ⟨by omega, hstarts⟩
  have hcard := Finset.card_le_card hsub
  rw [List.toFinset_card_of_nodup hnodup, hlen] at hcard
  omega

/-- Every owing tile is in a run. -/
theorem exists_run {ty tx : ℕ} (htx : tx < tilesX) (ho : owes debt tilesX ty tx = true) :
    ∃ r ∈ bands debt tilesX ty, r.1 ≤ tx ∧ tx < r.2 :=
  bandRuns_covers _ ho htx _ _ (Nat.zero_le _) (by omega)

/-- **The unit rectangles cover what owes.** -/
theorem Merged.covers_iff {rects : List Clip} (h : Merged (bands debt tilesX) tilesY [] rects)
    {tx ty : ℕ} : Covers rects tx ty ↔
      tx < tilesX ∧ ty < tilesY ∧ owes debt tilesX ty tx = true := by
  constructor
  · rintro ⟨r, hr, hleft, hright, htop, hbottom⟩
    have hrun := mem_bands.1 (h.run r hr ty htop hbottom)
    have hend : r.2.2.2 ≤ tilesY := by
      rcases h.ends r hr with hend | ⟨-, hmem⟩
      · exact hend
      · cases hmem
    exact ⟨lt_of_lt_of_le hright hrun.2.1, by omega, hrun.2.2.1 tx hright hleft⟩
  · rintro ⟨htx, hty, ho⟩
    obtain ⟨p, hp, hleft, hright⟩ := exists_run htx ho
    obtain ⟨r, hr, rfl, htop, hbottom⟩ := h.covers ty p hp (.inl hty)
    exact ⟨r, hr, hleft, hright, htop, hbottom⟩

/-- Rectangles of one band have one span, so they are one stack. -/
theorem Merged.disjoint {rects : List Clip} (h : Merged (bands debt tilesX) tilesY [] rects)
    {r s : Clip} (hr : r ∈ rects) (hs : s ∈ rects) {tx ty : ℕ}
    (hrin : r.1 ≤ tx ∧ tx < r.2.2.1 ∧ r.2.1 ≤ ty ∧ ty < r.2.2.2)
    (hsin : s.1 ≤ tx ∧ tx < s.2.2.1 ∧ s.2.1 ≤ ty ∧ ty < s.2.2.2) : corner r = corner s := by
  have hrun := fun y => h.run r hr y
  have hrun' := fun y => h.run s hs y
  have hspan : (r.1, r.2.2.1) = (s.1, s.2.2.1) :=
    isRun_unique (mem_bands.1 (hrun ty hrin.2.2.1 hrin.2.2.2))
      (mem_bands.1 (hrun' ty hsin.2.2.1 hsin.2.2.2)) ⟨hrin.1, hrin.2.1⟩ ⟨hsin.1, hsin.2.1⟩
  refine Prod.ext ?_ hspan
  change r.2.1 = s.2.1
  rcases Nat.lt_trichotomy r.2.1 s.2.1 with hlt | heq | hlt
  · rcases (h.starts s hs).2 with hzero | hnot
    · change s.2.1 = 0 at hzero
      omega
    · refine absurd (hrun (s.2.1 - 1) (by omega) (by omega)) ?_
      rw [hspan]
      exact hnot
  · exact heq
  · rcases (h.starts r hr).2 with hzero | hnot
    · change r.2.1 = 0 at hzero
      omega
    · refine absurd (hrun' (r.2.1 - 1) (by omega) (by omega)) ?_
      rw [← hspan]
      exact hnot

/-- The rectangles of unit tiles, or none of them. -/
theorem owedRects_unit (debt : List ℕ) (tilesX tilesY : ℕ) :
    (∃ rects, owedRects debt tilesX tilesY 1 1 = some rects ∧
      Merged (bands debt tilesX) tilesY [] rects) ∨
    owedRects debt tilesX tilesY 1 1 = none ∧
      maxRects < (runStacks debt tilesX tilesY).card := by
  have hdistinct (ty : ℕ) : (bands debt tilesX ty).Nodup := bands_nodup ty
  rcases merged_bands hdistinct tilesY with
    h | ⟨hnone, y, hy, hcrowd⟩
  · exact .inl h
  · exact .inr ⟨hnone, lt_card_of_crowded hy hcrowd⟩

end Debt

/-- The rectangle is made of whole tiles of the surface. -/
structure OnGrid (tilesX tilesY stripW stripH : ℕ) (r : Clip) : Prop where
  left : stripW ∣ r.1
  top : stripH ∣ r.2.1
  right : stripW ∣ r.2.2.1
  bottom : stripH ∣ r.2.2.2
  wide : r.1 < r.2.2.1
  tall : r.2.1 < r.2.2.2
  inside : r.2.2.1 ≤ tilesX * stripW ∧ r.2.2.2 ≤ tilesY * stripH

/-- The pixel lies in the rectangle. -/
def Holds (r : Clip) (x y : ℕ) : Prop := r.1 ≤ x ∧ x < r.2.2.1 ∧ r.2.1 ≤ y ∧ y < r.2.2.2

theorem Merged.onGrid {debt : List ℕ} {tilesX tilesY stripW stripH : ℕ} {units : List Clip}
    (h : Merged (bands debt tilesX) tilesY [] units) (hW : 0 < stripW) (hH : 0 < stripH) {u : Clip}
    (hu : u ∈ units) : OnGrid tilesX tilesY stripW stripH (scale stripW stripH u) := by
  have htall := h.tall u hu
  obtain ⟨hwide, hright, -⟩ := mem_bands.1 (h.run u hu u.2.1 le_rfl htall)
  have hbottom : u.2.2.2 ≤ tilesY := by
    rcases h.ends u hu with hend | ⟨-, hmem⟩
    · exact hend
    · cases hmem
  constructor
  · exact Nat.dvd_mul_left _ _
  · exact Nat.dvd_mul_left _ _
  · exact Nat.dvd_mul_left _ _
  · exact Nat.dvd_mul_left _ _
  · exact Nat.mul_lt_mul_of_pos_right hwide hW
  · exact Nat.mul_lt_mul_of_pos_right htall hH
  · exact ⟨Nat.mul_le_mul_right _ hright, Nat.mul_le_mul_right _ hbottom⟩

section Pixels

variable {W H : ℕ} (hW : 0 < W) (hH : 0 < H)
include hW hH

/-- A rectangle of tiles holds the pixels of its tiles. -/
theorem holds_scale {r : Clip} {x y : ℕ} : Holds (scale W H r) x y ↔ Holds r (x / W) (y / H) := by
  simp only [Holds, scale, Nat.le_div_iff_mul_le hW, Nat.le_div_iff_mul_le hH,
    Nat.div_lt_iff_lt_mul hW, Nat.div_lt_iff_lt_mul hH]

end Pixels

/-- **The rectangles describe the debt.**  They are made of whole strips of the surface, are
disjoint and at most `maxRects`, and a strip lies in one of them exactly when it owes a transmission;
there are none exactly when there are more than `maxRects` stacks of runs; and every strip that owes
is selected. -/
theorem owed_rects_exact (debt : List ℕ) (tilesX tilesY stripW stripH : ℕ) (hW : 0 < stripW)
    (hH : 0 < stripH) :
    (∀ rects, owedRects debt tilesX tilesY stripW stripH = some rects →
      (∀ r ∈ rects, OnGrid tilesX tilesY stripW stripH r) ∧
      rects.Pairwise (fun r s => ∀ x y, Holds r x y → ¬Holds s x y) ∧
      rects.length ≤ 128 ∧
      (∀ x y, (∃ r ∈ rects, Holds r x y) ↔ x / stripW < tilesX ∧ y / stripH < tilesY ∧
        0 < debt.getD (y / stripH * tilesX + x / stripW) 0) ∧
      ∀ tx < tilesX, ∀ ty < tilesY,
        ((∃ r ∈ rects, r.1 ≤ tx * stripW ∧ (tx + 1) * stripW ≤ r.2.2.1 ∧
          r.2.1 ≤ ty * stripH ∧ (ty + 1) * stripH ≤ r.2.2.2) ↔
        0 < debt.getD (ty * tilesX + tx) 0)) ∧
    (owedRects debt tilesX tilesY stripW stripH = none ↔
      128 < (runStacks debt tilesX tilesY).card) ∧
    ∀ (g : Geometry) (w h : ℕ), g.stripW ∣ w → g.stripH ∣ h → ∀ rects,
      owedRects debt (w / g.stripW) (h / g.stripH) g.stripW g.stripH = some rects →
      ∀ tx < w / g.stripW, ∀ ty < h / g.stripH, 0 < debt.getD (ty * (w / g.stripW) + tx) 0 →
        (tx * g.stripW, ty * g.stripH) ∈ damageStripCoords g w h rects := by
  refine ⟨fun rects hrects => ?_, ?_, fun g w h hw hh rects hrects tx htx ty hty ho =>
    mem_damageStripCoords_of_covers hw hh htx hty
      (owedRects_covers (stripH_pos g) (stripW_pos g) hrects hty htx ho)⟩
  · rw [owedRects_scale hW hH] at hrects
    obtain ⟨units, hunits, rfl⟩ := Option.map_eq_some_iff.1 hrects
    rcases owedRects_unit debt tilesX tilesY with ⟨units', hunits', h⟩ | ⟨hnone, -⟩
    · obtain rfl := Option.some_inj.1 (hunits.symm.trans hunits')
      have hcovers : ∀ tx ty, (∃ u ∈ units, Holds u tx ty) ↔
          tx < tilesX ∧ ty < tilesY ∧ 0 < debt.getD (ty * tilesX + tx) 0 := by
        intro tx ty
        rw [← decide_eq_true_iff (p := 0 < debt.getD (ty * tilesX + tx) 0)]
        exact h.covers_iff
      refine ⟨?_, ?_, ?_, ?_, ?_⟩
      · intro r hr
        obtain ⟨u, hu, rfl⟩ := List.mem_map.1 hr
        exact h.onGrid hW hH hu
      · refine List.pairwise_map.2 ((List.pairwise_map.1 h.distinct).imp_of_mem ?_)
        intro u v hu hv hne x y hxu hxv
        rw [holds_scale hW hH] at hxu hxv
        exact hne (h.disjoint hu hv hxu hxv)
      · rw [List.length_map]
        exact h.few
      · intro x y
        rw [← hcovers]
        simp only [List.mem_map, exists_exists_and_eq_and, holds_scale hW hH]
      · intro tx htx ty hty
        have hiff := hcovers tx ty
        rw [and_iff_right htx, and_iff_right hty] at hiff
        rw [← hiff]
        simp only [List.mem_map, exists_exists_and_eq_and, scale, Nat.mul_le_mul_right_iff hW,
          Nat.mul_le_mul_right_iff hH, Holds, Nat.succ_le_iff]
    · rw [hunits] at hnone
      cases hnone
  · rw [owedRects_scale hW hH, Option.map_eq_none_iff]
    rcases owedRects_unit debt tilesX tilesY with ⟨units, hunits, h⟩ | ⟨hnone, hcard⟩
    · have hfew := h.few
      rw [hunits, card_stacks h]
      refine iff_of_false (by simp) ?_
      unfold maxRects at hfew
      omega
    · exact iff_of_true hnone hcard

/-- An L of three strips is two rectangles. -/
theorem owed_corner :
    owedRects [1, 1, 2, 0] 2 2 64 16 = some [(0, 0, 128, 16), (0, 16, 64, 32)] ∧
      ∀ x y, (∃ r ∈ [((0, 0, 128, 16) : Clip), (0, 16, 64, 32)], Holds r x y) ↔
        x / 64 < 2 ∧ y / 16 < 2 ∧ 0 < [1, 1, 2, 0].getD (y / 16 * 2 + x / 64) 0 := by
  have hrects : owedRects [1, 1, 2, 0] 2 2 64 16 = some [(0, 0, 128, 16), (0, 16, 64, 32)] := by
    decide
  exact ⟨hrects, ((owed_rects_exact [1, 1, 2, 0] 2 2 64 16 (by decide) (by decide)).1 _
    hrects).2.2.2.1⟩

end Vino.OwedRects
