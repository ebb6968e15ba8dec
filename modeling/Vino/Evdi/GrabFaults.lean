import Vino.Evdi.Grabpix

/-!
# Grabs that Fail

A grab takes the damage and marks the frame consumed before anything of it is reported or copied.
Behind that it may still refuse the geometry, fail to allocate a row, or fault on the client's
memory, and it does not put the damage back.  Only what it had reported and copied by then is not
lost.

* `copyGrab_eq`: the copy as a list of steps that is carried out up to its first failure,
* `grabpix_late`: a call that has taken the damage, by what fails in it,
* `lossless_iff`: when a call that fails loses nothing.
-/

namespace Vino.Evdi

variable {α : Type}

/-! ### What a call owes -/

/-- A pixel waits to be grabbed: it is in the damage, or a frame has been flipped in of which no
damage is recorded.  (An empty list with the flag down promises nothing: the grab behind the next
flip reports what that flip recorded.) -/
def Pending (scanout : Option (PreparedScanout α)) (p : PainterState) (x y : ℤ) : Prop :=
  ∃ s, scanout = some s ∧ s.Shows x y ∧
    (Covered p.damage.rects x y ∨ p.damage.rects = [] ∧ p.frameDirty = true)

def Segment.Contains (row : Segment) (x y : ℤ) : Prop := row.y = y ∧ row.x1 ≤ x ∧ x < row.x2

instance (row : Segment) (x y : ℤ) : Decidable (row.Contains x y) :=
  inferInstanceAs (Decidable (_ ∧ _))

/-- The pixel was both reported and copied. -/
def Outcome.Delivers (o : Outcome) (x y : ℤ) : Prop :=
  (∃ list, o.list = some list ∧ ∃ c ∈ list, c.rect.Contains x y) ∧
    ∃ row ∈ o.copied, row.Contains x y

/-- A call that fails leaves pending what was pending and is not delivered. -/
def Lossless (arg : GrabpixArg) (faults : Faults) (scanout : Option (PreparedScanout α))
    (p : PainterState) : Prop :=
  (grabpix arg faults scanout p).result ≠ .ok () → ∀ x y, Pending scanout p x y →
    ¬ (grabpix arg faults scanout p).Delivers x y →
      Pending scanout (grabpix arg faults scanout p).painter x y

/-! ### The steps of the copy -/

/-- What the copy does: allocate the row of a rectangle, write a row, or find that a row lies
outside of any address. -/
inductive CopyStep where
  | alloc (i : ℕ)
  | write (i : ℕ) (row : Segment)
  | overflow
  deriving DecidableEq, Repr

section Steps

variable (arg : GrabpixArg) (s : PreparedScanout α) (faults : Faults)

/-- The rows of a rectangle that lie in the mapping. -/
def rowSteps (i : ℕ) (r : Rect) : ℕ → ℤ → List CopyStep
  | 0, _ => []
  | rows + 1, y =>
      let last := srcOffset s y r.x1 + (r.x2 - r.x1).toNat * bpp
      if 2 ^ 64 ≤ last then [.overflow]
      else if s.srcLen < last then []
      else .write i ⟨y, r.x1, r.x2⟩ :: rowSteps i r rows (y + 1)

/-- The steps of a copy. -/
def copySteps : ℕ → List Rect → List CopyStep
  | _, [] => []
  | i, r :: rest =>
      .alloc i :: (rowSteps s i r (r.y2 - r.y1).toNat r.y1 ++ copySteps (i + 1) rest)

/-- How a step fails, and what it has copied then. -/
def CopyStep.failure : CopyStep → Option (GrabError × List Segment)
  | .alloc i => if faults.alloc i then some (.ENOMEM, []) else none
  | .overflow => some (.EINVAL, [])
  | .write i row =>
      if 2 ^ 64 ≤ dstOffset arg row.y row.x1 then some (.EINVAL, [])
      else (faults.row i row.y).map fun bytes =>
        (.EFAULT, [{ row with x2 := min row.x2 (row.x1 + (bytes / bpp : ℕ)) }])

/-- What a step copies that does not fail. -/
def CopyStep.rows : CopyStep → List Segment
  | .write _ row => [row]
  | _ => []

/-- The first failure of some steps. -/
def firstFailure : List CopyStep → Option GrabError
  | [] => none
  | step :: rest =>
      match step.failure arg faults with
      | some (e, _) => some e
      | none => firstFailure rest

/-- What is copied ahead of the first failure. -/
def ahead : List CopyStep → List Segment
  | [] => []
  | step :: rest =>
      match step.failure arg faults with
      | some (_, part) => part
      | none => step.rows ++ ahead rest

/-- The result of a copy that fails at the given point, or not at all. -/
def resultOf : Option GrabError → Except GrabError Unit
  | some e => .error e
  | none => .ok ()

end Steps

variable {arg : GrabpixArg} {s : PreparedScanout α} {faults : Faults}

theorem firstFailure_append (l l' : List CopyStep) :
    firstFailure arg faults (l ++ l') =
      (firstFailure arg faults l).or (firstFailure arg faults l') := by
  induction l with
  | nil => rfl
  | cons step l ih =>
    simp only [List.cons_append, firstFailure]
    cases step.failure arg faults with
    | none => exact ih
    | some failure => rfl

theorem ahead_append (l l' : List CopyStep) :
    ahead arg faults (l ++ l') = ahead arg faults l ++
      if firstFailure arg faults l = none then ahead arg faults l' else [] := by
  induction l with
  | nil => rfl
  | cons step l ih =>
    rw [List.cons_append]
    obtain hnone | ⟨failure, hsome⟩ := Option.eq_none_or_eq_some (step.failure arg faults)
    · simp only [ahead, firstFailure, hnone, ih, List.append_assoc]
    · simp [ahead, firstFailure, hsome]

/-- The rows of a rectangle, one after the other. -/
theorem copyRows_eq (i : ℕ) (r : Rect) (rows : ℕ) (y : ℤ) :
    copyRows arg s faults i r rows y =
      (resultOf (firstFailure arg faults (rowSteps s i r rows y)),
        ahead arg faults (rowSteps s i r rows y)) := by
  induction rows generalizing y with
  | zero => rfl
  | succ rows ih =>
    rw [copyRows, rowSteps]
    dsimp only
    split_ifs with hoverflow hmapped
    · rfl
    · rfl
    · simp only [firstFailure, ahead, writeRow, CopyStep.failure]
      split_ifs with hdst
      · rfl
      · cases hrow : faults.row i y with
        | some bytes => rfl
        | none =>
          dsimp only [Option.map_none]
          rw [ih]
          rfl

/-- **The copy is carried out up to its first failure.** -/
theorem copyGrab_eq (i : ℕ) (rects : List Rect) :
    copyGrab arg s faults i rects =
      (resultOf (firstFailure arg faults (copySteps s i rects)),
        ahead arg faults (copySteps s i rects)) := by
  induction rects generalizing i with
  | nil => rfl
  | cons r rest ih =>
    rw [copyGrab, copySteps]
    simp only [firstFailure, ahead, CopyStep.failure]
    by_cases halloc : faults.alloc i = true
    · rw [if_pos halloc, if_pos halloc]
      rfl
    · rw [if_neg halloc, if_neg halloc, copyRows_eq, firstFailure_append, ahead_append]
      cases firstFailure arg faults (rowSteps s i r (r.y2 - r.y1).toNat r.y1) with
      | some e => simp [resultOf, CopyStep.rows]
      | none =>
        dsimp only [resultOf]
        rw [ih]
        simp [CopyStep.rows, resultOf]

/-! ### Calls that have taken the damage -/

/-- A call fails although it was not refused for its mode or its number of rectangles. -/
def FailsLate (arg : GrabpixArg) (s : PreparedScanout α) (faults : Faults) (p : PainterState) :
    Prop :=
  let rects := grabRects arg.request s.toFramebuffer p.damage.rects
  ¬ arg.Shaped ∨ rects ≠ [] ∧
    (arg.rects ≠ 0 ∧ faults.list = true ∨
      firstFailure arg faults (copySteps s 0 rects) ≠ none)

/-- The list was written, and names the pixel; and a row that is written ahead of the first failure
has it. -/
def Served (arg : GrabpixArg) (s : PreparedScanout α) (faults : Faults) (p : PainterState)
    (x y : ℤ) : Prop :=
  let rects := grabRects arg.request s.toFramebuffer p.damage.rects
  arg.Shaped ∧ arg.rects ≠ 0 ∧ faults.list = false ∧ (∃ r ∈ rects, r.clip.rect.Contains x y) ∧
    ∃ row ∈ ahead arg faults (copySteps s 0 rects), row.Contains x y

/-- **What a call loses nothing in**: if it is not refused at once, and fails, all that was pending
is on the client's side. -/
def Spares (arg : GrabpixArg) (faults : Faults) (scanout : Option (PreparedScanout α))
    (p : PainterState) : Prop :=
  arg.mode = grabpixModeDirty → 1 ≤ arg.numRects → ∀ s, scanout = some s →
    FailsLate arg s faults p → ∀ x y, Pending scanout p x y → Served arg s faults p x y

variable (s faults) in
/-- A call that has taken the damage leaves none, fails as its steps do, and delivers what is
written ahead of the failure. -/
theorem grabpix_late (p : PainterState) (hmode : arg.mode = grabpixModeDirty)
    (hnum : 1 ≤ arg.numRects) :
    (grabpix arg faults (some s) p).painter = ⟨false, Damage.new⟩ ∧
      ((grabpix arg faults (some s) p).result ≠ .ok () ↔ FailsLate arg s faults p) ∧
      ∀ x y, FailsLate arg s faults p →
        ((grabpix arg faults (some s) p).Delivers x y ↔ Served arg s faults p x y) := by
  unfold grabpix FailsLate Served
  rw [if_neg (by simpa using hmode), if_neg (by omega)]
  dsimp only
  by_cases hshaped : arg.Shaped
  · rw [if_neg (by simpa using hshaped)]
    by_cases hempty : grabRects arg.request s.toFramebuffer p.damage.rects = []
    · rw [if_pos hempty]
      simp [hshaped, hempty]
    · rw [if_neg hempty]
      by_cases hlist : arg.rects ≠ 0 ∧ faults.list = true
      · rw [if_pos hlist]
        simp [hshaped, hempty, hlist, Outcome.Delivers]
      · rw [if_neg hlist, copyGrab_eq]
        have hresult (failure : Option GrabError) :
            resultOf failure ≠ .ok () ↔ failure ≠ none := by
          cases failure <;> simp [resultOf]
        refine ⟨rfl, ?_, fun x y _ => ?_⟩
        · simp [hshaped, hempty, hlist, hresult]
        · by_cases hnull : arg.rects = 0
          · simp [Outcome.Delivers, hnull]
          · have hwritten : faults.list = false :=
              Bool.eq_false_iff.2 fun htrue => hlist ⟨hnull, htrue⟩
            simp [Outcome.Delivers, hnull, hshaped, hwritten]
  · rw [if_pos hshaped]
    simp [hshaped, Outcome.Delivers]

/-- **When a call that fails loses nothing.** -/
theorem lossless_iff (arg : GrabpixArg) (faults : Faults) (scanout : Option (PreparedScanout α))
    (p : PainterState) : Lossless arg faults scanout p ↔ Spares arg faults scanout p := by
  unfold Lossless Spares
  by_cases hmode : arg.mode = grabpixModeDirty
  · by_cases hnum : 1 ≤ arg.numRects
    · cases scanout with
      | none =>
        constructor
        · nofun
        · intro _ _ x y hpending
          obtain ⟨s, hs, -⟩ := hpending
          cases hs
      | some s =>
        obtain ⟨hpainter, hfails, hdelivers⟩ :=
          grabpix_late s faults p hmode hnum
        have hnone (x y : ℤ) : ¬ Pending (some s) ⟨false, Damage.new⟩ x y := by
          rintro ⟨s', -, -, ⟨r, hr, -⟩ | ⟨-, hdirty⟩⟩
          · cases hr
          · cases hdirty
        rw [hpainter, hfails]
        constructor
        · intro h _ _ s' hs hlate x y hpending
          obtain rfl := Option.some.inj hs
          by_contra hserved
          exact hnone x y (h hlate x y hpending fun hd => hserved ((hdelivers x y hlate).1 hd))
        · intro h hlate x y hpending hnot
          exact absurd ((hdelivers x y hlate).2 (h hmode hnum s rfl hlate x y hpending)) hnot
    · have hrefused : (grabpix arg faults scanout p).painter = p := by
        unfold grabpix
        rw [if_neg (by simpa using hmode), if_pos (by omega)]
      rw [hrefused]
      exact iff_of_true (fun _ _ _ h _ => h) fun _ h => absurd h hnum
  · have hrefused : (grabpix arg faults scanout p).painter = p := by
      unfold grabpix
      rw [if_pos (by simpa using hmode)]
    rw [hrefused]
    exact iff_of_true (fun _ _ _ h _ => h) fun h => absurd h hmode

/-- The left half of a row, and the right one. -/
def halves : List Rect := [⟨0, 0, 2, 1⟩, ⟨2, 0, 4, 1⟩]

/-- The client's memory faults on the second rectangle. -/
def faulty : Faults := ⟨false, fun _ => false, fun i _ => if i = 1 then some 0 else none⟩

/-- The first half is delivered, the second is not; nothing is left pending, and a grab behind a
flip of the first pixel reports just that. -/
theorem half_lost :
    (grabpix (grabOf 4 16) faulty (some fourPixels) ⟨true, ⟨halves, by decide⟩⟩).result =
      .error .EFAULT ∧
    (grabpix (grabOf 4 16) faulty (some fourPixels) ⟨true, ⟨halves, by decide⟩⟩).copied =
      [⟨0, 0, 2⟩, ⟨0, 2, 2⟩] ∧
    (grabpix (grabOf 4 16) faulty (some fourPixels) ⟨true, ⟨halves, by decide⟩⟩).painter =
      ⟨false, Damage.new⟩ ∧
    (grabpix (grabOf 4 16) ⟨false, fun _ => false, fun _ _ => none⟩ (some fourPixels)
      ⟨true, Damage.new.push ⟨0, 0, 1, 1⟩⟩).rects = [⟨0, 0, 1, 1⟩] ∧
    ¬ ∀ arg faults (scanout : Option (PreparedScanout Unit)) p,
      Lossless arg faults scanout p := by
  refine ⟨by decide, by decide, rfl, by decide, fun h => ?_⟩
  have hlossless := h (grabOf 4 16) faulty (some fourPixels) ⟨true, ⟨halves, by decide⟩⟩
    (by decide) 3 0 ⟨fourPixels, rfl, ⟨by decide, by decide, by decide, by decide⟩,
      Or.inl (by decide)⟩ ?_
  · obtain ⟨s, -, -, hrest⟩ := hlossless
    rcases hrest with ⟨r, hr, -⟩ | ⟨-, hdirty⟩
    · cases hr
    · cases hdirty
  · rintro ⟨-, hcopied⟩
    exact absurd hcopied (by decide)

end Vino.Evdi
