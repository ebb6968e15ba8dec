import Mathlib

/-!
# Frame Damage and the Pixel Copy

The painter accumulates the rectangles that flips have changed; a grab takes them, clamps them to
the framebuffer and to the client's buffer, and copies them into the client's buffer.

* `Damage.push_covers`, `Damage.pushAll_covers`: what was covered stays covered, and so are the new
  rectangles, also when the list collapses into a bounding box,
* `grabRects_covers`: a grab copies every pixel of the damage, or the whole frame when no damage is
  recorded,
* `copyRects_eq`: what the buffer holds behind the copy.
-/

namespace Vino.Evdi

/-! ### Rectangles -/

/-- A rectangle, its right and lower edge outside. -/
structure Rect where
  x1 : ℤ
  y1 : ℤ
  x2 : ℤ
  y2 : ℤ
  deriving DecidableEq, Repr

/-- The pixel lies in the rectangle. -/
def Rect.Contains (r : Rect) (x y : ℤ) : Prop := r.x1 ≤ x ∧ x < r.x2 ∧ r.y1 ≤ y ∧ y < r.y2

instance (r : Rect) (x y : ℤ) : Decidable (r.Contains x y) := inferInstanceAs (Decidable (_ ∧ _))

/-- The smallest rectangle around two. -/
def Rect.union (bb r : Rect) : Rect :=
  ⟨min bb.x1 r.x1, min bb.y1 r.y1, max bb.x2 r.x2, max bb.y2 r.y2⟩

/-- A rectangle of the list contains the pixel. -/
def Covered (rects : List Rect) (x y : ℤ) : Prop := ∃ r ∈ rects, r.Contains x y

instance (rects : List Rect) (x y : ℤ) : Decidable (Covered rects x y) :=
  inferInstanceAs (Decidable (∃ r ∈ rects, r.Contains x y))

theorem Rect.Contains.union {bb r : Rect} {x y : ℤ} (h : bb.Contains x y ∨ r.Contains x y) :
    (bb.union r).Contains x y := by
  unfold Rect.Contains at h
  unfold Rect.union Rect.Contains
  dsimp only
  omega

/-- The bounding box of a list, grown from a first rectangle, contains all of them. -/
theorem contains_foldl_union (rects : List Rect) (bb : Rect) {x y : ℤ}
    (h : bb.Contains x y ∨ Covered rects x y) : (rects.foldl Rect.union bb).Contains x y := by
  induction rects generalizing bb with
  | nil =>
      rcases h with h | ⟨r, hr, -⟩
      · exact h
      · cases hr
  | cons r rects ih =>
      refine ih (bb.union r) ?_
      rcases h with h | ⟨r', hr', h⟩
      · exact .inl (Rect.Contains.union (.inl h))
      · rcases List.mem_cons.1 hr' with rfl | hmem
        · exact .inl (Rect.Contains.union (.inr h))
        · exact .inr ⟨r', hmem, h⟩

/-! ### Damage -/

def maxDamageRects : ℕ := 16

/-- Changed rectangles since the last grab. -/
structure Damage where
  rects : List Rect
  le : rects.length ≤ maxDamageRects

/-- Nothing recorded. -/
def Damage.new : Damage := ⟨[], Nat.zero_le _⟩

theorem length_snoc_le {rects : List Rect} (h : rects.length < maxDamageRects) (r : Rect) :
    (rects ++ [r]).length ≤ maxDamageRects := by
  rw [List.length_append]
  exact h

/-- Record a changed rectangle; a full list collapses with it into a single bounding box. -/
def Damage.push (d : Damage) (r : Rect) : Damage :=
  if h : d.rects.length < maxDamageRects then ⟨d.rects ++ [r], length_snoc_le h r⟩
  else ⟨[d.rects.foldl Rect.union r], Nat.le_of_ble_eq_true rfl⟩

/-- Record the clips of a flip. -/
def Damage.pushAll (d : Damage) (clips : List Rect) : Damage := clips.foldl Damage.push d

/-- **Nothing recorded is forgotten**, and the new rectangle is recorded. -/
theorem Damage.push_covers (d : Damage) (r : Rect) {x y : ℤ}
    (h : Covered d.rects x y ∨ r.Contains x y) : Covered (d.push r).rects x y := by
  unfold Damage.push
  split_ifs with hfull
  · rcases h with ⟨r', hr', h⟩ | h
    · exact ⟨r', List.mem_append_left _ hr', h⟩
    · exact ⟨r, by simp, h⟩
  · exact ⟨_, List.mem_singleton_self _, contains_foldl_union d.rects r h.symm⟩

theorem Damage.pushAll_covers (d : Damage) (clips : List Rect) {x y : ℤ}
    (h : Covered d.rects x y ∨ Covered clips x y) : Covered (d.pushAll clips).rects x y := by
  induction clips generalizing d with
  | nil =>
      rcases h with h | ⟨r, hr, -⟩
      · exact h
      · cases hr
  | cons r clips ih =>
      refine ih (d.push r) ?_
      rcases h with h | ⟨r', hr', h⟩
      · exact .inl (d.push_covers r (.inl h))
      · rcases List.mem_cons.1 hr' with rfl | hmem
        · exact .inl (d.push_covers r' (.inr h))
        · exact .inr ⟨r', hmem, h⟩

/-! ### Framebuffers and the client's buffer -/

variable {α : Type}

/-- Pixels by position. -/
abbrev Image (α : Type) := ℤ → ℤ → α

/-- A framebuffer that was flipped in. -/
structure Framebuffer (α : Type) where
  width : ℤ
  height : ℤ
  pixel : Image α

/-- The pixel is one of the framebuffer's. -/
def Framebuffer.Shows (fb : Framebuffer α) (x y : ℤ) : Prop :=
  0 ≤ x ∧ x < fb.width ∧ 0 ≤ y ∧ y < fb.height

/-- What the client says of its buffer: the bytes of a row, the rows, and how many rectangles it
takes. -/
structure Request where
  stride : ℕ
  height : ℤ
  numRects : ℤ
  deriving DecidableEq, Repr

/-- Bytes of a pixel. -/
def bpp : ℕ := 4

/-- The buffer is at least as large as the framebuffer. -/
def Request.Holds (q : Request) (fb : Framebuffer α) : Prop :=
  fb.width ≤ (q.stride / bpp : ℕ) ∧ fb.height ≤ q.height

def clamp (v lo hi : ℤ) : ℤ := max lo (min v hi)

/-- Clamp a rectangle to `maxW` columns and `maxH` rows. -/
def clampRect (maxW maxH : ℤ) (r : Rect) : Rect :=
  let x1 := clamp r.x1 0 maxW
  let y1 := clamp r.y1 0 maxH
  ⟨x1, y1, clamp r.x2 x1 maxW, clamp r.y2 y1 maxH⟩

/-- The rectangles a grab copies: the damage, or the whole frame when there is none, clamped to the
framebuffer and the client's buffer, and collapsed when the client takes fewer. -/
def grabRects (q : Request) (fb : Framebuffer α) (damage : List Rect) : List Rect :=
  let maxW := min fb.width (q.stride / bpp : ℕ)
  let maxH := min fb.height q.height
  let rects := if damage = [] then [⟨0, 0, fb.width, fb.height⟩] else damage
  let rects := (rects.map (clampRect maxW maxH)).filter fun r => r.x1 < r.x2 ∧ r.y1 < r.y2
  let cap := min (max q.numRects 1).toNat maxDamageRects
  match rects with
  | [] => []
  | bb :: rest => if cap < rects.length then [rest.foldl Rect.union bb] else rects

theorem clampRect_contains {r : Rect} {maxW maxH x y : ℤ} (hx : 0 ≤ x ∧ x < maxW)
    (hy : 0 ≤ y ∧ y < maxH) (h : r.Contains x y) :
    (clampRect maxW maxH r).Contains x y ∧ (clampRect maxW maxH r).x1 < (clampRect maxW maxH r).x2 ∧
      (clampRect maxW maxH r).y1 < (clampRect maxW maxH r).y2 := by
  unfold Rect.Contains at h ⊢
  unfold clampRect clamp
  dsimp only
  omega

/-- What is recorded and in reach of the client's buffer is copied, whatever the client says of its
buffer. -/
theorem grabRects_covers_of_lt {q : Request} {fb : Framebuffer α} {damage : List Rect} {x y : ℤ}
    (hshows : fb.Shows x y) (hx : x < (q.stride / bpp : ℕ)) (hy : y < q.height)
    (h : damage = [] ∨ Covered damage x y) : Covered (grabRects q fb damage) x y := by
  obtain ⟨hx0, hx1, hy0, hy1⟩ := hshows
  unfold grabRects
  dsimp only
  -- One of the rectangles before clamping contains the pixel, so its clamped form is kept.
  have hrects : Covered (if damage = [] then [⟨0, 0, fb.width, fb.height⟩] else damage) x y := by
    split_ifs with hempty
    · exact ⟨_, List.mem_singleton_self _, hx0, hx1, hy0, hy1⟩
    · exact h.resolve_left hempty
  obtain ⟨r, hr, hcontains⟩ := hrects
  have hclampedX : 0 ≤ x ∧ x < min fb.width (q.stride / bpp : ℕ) := by omega
  have hclampedY : 0 ≤ y ∧ y < min fb.height q.height := by omega
  have hclamped := clampRect_contains hclampedX hclampedY hcontains
  have hkept : Covered (((if damage = [] then [⟨0, 0, fb.width, fb.height⟩] else damage).map
      (clampRect (min fb.width (q.stride / bpp : ℕ)) (min fb.height q.height))).filter
        fun r => r.x1 < r.x2 ∧ r.y1 < r.y2) x y :=
    ⟨_, List.mem_filter.2 ⟨List.mem_map_of_mem hr, by simpa using hclamped.2⟩, hclamped.1⟩
  generalize List.filter _ _ = rects at hkept ⊢
  cases rects with
  | nil => exact hkept
  | cons bb rest =>
      dsimp only
      split_ifs
      · obtain ⟨r', hr', h'⟩ := hkept
        refine ⟨_, List.mem_singleton_self _, contains_foldl_union rest bb ?_⟩
        rcases List.mem_cons.1 hr' with rfl | hmem
        · exact .inl h'
        · exact .inr ⟨r', hmem, h'⟩
      · exact hkept

/-- **A grab copies all the damage**, or the whole frame when none is recorded. -/
theorem grabRects_covers {q : Request} {fb : Framebuffer α} (hq : q.Holds fb) {damage : List Rect}
    {x y : ℤ} (hshows : fb.Shows x y) (h : damage = [] ∨ Covered damage x y) :
    Covered (grabRects q fb damage) x y :=
  grabRects_covers_of_lt hshows (hshows.2.1.trans_le hq.1) (hshows.2.2.2.trans_le hq.2) h

/-- What holds of the clamped rectangles, and of the union of any two, holds of all that are
copied. -/
theorem grabRects_induction {P : Rect → Prop} {q : Request} {fb : Framebuffer α}
    {damage : List Rect}
    (hclamp : ∀ r ∈ (if damage = [] then [⟨0, 0, fb.width, fb.height⟩] else damage),
      let c := clampRect (min fb.width (q.stride / bpp : ℕ)) (min fb.height q.height) r
      c.x1 < c.x2 → c.y1 < c.y2 → P c)
    (hunion : ∀ bb r, P bb → P r → P (bb.union r)) : ∀ r ∈ grabRects q fb damage, P r := by
  have hkept : ∀ r ∈ (((if damage = [] then [⟨0, 0, fb.width, fb.height⟩] else damage).map
      (clampRect (min fb.width (q.stride / bpp : ℕ)) (min fb.height q.height))).filter
        fun r => r.x1 < r.x2 ∧ r.y1 < r.y2), P r := by
    intro r hr
    obtain ⟨hmem, hsize⟩ := List.mem_filter.1 hr
    obtain ⟨r', hr', rfl⟩ := List.mem_map.1 hmem
    obtain ⟨hx, hy⟩ := of_decide_eq_true hsize
    exact hclamp r' hr' hx hy
  unfold grabRects
  dsimp only
  generalize List.filter _ _ = rects at hkept ⊢
  cases rects with
  | nil => exact nofun
  | cons bb rest =>
    dsimp only
    split_ifs
    · intro r hr
      rw [List.mem_singleton.1 hr]
      exact List.foldlRecOn rest Rect.union (hkept bb List.mem_cons_self) fun acc hacc r' hr' =>
        hunion acc r' hacc (hkept r' (List.mem_cons_of_mem _ hr'))
    · exact hkept

/-- Copy a rectangle into the client's buffer, at the same position. -/
def copyRect (src buffer : Image α) (r : Rect) : Image α :=
  fun x y => if r.Contains x y then src x y else buffer x y

/-- Copy rectangle after rectangle. -/
def copyRects (src : Image α) (rects : List Rect) (buffer : Image α) : Image α :=
  rects.foldl (copyRect src) buffer

/-- **The buffer behind the copy.** -/
theorem copyRects_eq (src : Image α) (rects : List Rect) (buffer : Image α) (x y : ℤ) :
    copyRects src rects buffer x y = if Covered rects x y then src x y else buffer x y := by
  induction rects generalizing buffer with
  | nil => simp [copyRects, Covered]
  | cons r rects ih =>
      have hstep : copyRects src (r :: rects) buffer =
          copyRects src rects (copyRect src buffer r) := rfl
      rw [hstep, ih, copyRect]
      by_cases hrest : Covered rects x y
      · have hcons : Covered (r :: rects) x y := by
          obtain ⟨r', hr', h⟩ := hrest
          exact ⟨r', List.mem_cons_of_mem r hr', h⟩
        rw [if_pos hrest, if_pos hcons]
      · rw [if_neg hrest]
        have hcons : Covered (r :: rects) x y ↔ r.Contains x y := by
          constructor
          · rintro ⟨r', hr', h⟩
            rcases List.mem_cons.1 hr' with rfl | hmem
            · exact h
            · exact absurd ⟨r', hmem, h⟩ hrest
          · exact fun h => ⟨r, List.mem_cons_self, h⟩
        simp only [hcons]

/-! ### Flips -/

/-- The pixels in which a framebuffer differs from the one before it; without one, all of them. -/
def Changed (old : Option (Framebuffer α)) (fb : Framebuffer α) (x y : ℤ) : Prop :=
  fb.Shows x y ∧ ∀ o, old = some o → o.Shows x y → o.pixel x y ≠ fb.pixel x y

/-- The clips of a flip cover what it changed. -/
def Honest (old : Option (Framebuffer α)) (fb : Framebuffer α) (clips : List Rect) : Prop :=
  ∀ x y, Changed old fb x y → Covered clips x y

/-- What honest clips leave out was there before. -/
theorem Honest.unchanged {old : Option (Framebuffer α)} {fb : Framebuffer α} {clips : List Rect}
    (h : Honest old fb clips) {x y : ℤ} (hshows : fb.Shows x y) (hclips : ¬Covered clips x y) :
    ∃ o, old = some o ∧ o.Shows x y ∧ o.pixel x y = fb.pixel x y := by
  by_contra hnone
  refine hclips (h x y ⟨hshows, fun o ho hoshows heq => hnone ⟨o, ho, hoshows, heq⟩⟩)

/-! ### A full HD screen, for examples -/

def fullHd (image : Image α) : Framebuffer α := ⟨1920, 1080, image⟩

/-- The whole screen. -/
def screen : Rect := ⟨0, 0, 1920, 1080⟩

/-- The buffer of a client in the same mode. -/
def fullFrame : Request := ⟨7680, 1080, 16⟩

theorem holds_fullHd (image : Image α) : fullFrame.Holds (fullHd image) := by
  have hwidth : (1920 : ℤ) ≤ (7680 / bpp : ℕ) := by decide
  exact ⟨hwidth, le_refl (1080 : ℤ)⟩

theorem covered_screen {image : Image α} {x y : ℤ} (h : (fullHd image).Shows x y) :
    Covered [screen] x y := by
  obtain ⟨hx0, hx1, hy0, hy1⟩ := h
  exact ⟨screen, List.mem_singleton_self _, hx0, hx1, hy0, hy1⟩

theorem honest_screen (old : Option (Framebuffer α)) (image : Image α) :
    Honest old (fullHd image) [screen] :=
  fun _ _ h => covered_screen h.1

end Vino.Evdi
