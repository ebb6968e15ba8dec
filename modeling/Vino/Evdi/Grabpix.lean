import Vino.Evdi.Painter

/-!
# The GRABPIX Ioctl

A grab is a call of the client: it names its buffer, how large that is, and a list for the
rectangles it is told of.  The call takes the damage, clamps it, reports the rectangles and copies
their rows, and any of its writes into the client's memory may fault.

* `grabpix_rects`: a call that succeeds has reported what `grabRects` gives,
* `run_within`: no rectangle that was pushed is forgotten before a clear,
* `grabRects_inside`, `grabRects_right`: where the reported rectangles lie,
* `reports_iff`: when they lie inside the client's picture and cover what is damaged in it.
-/

namespace Vino.Evdi

variable {α : Type}

/-! ### The call -/

/-- The resolution that the mode configuration admits. -/
def maxResolution : ℤ := 8192

/-- A framebuffer that was accepted, and the mapping its pixels are read through. -/
structure PreparedScanout (α : Type) extends Framebuffer α where
  srcLen : ℕ
  pitch : ℕ
  width_nonneg : 0 ≤ width
  width_le : width ≤ maxResolution
  height_nonneg : 0 ≤ height
  height_le : height ≤ maxResolution

/-- `EVDI_GRABPIX_MODE_DIRTY`. -/
def grabpixModeDirty : UInt32 := 1

/-- The argument block; an address is null if it is zero. -/
structure GrabpixArg where
  mode : UInt32
  bufWidth : ℤ
  bufHeight : ℤ
  bufByteStride : ℤ
  buffer : ℕ
  numRects : ℤ
  rects : ℕ
  deriving DecidableEq, Repr

/-- What the rectangles depend on. -/
def GrabpixArg.request (arg : GrabpixArg) : Request :=
  ⟨arg.bufByteStride.toNat, arg.bufHeight, arg.numRects⟩

/-- The geometry is not impossible. -/
def GrabpixArg.Shaped (arg : GrabpixArg) : Prop :=
  arg.buffer ≠ 0 ∧ 0 < arg.bufByteStride ∧ 0 ≤ arg.bufWidth ∧ 0 ≤ arg.bufHeight

instance (arg : GrabpixArg) : Decidable arg.Shaped := inferInstanceAs (Decidable (_ ∧ _))

/-- The state that flips and grabs share. -/
structure PainterState where
  frameDirty : Bool
  damage : Damage

/-- A `drm_clip_rect`. -/
structure ClipRect where
  x1 : UInt16
  y1 : UInt16
  x2 : UInt16
  y2 : UInt16
  deriving DecidableEq, Repr

def Rect.clip (r : Rect) : ClipRect :=
  ⟨UInt16.ofNat r.x1.toNat, UInt16.ofNat r.y1.toNat, UInt16.ofNat r.x2.toNat,
    UInt16.ofNat r.y2.toNat⟩

/-- The rectangle a client reads. -/
def ClipRect.rect (c : ClipRect) : Rect := ⟨c.x1.toNat, c.y1.toNat, c.x2.toNat, c.y2.toNat⟩

/-- The errors of a grab. -/
inductive GrabError where
  | EINVAL
  | ENOMEM
  | EFAULT
  deriving DecidableEq, Repr

/-- What fails: writing the list of rectangles, allocating the row of a rectangle, and writing a
row, behind that many bytes. -/
structure Faults where
  list : Bool
  alloc : ℕ → Bool
  row : ℕ → ℤ → Option ℕ

/-- Pixels of one row, in the client's buffer. -/
structure Segment where
  y : ℤ
  x1 : ℤ
  x2 : ℤ
  deriving DecidableEq, Repr

/-- What a call leaves behind: what it returns, the painter, the count in the argument block, the
rectangles it reports and the list it has written, and the rows it has copied. -/
structure Outcome where
  result : Except GrabError Unit
  painter : PainterState
  numRects : ℤ
  rects : List Rect
  list : Option (List ClipRect)
  copied : List Segment

section Copy

variable (arg : GrabpixArg) (s : PreparedScanout α) (faults : Faults)

/-- Where the pixels behind column `x` of a row begin in the mapping. -/
def srcOffset (y x : ℤ) : ℕ := y.toNat * s.pitch + x.toNat * bpp

/-- Where they begin in the client's memory. -/
def dstOffset (y x : ℤ) : ℕ := arg.buffer + (y.toNat * arg.bufByteStride.toNat + x.toNat * bpp)

/-- Write one row of the `i`-th rectangle. -/
def writeRow (i : ℕ) (row : Segment) : Except GrabError Unit × List Segment :=
  if 2 ^ 64 ≤ dstOffset arg row.y row.x1 then (.error .EINVAL, [])
  else
    match faults.row i row.y with
    | some bytes => (.error .EFAULT, [{ row with x2 := min row.x2 (row.x1 + (bytes / bpp : ℕ)) }])
    | none => (.ok (), [row])

/-- Copy the rows of a rectangle from `y` on. -/
def copyRows (i : ℕ) (r : Rect) : ℕ → ℤ → Except GrabError Unit × List Segment
  | 0, _ => (.ok (), [])
  | rows + 1, y =>
      let last := srcOffset s y r.x1 + (r.x2 - r.x1).toNat * bpp
      if 2 ^ 64 ≤ last then (.error .EINVAL, [])
      -- Past the mapping: the other rows of the rectangle are left out.
      else if s.srcLen < last then (.ok (), [])
      else
        match writeRow arg faults i ⟨y, r.x1, r.x2⟩ with
        | (.error e, part) => (.error e, part)
        | (.ok (), row) =>
            let (result, more) := copyRows i r rows (y + 1)
            (result, row ++ more)

/-- Copy rectangle after rectangle. -/
def copyGrab : ℕ → List Rect → Except GrabError Unit × List Segment
  | _, [] => (.ok (), [])
  | i, r :: rest =>
      if faults.alloc i then (.error .ENOMEM, [])
      else
        match copyRows arg s faults i r (r.y2 - r.y1).toNat r.y1 with
        | (.error e, part) => (.error e, part)
        | (.ok (), rows) =>
            let (result, more) := copyGrab (i + 1) rest
            (result, rows ++ more)

/-- `DRM_IOCTL_EVDI_GRABPIX`. -/
def grabpix (scanout : Option (PreparedScanout α)) (p : PainterState) : Outcome :=
  if arg.mode ≠ grabpixModeDirty then ⟨.error .EINVAL, p, arg.numRects, [], none, []⟩
  else if arg.numRects < 1 then ⟨.error .EINVAL, p, arg.numRects, [], none, []⟩
  else
    match scanout with
    | none => ⟨.ok (), p, 0, [], none, []⟩
    | some s =>
        -- The regions are taken and the frame is consumed ahead of everything that may fail.
        let taken : PainterState := ⟨false, Damage.new⟩
        if ¬ arg.Shaped then ⟨.error .EINVAL, taken, arg.numRects, [], none, []⟩
        else
          let rects := grabRects arg.request s.toFramebuffer p.damage.rects
          if rects = [] then ⟨.ok (), taken, 0, [], none, []⟩
          else if arg.rects ≠ 0 ∧ faults.list = true then
            ⟨.error .EFAULT, taken, arg.numRects, [], none, []⟩
          else
            let (result, copied) := copyGrab arg s faults 0 rects
            ⟨result, taken, rects.length, rects,
              if arg.rects = 0 then none else some (rects.map Rect.clip), copied⟩

end Copy

/-- **What a call that succeeds has reported.** -/
theorem grabpix_rects {arg : GrabpixArg} {s : PreparedScanout α} {faults : Faults}
    {p : PainterState} (hok : (grabpix arg faults (some s) p).result = .ok ()) :
    (grabpix arg faults (some s) p).rects =
        grabRects arg.request s.toFramebuffer p.damage.rects ∧
      (grabpix arg faults (some s) p).numRects = (grabpix arg faults (some s) p).rects.length ∧
      ∀ list, (grabpix arg faults (some s) p).list = some list →
        list = (grabpix arg faults (some s) p).rects.map Rect.clip := by
  revert hok
  unfold grabpix
  dsimp only
  split_ifs with hmode hnum hshaped hempty hlist hnull
  · exact nofun
  · exact nofun
  · exact fun _ => ⟨hempty.symm, rfl, nofun⟩
  · exact nofun
  · exact fun _ => ⟨rfl, rfl, nofun⟩
  · exact fun _ => ⟨rfl, rfl, fun list h => (Option.some.inj h).symm⟩
  · exact nofun

/-! ### The damage between two grabs -/

/-- What happens to the damage. -/
inductive DamageOp where
  | push (r : Rect)
  | clear
  deriving DecidableEq, Repr

def Damage.apply (d : Damage) : DamageOp → Damage
  | .push r => d.push r
  | .clear => Damage.new

/-- The rectangles pushed since the last clear. -/
def pushedAfter (pushed : List Rect) : DamageOp → List Rect
  | .push r => pushed ++ [r]
  | .clear => []

/-- One rectangle lies in another. -/
def Rect.Within (r box : Rect) : Prop :=
  box.x1 ≤ r.x1 ∧ box.y1 ≤ r.y1 ∧ r.x2 ≤ box.x2 ∧ r.y2 ≤ box.y2

/-- The damage behind some operations holds what was pushed, in at most sixteen rectangles. -/
def Tracks (ops : List DamageOp) : Prop :=
  (ops.foldl Damage.apply Damage.new).rects.length ≤ 16 ∧
    ∀ r ∈ ops.foldl pushedAfter [], ∃ box ∈ (ops.foldl Damage.apply Damage.new).rects, r.Within box

theorem Rect.Within.refl (r : Rect) : r.Within r := ⟨le_rfl, le_rfl, le_rfl, le_rfl⟩

theorem Rect.Within.union {r bb r' : Rect} (h : r.Within bb ∨ r.Within r') :
    r.Within (bb.union r') := by
  unfold Rect.Within at h
  unfold Rect.union Rect.Within
  dsimp only
  omega

theorem within_foldl_union (rects : List Rect) (bb : Rect) {r : Rect}
    (h : r.Within bb ∨ ∃ box ∈ rects, r.Within box) : r.Within (rects.foldl Rect.union bb) := by
  induction rects generalizing bb with
  | nil =>
    rcases h with h | ⟨box, hbox, -⟩
    · exact h
    · cases hbox
  | cons r' rects ih =>
    refine ih (bb.union r') ?_
    rcases h with h | ⟨box, hbox, h⟩
    · exact Or.inl (Rect.Within.union (Or.inl h))
    · rcases List.mem_cons.1 hbox with rfl | hmem
      · exact Or.inl (Rect.Within.union (Or.inr h))
      · exact Or.inr ⟨box, hmem, h⟩

theorem Damage.push_within (d : Damage) (r : Rect) {r' : Rect}
    (h : r' = r ∨ ∃ box ∈ d.rects, r'.Within box) : ∃ box ∈ (d.push r).rects, r'.Within box := by
  unfold Damage.push
  split_ifs with hroom
  · rcases h with rfl | ⟨box, hbox, h⟩
    · exact ⟨r', by simp, Rect.Within.refl r'⟩
    · exact ⟨box, List.mem_append_left _ hbox, h⟩
  · refine ⟨_, List.mem_singleton_self _, within_foldl_union d.rects r ?_⟩
    rcases h with rfl | h
    · exact Or.inl (Rect.Within.refl r')
    · exact Or.inr h

/-- **What was pushed since the last clear lies in what is stored.** -/
theorem run_within (ops : List DamageOp) {d : Damage} {pushed : List Rect}
    (h : ∀ r ∈ pushed, ∃ box ∈ d.rects, r.Within box) :
    ∀ r ∈ ops.foldl pushedAfter pushed, ∃ box ∈ (ops.foldl Damage.apply d).rects,
      r.Within box := by
  induction ops generalizing d pushed with
  | nil => exact h
  | cons op ops ih =>
    refine ih fun r hr => ?_
    cases op with
    | push r' =>
      rcases List.mem_append.1 hr with hr | hr
      · exact d.push_within r' (Or.inr (h r hr))
      · exact d.push_within r' (Or.inl (List.mem_singleton.1 hr))
    | clear => cases hr

theorem tracks (ops : List DamageOp) : Tracks ops :=
  ⟨(ops.foldl Damage.apply Damage.new).le, run_within ops nofun⟩

/-! ### The reported rectangles -/

/-- A grab is not refused. -/
structure GrabpixArg.Accepted (arg : GrabpixArg) : Prop where
  mode : arg.mode = grabpixModeDirty
  numRects : 1 ≤ arg.numRects
  shaped : arg.Shaped

/-- **What the reported rectangles owe the client**, given the damage they are to report. -/
structure Reports (arg : GrabpixArg) (s : PreparedScanout α) (damage rects : List Rect) : Prop where
  number : (rects.length : ℤ) ≤ arg.numRects
  nonempty : ∀ r ∈ rects, r.x1 < r.x2 ∧ r.y1 < r.y2
  inFrame : ∀ r ∈ rects, 0 ≤ r.x1 ∧ r.x2 ≤ s.width ∧ 0 ≤ r.y1 ∧ r.y2 ≤ s.height
  inBuffer : ∀ r ∈ rects, r.x2 ≤ arg.bufWidth ∧ r.y2 ≤ arg.bufHeight
  covers : ∀ x y, Covered damage x y → s.Shows x y → x < arg.bufWidth → y < arg.bufHeight →
    Covered rects x y
  exact : ∀ r ∈ rects, r.clip.rect = r

/-- In the rows the client has, what a grab looks at ends at the declared width exactly where it
ends at the stride: nothing recorded (or, without a record, nothing of the frame) lies beyond the
width and in the stride, and nothing recorded lies in the width and beyond the stride. -/
def GrabpixArg.Fits (arg : GrabpixArg) (s : PreparedScanout α) (damage : List Rect) : Prop :=
  ∀ x y, s.Shows x y → y < arg.bufHeight →
    (damage = [] ∨ Covered damage x y → x < (arg.bufByteStride.toNat / bpp : ℕ) →
      x < arg.bufWidth) ∧
    (Covered damage x y → x < arg.bufWidth → x < (arg.bufByteStride.toNat / bpp : ℕ))

variable {arg : GrabpixArg} {s : PreparedScanout α} {damage : List Rect}

/-- Where the reported rectangles lie. -/
theorem grabRects_inside (hshaped : arg.Shaped) :
    ∀ r ∈ grabRects arg.request s.toFramebuffer damage,
      (r.x1 < r.x2 ∧ r.y1 < r.y2) ∧ (0 ≤ r.x1 ∧ r.x2 ≤ s.width ∧ 0 ≤ r.y1 ∧ r.y2 ≤ s.height) ∧
        r.x2 ≤ (arg.bufByteStride.toNat / bpp : ℕ) ∧ r.y2 ≤ arg.bufHeight := by
  have hwidth := s.width_nonneg
  have hheight := s.height_nonneg
  have hrows := hshaped.2.2.2
  refine grabRects_induction (fun r _ hx hy => ?_) fun bb r hbb hr => ?_
  · revert hx hy
    simp only [clampRect, clamp, GrabpixArg.request]
    omega
  · revert hbb hr
    simp only [Rect.union]
    omega

/-- A reported rectangle ends at a recorded pixel, or at one of the frame if none is recorded. -/
theorem grabRects_right (hshaped : arg.Shaped) :
    ∀ r ∈ grabRects arg.request s.toFramebuffer damage, ∃ y,
      s.Shows (r.x2 - 1) y ∧ y < arg.bufHeight ∧ r.x2 - 1 < (arg.bufByteStride.toNat / bpp : ℕ) ∧
        (damage = [] ∨ Covered damage (r.x2 - 1) y) := by
  have hwidth := s.width_nonneg
  have hheight := s.height_nonneg
  have hrows := hshaped.2.2.2
  refine grabRects_induction (fun r hr => ?_) fun bb r hbb hr => ?_
  · intro c hx hy
    have hcontains : r.Contains (c.x2 - 1) c.y1 ∧ s.Shows (c.x2 - 1) c.y1 ∧
        c.y1 < arg.bufHeight ∧ c.x2 - 1 < (arg.bufByteStride.toNat / bpp : ℕ) := by
      revert hx hy
      simp only [c, clampRect, clamp, GrabpixArg.request, Rect.Contains, Framebuffer.Shows]
      omega
    obtain ⟨hin, hshows, hy', hx'⟩ := hcontains
    refine ⟨c.y1, hshows, hy', hx', ?_⟩
    by_cases hempty : damage = []
    · exact Or.inl hempty
    · rw [if_neg hempty] at hr
      exact Or.inr ⟨r, hr, hin⟩
  · rcases le_total bb.x2 r.x2 with hle | hle
    · rw [show (bb.union r).x2 = r.x2 from max_eq_right hle]
      exact hr
    · rw [show (bb.union r).x2 = bb.x2 from max_eq_left hle]
      exact hbb

theorem length_grabRects (h : 1 ≤ arg.numRects) :
    ((grabRects arg.request s.toFramebuffer damage).length : ℤ) ≤ arg.numRects := by
  unfold grabRects
  dsimp only
  generalize List.filter _ _ = rects
  cases rects with
  | nil => exact le_trans (by simp) h
  | cons bb rest =>
    show ((if min (max arg.numRects 1).toNat maxDamageRects < (bb :: rest).length then
      [rest.foldl Rect.union bb] else bb :: rest).length : ℤ) ≤ arg.numRects
    by_cases hcap : min (max arg.numRects 1).toNat maxDamageRects < (bb :: rest).length
    · rw [if_pos hcap]
      exact h
    · rw [if_neg hcap]
      omega

/-- A rectangle of the frame is what the client reads. -/
theorem clip_rect {r : Rect} (hx : 0 ≤ r.x1) (hy : 0 ≤ r.y1) (hsize : r.x1 < r.x2 ∧ r.y1 < r.y2)
    (hx2 : r.x2 ≤ maxResolution) (hy2 : r.y2 ≤ maxResolution) : r.clip.rect = r := by
  unfold maxResolution at hx2 hy2
  have hfield {v : ℤ} (h0 : 0 ≤ v) (hv : v ≤ 8192) : ((UInt16.ofNat v.toNat).toNat : ℤ) = v := by
    rw [UInt16.toNat_ofNat', Nat.mod_eq_of_lt (by omega), Int.toNat_of_nonneg h0]
  unfold Rect.clip ClipRect.rect
  rw [hfield hx (by omega), hfield hy (by omega), hfield (by omega) hx2, hfield (by omega) hy2]

/-- **When a grab reports all the damage, inside both buffers**: where the declared width and the
stride make no difference. -/
theorem reports_iff (h : arg.Accepted) (s : PreparedScanout α) (damage : Damage)
    (ops : List DamageOp) :
    (Tracks ops ∧ Reports arg s damage.rects
      (grabRects arg.request s.toFramebuffer damage.rects)) ↔ arg.Fits s damage.rects := by
  have hinside (r : Rect) (hr : r ∈ grabRects arg.request s.toFramebuffer damage.rects) :=
    grabRects_inside h.shaped r hr
  constructor
  · rintro ⟨-, hreports⟩ x y hshows hy
    have hcovers (hrecorded : damage.rects = [] ∨ Covered damage.rects x y)
        (hx : x < (arg.bufByteStride.toNat / bpp : ℕ)) :=
      grabRects_covers_of_lt (q := arg.request) hshows hx hy hrecorded
    constructor
    · intro hrecorded hx
      obtain ⟨r, hr, hin⟩ := hcovers hrecorded hx
      exact hin.2.1.trans_le (hreports.inBuffer r hr).1
    · intro hrecorded hx
      obtain ⟨r, hr, hin⟩ := hreports.covers x y hrecorded hshows hx hy
      exact hin.2.1.trans_le (hinside r hr).2.2.1
  · intro hfits
    refine ⟨tracks ops, ?_⟩
    refine
      { number := length_grabRects h.numRects
        nonempty := fun r hr => (hinside r hr).1
        inFrame := fun r hr => (hinside r hr).2.1
        inBuffer := fun r hr => ⟨?_, (hinside r hr).2.2.2⟩
        covers := fun x y hrecorded hshows hx hy => ?_
        exact := fun r hr => ?_ }
    · obtain ⟨y, hshows, hy, hx, hrecorded⟩ := grabRects_right h.shaped r hr
      have hlt := (hfits _ y hshows hy).1 hrecorded hx
      omega
    · have hlt := (hfits x y hshows hy).2 hrecorded hx
      exact grabRects_covers_of_lt (q := arg.request) hshows hlt hy (Or.inr hrecorded)
    · obtain ⟨hsize, ⟨hx, hx2, hy, hy2⟩, -⟩ := hinside r hr
      exact clip_rect hx hy hsize (hx2.trans s.width_le) (hy2.trans s.height_le)

/-- A row of four pixels. -/
def fourPixels : PreparedScanout Unit where
  width := 4
  height := 1
  pixel := fun _ _ => ()
  srcLen := 16
  pitch := 16
  width_nonneg := by decide
  width_le := by decide
  height_nonneg := by decide
  height_le := by decide

/-- A call for that row, by the declared width and the stride. -/
def grabOf (bufWidth bufByteStride : ℤ) : GrabpixArg :=
  ⟨grabpixModeDirty, bufWidth, 1, bufByteStride, 0x1000, 16, 0x2000⟩

theorem accepted_grabOf {bufWidth bufByteStride : ℤ} (hw : 0 ≤ bufWidth)
    (hs : 0 < bufByteStride) : (grabOf bufWidth bufByteStride).Accepted :=
  ⟨rfl, (by decide : (1 : ℤ) ≤ 16), (by decide : 0x1000 ≠ 0), hs, hw,
    (by decide : (0 : ℤ) ≤ 1)⟩

/-- A client whose stride is its width gets the row, and all of it. -/
theorem row_reported :
    (Tracks [.push ⟨0, 0, 4, 1⟩] ∧
      Reports (grabOf 4 16) fourPixels [⟨0, 0, 4, 1⟩]
        (grabRects (grabOf 4 16).request fourPixels.toFramebuffer [⟨0, 0, 4, 1⟩])) ∧
    grabRects (grabOf 4 16).request fourPixels.toFramebuffer [⟨0, 0, 4, 1⟩] = [⟨0, 0, 4, 1⟩] :=
  ⟨(reports_iff (accepted_grabOf (by decide) (by decide)) fourPixels
      ⟨[⟨0, 0, 4, 1⟩], by decide⟩ [.push ⟨0, 0, 4, 1⟩]).2
        fun _ _ _ _ => ⟨fun _ hx => hx, fun _ hx => hx⟩, by decide⟩

/-- A client with two columns in a stride of four is told of all four; one with four columns in a
stride of two is not told of the last. -/
theorem stride_reported :
    grabRects (grabOf 2 16).request fourPixels.toFramebuffer [⟨0, 0, 4, 1⟩] = [⟨0, 0, 4, 1⟩] ∧
    grabRects (grabOf 4 8).request fourPixels.toFramebuffer [⟨3, 0, 4, 1⟩] = [] ∧
    ¬ ∀ (arg : GrabpixArg) (s : PreparedScanout Unit) (damage : Damage), arg.Accepted →
      Reports arg s damage.rects (grabRects arg.request s.toFramebuffer damage.rects) := by
  have htold : grabRects (grabOf 2 16).request fourPixels.toFramebuffer [⟨0, 0, 4, 1⟩] =
      [⟨0, 0, 4, 1⟩] := by decide
  refine ⟨htold, by decide, fun h => ?_⟩
  have hreports := h (grabOf 2 16) fourPixels ⟨[⟨0, 0, 4, 1⟩], by decide⟩
    (accepted_grabOf (by decide) (by decide))
  dsimp only at hreports
  rw [htold] at hreports
  exact absurd (hreports.inBuffer _ (List.mem_singleton_self _)).1 (by decide)

end Vino.Evdi
