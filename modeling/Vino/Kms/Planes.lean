import Vino.Kms.Sources
import Vino.Lib.Chunks
import Vino.Lib.Run

/-!
# Plane Transforms and the Parallel Encoder

A connector's image is read through the transform of its plane: a rotation by quarter turns and
two reflections, given as a bit mask.  Where the transform is trivial and no colour is managed, the
pixels are read straight out of the snapshot.  The strips of a frame are encoded in chunks, each on
a work item of its own; the joining thread takes the chunks in their order, whenever each of them
is complete.

* `rotSrc_bijOn`: every transform turns the output onto the framebuffer,
* `px_eq_generalPx`: the direct path reads what the general one reads,
* `Joined`: what the work items and the joining thread have produced, kept by every event,
* `planes_exact`: what holds of every frame, every mask and every order of completion.
-/

namespace Vino.Kms.Planes

open Vino.Haar.Transform (Depth)
open Vino.Haar.Strip (Geometry colourStripAt)
open Vino.Color Vino.Lib.Chunks Vino.Lib.Run
open Vino.Kms.Shadow (Angle Rotation)

/-! ### The mask of a plane -/

def rotateMask : UInt32 := 0x0f
def rotate0 : UInt32 := 1
def rotate90 : UInt32 := 2
def rotate180 : UInt32 := 4
def rotate270 : UInt32 := 8
def reflectX : UInt32 := 16
def reflectY : UInt32 := 32

/-- The bits of a mask that rotate. -/
def angle (rotation : UInt32) : UInt32 := rotation &&& rotateMask

def contains (rotation flag : UInt32) : Bool := rotation &&& flag == flag

def srcDims (rotation : UInt32) (ow oh : ℕ) : ℕ × ℕ :=
  if angle rotation = rotate90 ∨ angle rotation = rotate270 then (oh, ow) else (ow, oh)

def rotSrc (rotation : UInt32) (dx dy sw sh : ℕ) : ℕ × ℕ :=
  let xmax := sw - 1
  let ymax := sh - 1
  let rot := angle rotation
  let p :=
    if rot = rotate90 then (dy, ymax - dx)
    else if rot = rotate180 then (xmax - dx, ymax - dy)
    else if rot = rotate270 then (xmax - dy, dx)
    else (dx, dy)
  (if contains rotation reflectX then xmax - p.1 else p.1,
    if contains rotation reflectY then ymax - p.2 else p.2)

/-- The transform a mask stands for; one whose rotation is not among the four does not turn. -/
def toRotation (rotation : UInt32) : Rotation where
  angle :=
    if angle rotation = rotate90 then .rotate90
    else if angle rotation = rotate180 then .rotate180
    else if angle rotation = rotate270 then .rotate270
    else .rotate0
  reflectX := contains rotation reflectX
  reflectY := contains rotation reflectY

theorem srcDims_eq (rotation : UInt32) (ow oh : ℕ) :
    srcDims rotation ow oh = Sources.srcDims (toRotation rotation) ow oh := by
  unfold srcDims Sources.srcDims toRotation
  by_cases h90 : angle rotation = rotate90
  · simp only [h90, true_or, if_true]
  · by_cases h180 : angle rotation = rotate180
    · simp only [h180, if_true, if_neg (show rotate180 ≠ rotate90 by decide)]
      exact if_neg (by decide)
    · by_cases h270 : angle rotation = rotate270
      · simp only [h270, or_true, if_true, if_neg (show rotate270 ≠ rotate90 by decide),
          if_neg (show rotate270 ≠ rotate180 by decide)]
      · simp only [h90, h180, h270, or_self, if_false]

theorem rotSrc_eq (rotation : UInt32) (dx dy sw sh : ℕ) :
    rotSrc rotation dx dy sw sh = Sources.rotSrc (toRotation rotation) dx dy sw sh := by
  unfold rotSrc Sources.rotSrc toRotation
  simp only
  split_ifs <;> rfl

/-! ### Turning a rectangle -/

/-- The pixels of a surface. -/
def surface (w h : ℕ) : Set (ℕ × ℕ) := {p | p.1 < w ∧ p.2 < h}

/-- The output's pixel at a pixel of the framebuffer. -/
def outOf (r : Rotation) (sw sh : ℕ) (p : ℕ × ℕ) : ℕ × ℕ :=
  let xmax := sw - 1
  let ymax := sh - 1
  let sx := if r.reflectX then xmax - p.1 else p.1
  let sy := if r.reflectY then ymax - p.2 else p.2
  match r.angle with
  | .rotate90 => (ymax - sy, sx)
  | .rotate180 => (xmax - sx, ymax - sy)
  | .rotate270 => (sy, xmax - sx)
  | .rotate0 => (sx, sy)

/-- A reflected coordinate stays in range, and is reflected back. -/
theorem reflect_lt (flag : Bool) {x n : ℕ} (h : x < n) :
    (if flag then n - 1 - x else x) < n ∧
      (if flag then n - 1 - (if flag then n - 1 - x else x)
        else (if flag then n - 1 - x else x)) = x := by
  cases flag with
  | false => exact ⟨h, rfl⟩
  | true =>
    simp only [if_true]
    omega

variable (r : Rotation) (ow oh : ℕ)

theorem rotSrc_mapsTo :
    Set.MapsTo (fun p => Sources.rotSrc r p.1 p.2 (Sources.srcDims r ow oh).1
      (Sources.srcDims r ow oh).2) (surface ow oh)
      (surface (Sources.srcDims r ow oh).1 (Sources.srcDims r ow oh).2) := by
  rintro ⟨dx, dy⟩ ⟨hx, hy⟩
  simp only at hx hy
  obtain ⟨ang, rx, ry⟩ := r
  cases ang <;>
    exact ⟨(reflect_lt rx (by simp only [Sources.srcDims]; omega)).1,
      (reflect_lt ry (by simp only [Sources.srcDims]; omega)).1⟩

theorem outOf_mapsTo :
    Set.MapsTo (outOf r (Sources.srcDims r ow oh).1 (Sources.srcDims r ow oh).2)
      (surface (Sources.srcDims r ow oh).1 (Sources.srcDims r ow oh).2) (surface ow oh) := by
  rintro ⟨sx, sy⟩ ⟨hx, hy⟩
  obtain ⟨ang, rx, ry⟩ := r
  have hrx := (reflect_lt rx hx).1
  have hry := (reflect_lt ry hy).1
  cases ang <;> simp only [Sources.srcDims, outOf, surface, Set.mem_ofPred_eq] at * <;> omega

theorem outOf_rotSrc :
    Set.LeftInvOn (outOf r (Sources.srcDims r ow oh).1 (Sources.srcDims r ow oh).2)
      (fun p => Sources.rotSrc r p.1 p.2 (Sources.srcDims r ow oh).1
        (Sources.srcDims r ow oh).2) (surface ow oh) := by
  rintro ⟨dx, dy⟩ ⟨hx, hy⟩
  simp only at hx hy
  obtain ⟨ang, rx, ry⟩ := r
  cases ang <;> cases rx <;> cases ry <;> refine Prod.ext ?_ ?_ <;>
    simp only [Sources.srcDims, Sources.rotSrc, outOf, if_true, Bool.false_eq_true, if_false] <;>
    omega

theorem rotSrc_outOf :
    Set.RightInvOn (outOf r (Sources.srcDims r ow oh).1 (Sources.srcDims r ow oh).2)
      (fun p => Sources.rotSrc r p.1 p.2 (Sources.srcDims r ow oh).1
        (Sources.srcDims r ow oh).2)
      (surface (Sources.srcDims r ow oh).1 (Sources.srcDims r ow oh).2) := by
  rintro ⟨sx, sy⟩ ⟨hx, hy⟩
  obtain ⟨ang, rx, ry⟩ := r
  cases ang <;> cases rx <;> cases ry <;> refine Prod.ext ?_ ?_ <;>
    simp only [Sources.srcDims, Sources.rotSrc, outOf, if_true, Bool.false_eq_true, if_false]
      at * <;>
    omega

/-- **Every transform turns the output onto the framebuffer**, pixel by pixel. -/
theorem rotSrc_bijOn (rotation : UInt32) :
    Set.BijOn (fun p => rotSrc rotation p.1 p.2 (srcDims rotation ow oh).1
      (srcDims rotation ow oh).2) (surface ow oh)
      (surface (srcDims rotation ow oh).1 (srcDims rotation ow oh).2) := by
  simp only [srcDims_eq, rotSrc_eq]
  exact Set.InvOn.bijOn ⟨outOf_rotSrc _ ow oh, rotSrc_outOf _ ow oh⟩ (rotSrc_mapsTo _ ow oh)
    (outOf_mapsTo _ ow oh)

/-! ### Pixels -/

/-- The encoder may read the pixels of the output straight out of the snapshot. -/
def directPixelMap (rotation : UInt32) (color : Option ColorPipeline) (w h outputW outputH : ℕ) :
    Bool :=
  color.isNone && rotation == rotate0 && outputW == w && outputH == h

/-- `pixels.get(off..off + 4)`. -/
def bytesAt (pixels : List UInt8) (off : ℕ) : Option (Fin 4 → UInt8) :=
  if h : off + 4 ≤ pixels.length then some fun i => pixels.get ⟨off + i, by omega⟩ else none

local instance neZero_four : NeZero 4 := ⟨by decide⟩

/-- `u32::from_le_bytes`. -/
def fromLeBytes (b : Fin 4 → UInt8) : UInt32 :=
  UInt32.ofNat
    ((b 0).toNat + 256 * (b 1).toNat + 65536 * (b 2).toNat + 16777216 * (b 3).toNat)

/-- What the encode workers share: a snapshot and how it is read. -/
structure PixelSource where
  pixels : List UInt8
  pitch : ℕ
  w : ℕ
  h : ℕ
  outputW : ℕ
  outputH : ℕ
  rotation : UInt32
  color : Option ColorPipeline
  direct : Bool
  depth : Depth
  sourceDepth : Depth
  direct_eq : direct = directPixelMap rotation color w h outputW outputH

namespace PixelSource

variable (src : PixelSource)

/-- The snapshot by its words, with what is applied to them. -/
def sampler : Sources.PixelSource where
  snapshot := ⟨src.w, src.h, fun x y =>
    ((bytesAt src.pixels (y * src.pitch + x * 4)).map fromLeBytes).getD 0⟩
  rotation := toRotation src.rotation
  color := src.color
  depth := src.depth
  sourceDepth := src.sourceDepth

/-- A pixel of the snapshot, unpacked and corrected. -/
def sourcePx (sx sy : ℕ) : UInt16 × UInt16 × UInt16 :=
  if src.w ≤ sx ∨ src.h ≤ sy then (0, 0, 0)
  else
    match bytesAt src.pixels (sy * src.pitch + sx * 4) with
    | none => (0, 0, 0)
    | some b => src.sampler.corrected (src.sampler.unpack (fromLeBytes b))

/-- The general path of `px`. -/
def generalPx (dx dy : ℕ) : UInt16 × UInt16 × UInt16 :=
  if src.outputW ≤ dx ∨ src.outputH ≤ dy then (0, 0, 0)
  else
    let p := rotSrc src.rotation dx dy src.w src.h
    src.sourcePx p.1 p.2

/-- A pixel of the output. -/
def px (dx dy : ℕ) : UInt16 × UInt16 × UInt16 :=
  if src.direct then
    if src.w ≤ dx ∨ src.h ≤ dy then (0, 0, 0)
    else
      match bytesAt src.pixels (dy * src.pitch + dx * 4) with
      | none => (0, 0, 0)
      | some b =>
          match src.sourceDepth with
          | .eight => src.sampler.widen ((b 2).toUInt16, (b 1).toUInt16, (b 0).toUInt16)
          | .ten => src.sampler.unpack (fromLeBytes b)
  else src.generalPx dx dy

end PixelSource

/-- A byte of a word. -/
theorem toNat_byte (p n : UInt32) :
    ((p >>> n) &&& 0xff).toNat = p.toNat / 2 ^ (n.toNat % 32) % 256 := by
  rw [UInt32.toNat_and, UInt32.toNat_shiftRight, Nat.shiftRight_eq_div_pow]
  exact Nat.and_two_pow_sub_one_eq_mod _ 8

/-- The channels of an eight-bit pixel are its bytes. -/
theorem unpackSource_fromLeBytes {src : Sources.PixelSource} (h : src.sourceDepth = .eight)
    (b : Fin 4 → UInt8) :
    src.unpackSource (fromLeBytes b) = ((b 2).toUInt16, (b 1).toUInt16, (b 0).toUInt16) := by
  have h0 := (b 0).toNat_lt
  have h1 := (b 1).toNat_lt
  have h2 := (b 2).toNat_lt
  have h3 := (b 3).toNat_lt
  have hword : (fromLeBytes b).toNat =
      (b 0).toNat + 256 * (b 1).toNat + 65536 * (b 2).toNat + 16777216 * (b 3).toNat :=
    UInt32.toNat_ofNat_of_lt' (show _ < 4294967296 by omega)
  have hred := toNat_byte (fromLeBytes b) 16
  have hgreen := toNat_byte (fromLeBytes b) 8
  have hblue : (fromLeBytes b &&& 0xff).toNat = (fromLeBytes b).toNat % 256 := by
    rw [UInt32.toNat_and]
    exact Nat.and_two_pow_sub_one_eq_mod _ 8
  change _ = _ / 65536 % 256 at hred
  change _ = _ / 256 % 256 at hgreen
  rw [hword] at hred hgreen hblue
  unfold Sources.PixelSource.unpackSource
  rw [h]
  refine Prod.ext ?_ (Prod.ext ?_ ?_)
  · refine UInt16.toNat_inj.1 ?_
    rw [UInt8.toNat_toUInt16, UInt32.toNat_toUInt16, hred]
    omega
  · refine UInt16.toNat_inj.1 ?_
    rw [UInt8.toNat_toUInt16, UInt32.toNat_toUInt16, hgreen]
    omega
  · refine UInt16.toNat_inj.1 ?_
    rw [UInt8.toNat_toUInt16, UInt32.toNat_toUInt16, hblue]
    omega

/-- **The direct path reads what the general one reads.** -/
theorem px_eq_generalPx (src : PixelSource) (dx dy : ℕ) : src.px dx dy = src.generalPx dx dy := by
  unfold PixelSource.px
  split
  · next hdirect =>
    rw [src.direct_eq] at hdirect
    simp only [directPixelMap, Bool.and_eq_true, Option.isNone_iff_eq_none, beq_iff_eq] at hdirect
    obtain ⟨⟨⟨hcolor, hrot⟩, hw⟩, hh⟩ := hdirect
    have hmap : rotSrc src.rotation dx dy src.w src.h = (dx, dy) := by
      rw [hrot]
      rfl
    have hplain : ∀ c, src.sampler.corrected c = c := by
      intro c
      have hnone : src.sampler.color = none := hcolor
      simp only [Sources.PixelSource.corrected, hnone]
    unfold PixelSource.generalPx PixelSource.sourcePx
    rw [hmap, hw, hh]
    simp only
    split
    · rfl
    · cases bytesAt src.pixels (dy * src.pitch + dx * 4) with
      | none => rfl
      | some b =>
        simp only [hplain]
        cases hdepth : src.sourceDepth with
        | eight =>
          have hunpack := @unpackSource_fromLeBytes src.sampler hdepth b
          rw [Sources.PixelSource.unpack, hunpack]
        | ten => rfl
  · rfl

/-- A snapshot that holds every word of its surface, behind an output of its size, is sampled as
its words are. -/
theorem px_eq_sampler (src : PixelSource)
    (hwords : ∀ x y, x < src.w → y < src.h → y * src.pitch + x * 4 + 4 ≤ src.pixels.length)
    (hdims : (src.w, src.h) = srcDims src.rotation src.outputW src.outputH) :
    src.px = src.sampler.px := by
  have hsource : ∀ x y, src.sourcePx x y = src.sampler.sourcePx x y := by
    intro x y
    unfold PixelSource.sourcePx Sources.PixelSource.sourcePx
    by_cases hin : x < src.w ∧ y < src.h
    · obtain ⟨b, hbytes⟩ : ∃ b, bytesAt src.pixels (y * src.pitch + x * 4) = some b :=
        ⟨_, dif_pos (hwords x y hin.1 hin.2)⟩
      have hinside : x < src.sampler.snapshot.w ∧ y < src.sampler.snapshot.h := hin
      rw [if_neg (by omega), if_pos hinside, hbytes]
      show _ = src.sampler.corrected (src.sampler.unpack
        (((bytesAt src.pixels (y * src.pitch + x * 4)).map fromLeBytes).getD 0))
      rw [hbytes]
      rfl
    · have houtside : ¬ (x < src.sampler.snapshot.w ∧ y < src.sampler.snapshot.h) := hin
      rw [if_pos (by omega), if_neg houtside]
  have hout : src.sampler.outputW = src.outputW ∧ src.sampler.outputH = src.outputH := by
    rw [srcDims_eq] at hdims
    obtain ⟨hw, hh⟩ := Prod.mk.inj hdims
    have hsampler : src.sampler.rotation = toRotation src.rotation := rfl
    unfold Sources.PixelSource.outputW Sources.PixelSource.outputH
    show (Sources.srcDims (toRotation src.rotation) src.w src.h).1 = _ ∧
      (Sources.srcDims (toRotation src.rotation) src.w src.h).2 = _
    rw [hw, hh]
    unfold Sources.srcDims
    cases (toRotation src.rotation).angle <;> exact ⟨rfl, rfl⟩
  have hgeneral : ∀ dx dy, src.generalPx dx dy =
      if dx < src.sampler.outputW ∧ dy < src.sampler.outputH then
        src.sampler.sourcePx (Sources.rotSrc src.sampler.rotation dx dy src.w src.h).1
          (Sources.rotSrc src.sampler.rotation dx dy src.w src.h).2
      else (0, 0, 0) := by
    intro dx dy
    unfold PixelSource.generalPx
    rw [hout.1, hout.2, rotSrc_eq]
    by_cases hin : dx < src.outputW ∧ dy < src.outputH
    · rw [if_neg (by omega), if_pos hin]
      exact hsource _ _
    · rw [if_pos (by omega), if_neg hin]
  funext dx dy
  rw [px_eq_generalPx, hgeneral]
  unfold Sources.PixelSource.px
  by_cases hdirect : src.sampler.direct = true
  · rw [if_pos hdirect]
    simp only [Sources.PixelSource.direct, Bool.and_eq_true, Option.isNone_iff_eq_none] at hdirect
    have hupright : src.sampler.rotation = Sources.upright :=
      Rotation.eq_of_identity hdirect.2 (by decide)
    have hplain : ∀ c, src.sampler.corrected c = c := by
      intro c
      simp only [Sources.PixelSource.corrected, hdirect.1]
    unfold Sources.PixelSource.outputW Sources.PixelSource.outputH Sources.PixelSource.sourcePx
    rw [hupright]
    simp only [Sources.srcDims, Sources.rotSrc, Sources.upright, hplain, Bool.false_eq_true,
      if_false]
    split_ifs <;> rfl
  · rw [if_neg hdirect]
    rfl

/-! ### Strips, one after the other -/

def encodeMaxWorkItems : ℕ := 256
def encodeMinStripsPerChunk : ℕ := 32

/-- Encode a batch of strips, in the order given. -/
def encodeCoords (g : Geometry) (src : PixelSource) (coords : List (ℕ × ℕ)) :
    Option (List (List UInt8)) :=
  coords.mapM fun c => colourStripAt g c.1 c.2 src.px

theorem encodeCoords_append (g : Geometry) (src : PixelSource) {cs ds : List (ℕ × ℕ)}
    {xs ys : List (List UInt8)} (hcs : encodeCoords g src cs = some xs)
    (hds : encodeCoords g src ds = some ys) : encodeCoords g src (cs ++ ds) = some (xs ++ ys) := by
  unfold encodeCoords at *
  rw [List.mapM_append, hcs, hds]
  rfl

/-- A batch encodes if each of its strips does. -/
theorem encodeCoords_isSome (g : Geometry) (src : PixelSource) (cs : List (ℕ × ℕ)) :
    (encodeCoords g src cs).isSome = true ↔
      ∀ c ∈ cs, (colourStripAt g c.1 c.2 src.px).isSome = true := by
  induction cs with
  | nil => exact ⟨fun _ c hc => absurd hc List.not_mem_nil, fun _ => rfl⟩
  | cons c cs ih =>
    rw [List.forall_mem_cons, ← ih]
    unfold encodeCoords
    rw [List.mapM_cons]
    cases colourStripAt g c.1 c.2 src.px with
    | none => simp
    | some x =>
      cases cs.mapM fun c => colourStripAt g c.1 c.2 src.px with
      | none => simp
      | some xs => simp

theorem encodeCoords_length (g : Geometry) (src : PixelSource) {cs : List (ℕ × ℕ)}
    {xs : List (List UInt8)} (h : encodeCoords g src cs = some xs) : xs.length = cs.length := by
  induction cs generalizing xs with
  | nil =>
    obtain rfl := Option.some.inj h
    rfl
  | cons c cs ih =>
    unfold encodeCoords at h ih
    rw [List.mapM_cons, Option.bind_eq_bind, Option.bind_eq_some_iff] at h
    obtain ⟨x, -, h⟩ := h
    rw [Option.bind_eq_bind, Option.bind_eq_some_iff] at h
    obtain ⟨ys, hys, h⟩ := h
    obtain rfl := Option.some.inj h
    rw [List.length_cons, List.length_cons, ih hys]

/-! ### Strips in chunks -/

/-- The loop that cuts the coordinates into chunks of `per`. -/
def chunkLoop (coords : List (ℕ × ℕ)) (per : ℕ) (hper : 0 < per) (start : ℕ) :
    List (List (ℕ × ℕ)) :=
  if start < coords.length then
    (coords.drop start).take (min (start + per) coords.length - start) ::
      chunkLoop coords per hper (min (start + per) coords.length)
  else []
termination_by coords.length - start

/-- **The chunks tile the list.** -/
theorem chunkLoop_eq (coords : List (ℕ × ℕ)) (per : ℕ) (hper : 0 < per) (start : ℕ) :
    chunkLoop coords per hper start = (coords.drop start).toChunks per := by
  unfold chunkLoop
  split
  · next hstart =>
    have hne : coords.drop start ≠ [] := by
      rw [← List.length_pos_iff, List.length_drop]
      omega
    rw [toChunks_cons hper hne, chunkLoop_eq]
    rcases Nat.lt_or_ge (start + per) coords.length with hmore | hlast
    · rw [min_eq_left hmore.le, Nat.add_sub_cancel_left, List.drop_drop]
    · rw [min_eq_right hlast, List.drop_length, List.drop_of_length_le (i := per) (by
          rw [List.length_drop]
          omega), List.take_of_length_le (by rw [List.length_drop]),
        List.take_of_length_le (by
          rw [List.length_drop]
          omega)]
  · next hstart =>
    rw [List.drop_of_length_le (Nat.not_lt.1 hstart), toChunks_eq_cut hper, cut_nil hper]
termination_by coords.length - start

/-- What `parallel_strip_encode` returns: nothing for a list it does not split. -/
inductive Outcome where
  | serial
  | error
  | strips (bodies : List (List UInt8))
  deriving DecidableEq

/-- The work items and the joining thread.  `out` is what lies in the items' cells. -/
structure Join where
  out : ℕ → List (List UInt8)
  done : ℕ → Bool
  next : ℕ
  strips : List (List UInt8)
  result : Option Outcome

def Join.new : Join := ⟨fun _ => [], fun _ => false, 0, [], none⟩

/-- A work item runs, or the joining thread gets on; an allocation of theirs may fail. -/
inductive Event where
  | work (i : ℕ) (allocated : Bool)
  | join (allocated : Bool)

section Encoder

variable (g : Geometry) (src : PixelSource) (chunks : List (List (ℕ × ℕ))) (queued : ℕ → Bool)

/-- The body of a work item. -/
def Join.work (s : Join) (i : ℕ) (allocated : Bool) : Join :=
  match chunks[i]? with
  | some coords =>
      if queued i && !s.done i then
        { s with
          out := if allocated then
              match encodeCoords g src coords with
              | some strips => Function.update s.out i strips
              | none => s.out
            else s.out
          done := Function.update s.done i true }
      else s
  | none => s

/-- The strips of the next chunk: those of its item, or encoded here if the queue refused it. -/
def Join.mine (s : Join) (coords : List (ℕ × ℕ)) (allocated : Bool) :
    Option (List (List UInt8)) :=
  if queued s.next then some (s.out s.next)
  else if allocated then encodeCoords g src coords
  else none

/-- One turn of the joining loop, or the return behind it. -/
def Join.join (s : Join) (allocated : Bool) : Join :=
  match s.result with
  | some _ => s
  | none =>
    match chunks[s.next]? with
    | none => { s with result := some (.strips s.strips) }
    | some coords =>
      if queued s.next && !s.done s.next then s
      else
        match s.mine g src queued coords allocated with
        | none => { s with result := some .error }
        | some mine =>
          if mine.length ≠ coords.length then
            { s with out := Function.update s.out s.next [], result := some .error }
          else if allocated then
            { s with
              out := Function.update s.out s.next []
              next := s.next + 1
              strips := s.strips ++ mine }
          else { s with out := Function.update s.out s.next [], result := some .error }

/-- The allocations of a step succeed. -/
def Event.allocated : Event → Bool
  | .work _ allocated => allocated
  | .join allocated => allocated

def Join.step (s : Join) : Event → Join
  | .work i allocated => s.work g src chunks queued i allocated
  | .join allocated => s.join g src chunks queued allocated

end Encoder

/-- How many chunks a list is cut into. -/
def chunkCount (coords : List (ℕ × ℕ)) : ℕ :=
  min (coords.length / encodeMinStripsPerChunk) encodeMaxWorkItems

/-- How many strips a chunk has. -/
def perChunk (coords : List (ℕ × ℕ)) : ℕ :=
  (coords.length + chunkCount coords - 1) / chunkCount coords

theorem perChunk_pos {coords : List (ℕ × ℕ)} (h : 2 ≤ chunkCount coords) :
    0 < perChunk coords := by
  have hlen : encodeMinStripsPerChunk ≤ coords.length := by
    unfold chunkCount encodeMinStripsPerChunk encodeMaxWorkItems at *
    omega
  unfold encodeMinStripsPerChunk at hlen
  exact Nat.div_pos (by omega) (by omega)

/-- Encode the strips on work items: `dispatched` says whether the chunks and the room for the
result were allocated, `queued` which items the queue took, `es` what happens then. -/
def parallelStripEncode (g : Geometry) (src : PixelSource) (coords : List (ℕ × ℕ))
    (dispatched : Bool) (queued : ℕ → Bool) (es : List Event) : Option Outcome :=
  if h : chunkCount coords < 2 then some .serial
  else if dispatched then
    (run (Join.step g src
      (chunkLoop coords (perChunk coords) (perChunk_pos (Nat.not_lt.1 h)) 0) queued) .new es).result
  else some .error

/-! ### Every order of completion -/

section Invariants

variable (g : Geometry) (src : PixelSource) (chunks : List (List (ℕ × ℕ)))

/-- What the work items and the joining thread have produced. -/
structure Joined (s : Join) : Prop where
  cells : ∀ i coords, chunks[i]? = some coords →
    s.out i = [] ∨ encodeCoords g src coords = some (s.out i)
  strips : encodeCoords g src (chunks.take s.next).flatten = some s.strips
  result : ∀ o, s.result = some o → o = .error ∨
    ∃ bodies, encodeCoords g src chunks.flatten = some bodies ∧ o = .strips bodies

theorem joined_new : Joined g src chunks .new :=
  ⟨fun _ _ _ => .inl rfl, rfl, fun _ ho => nomatch ho⟩

variable {g src chunks} {queued : ℕ → Bool} {s : Join}

/-- A cell that is emptied is one that holds nothing. -/
theorem Joined.emptied (h : Joined g src chunks s) (i : ℕ) :
    ∀ j coords, chunks[j]? = some coords → Function.update s.out i [] j = [] ∨
      encodeCoords g src coords = some (Function.update s.out i [] j) := by
  intro j coords hj
  rcases eq_or_ne j i with rfl | hne
  · left
    rw [Function.update_self]
  · rw [Function.update_of_ne hne]
    exact h.cells j coords hj

theorem Joined.work (h : Joined g src chunks s) (i : ℕ) (allocated : Bool) :
    Joined g src chunks (s.work g src chunks queued i allocated) := by
  unfold Join.work
  split
  · next coords hcoords =>
    split_ifs with hrun hroom
    · refine ⟨fun j coords' hj => ?_, h.strips, h.result⟩
      simp only
      cases hstrips : encodeCoords g src coords with
      | none => exact h.cells j coords' hj
      | some strips =>
        simp only
        rcases eq_or_ne j i with rfl | hne
        · rw [hcoords] at hj
          obtain rfl := Option.some.inj hj
          right
          rw [Function.update_self]
          exact hstrips
        · rw [Function.update_of_ne hne]
          exact h.cells j coords' hj
    · exact ⟨h.cells, h.strips, h.result⟩
    · exact h
  · exact h

/-- What the joining thread takes for a chunk is empty or what the chunk encodes to. -/
theorem Joined.taken (h : Joined g src chunks s) {coords : List (ℕ × ℕ)}
    (hcoords : chunks[s.next]? = some coords) {allocated : Bool} {mine : List (List UInt8)}
    (hmine : s.mine g src queued coords allocated = some mine) :
    mine = [] ∨ encodeCoords g src coords = some mine := by
  unfold Join.mine at hmine
  split_ifs at hmine with hqueued hroom
  · obtain rfl := Option.some.inj hmine
    exact h.cells s.next coords hcoords
  · exact .inr hmine

theorem Joined.join (hne : ∀ coords ∈ chunks, coords ≠ []) (h : Joined g src chunks s)
    (allocated : Bool) : Joined g src chunks (s.join g src chunks queued allocated) := by
  unfold Join.join
  split
  · exact h
  · split
    · next hend =>
      have hall := h.strips
      rw [List.take_of_length_le (List.getElem?_eq_none_iff.1 hend)] at hall
      exact ⟨h.cells, h.strips, fun o ho => .inr ⟨s.strips, hall, (Option.some.inj ho).symm⟩⟩
    · next coords hcoords =>
      split
      · exact h
      · split
        · exact ⟨h.cells, h.strips, fun o ho => .inl (Option.some.inj ho).symm⟩
        · next mine hmine =>
          split_ifs with hshort hroom
          · exact ⟨h.emptied s.next, h.strips, fun o ho => .inl (Option.some.inj ho).symm⟩
          · refine ⟨h.emptied s.next, ?_, h.result⟩
            have hchunk : encodeCoords g src coords = some mine := by
              rcases h.taken hcoords hmine with rfl | hchunk
              · -- a chunk that failed is short, as no chunk is empty
                rw [List.length_nil, not_not, eq_comm, List.length_eq_zero_iff] at hshort
                exact absurd hshort (hne coords (List.mem_of_getElem? hcoords))
              · exact hchunk
            show encodeCoords g src (chunks.take (s.next + 1)).flatten = some (s.strips ++ mine)
            rw [List.take_add_one, hcoords, Option.toList_some, List.flatten_append,
              List.flatten_singleton]
            exact encodeCoords_append g src h.strips hchunk
          · exact ⟨h.emptied s.next, h.strips, fun o ho => .inl (Option.some.inj ho).symm⟩

theorem Joined.step (hne : ∀ coords ∈ chunks, coords ≠ []) (h : Joined g src chunks s) (e : Event) :
    Joined g src chunks (s.step g src chunks queued e) := by
  cases e with
  | work i allocated => exact h.work i allocated
  | join allocated => exact h.join hne allocated

/-- **In every order of completion, with every failure.** -/
theorem joined_run (hne : ∀ coords ∈ chunks, coords ≠ []) (es : List Event) :
    Joined g src chunks (run (Join.step g src chunks queued) .new es) :=
  run_invariant (C := fun _ _ => True) (fun _ e h _ => h.step hne e) es _ (joined_new g src chunks)
    (along_of_forall es _ fun _ _ => trivial)

end Invariants

/-! ### No failure, no error -/

section Unfailed

variable (g : Geometry) (src : PixelSource) (chunks : List (List (ℕ × ℕ))) (queued : ℕ → Bool)

/-- The items that are done have filled their cells, and no error is reported. -/
structure Unfailed (s : Join) : Prop where
  cells : ∀ i coords, chunks[i]? = some coords → queued i = true → s.done i = true →
    s.next ≤ i → encodeCoords g src coords = some (s.out i)
  result : s.result ≠ some .error

theorem unfailed_new : Unfailed g src chunks queued .new :=
  ⟨fun _ _ _ _ hdone _ => absurd hdone Bool.false_ne_true, nofun⟩

variable {g src chunks queued} {s : Join}

theorem Unfailed.work (hall : ∀ coords ∈ chunks, ∃ bodies, encodeCoords g src coords = some bodies)
    (h : Unfailed g src chunks queued s) (i : ℕ) :
    Unfailed g src chunks queued (s.work g src chunks queued i true) := by
  unfold Join.work
  split
  · next coords hcoords =>
    split
    · obtain ⟨bodies, hbodies⟩ := hall coords (List.mem_of_getElem? hcoords)
      simp only [if_true, hbodies]
      refine ⟨fun j coords' hj hqueued hdone hnext => ?_, h.result⟩
      rcases eq_or_ne j i with rfl | hne
      · rw [hcoords] at hj
        obtain rfl := Option.some.inj hj
        simp only
        rw [Function.update_self]
        exact hbodies
      · simp only at hdone hnext ⊢
        rw [Function.update_of_ne hne] at hdone ⊢
        exact h.cells j coords' hj hqueued hdone hnext
    · exact h
  · exact h

theorem Unfailed.join (hall : ∀ coords ∈ chunks, ∃ bodies, encodeCoords g src coords = some bodies)
    (h : Unfailed g src chunks queued s) :
    Unfailed g src chunks queued (s.join g src chunks queued true) := by
  unfold Join.join
  split
  · exact h
  · split
    · exact ⟨h.cells, nofun⟩
    · next hresult _ coords hcoords =>
      split
      · exact h
      · next hready =>
        obtain ⟨bodies, hbodies⟩ := hall coords (List.mem_of_getElem? hcoords)
        have hmine : s.mine g src queued coords true = some bodies := by
          unfold Join.mine
          split
          · next hqueued =>
            have hdone : s.done s.next = true := by simpa [hqueued] using hready
            rw [← hbodies, h.cells s.next coords hcoords hqueued hdone le_rfl]
          · exact hbodies
        simp only [hmine]
        rw [if_neg (not_not.2 (encodeCoords_length g src hbodies)), if_pos trivial]
        refine ⟨fun j coords' hj hqueued hdone hnext => ?_, h.result⟩
        have hne : j ≠ s.next := Nat.ne_of_gt hnext
        simp only
        rw [Function.update_of_ne hne]
        exact h.cells j coords' hj hqueued hdone (Nat.le_of_succ_le hnext)

/-- **Without a failure there is no error.** -/
theorem unfailed_run
    (hall : ∀ coords ∈ chunks, ∃ bodies, encodeCoords g src coords = some bodies)
    {es : List Event} (hes : ∀ e ∈ es, e.allocated = true) :
    Unfailed g src chunks queued (run (Join.step g src chunks queued) .new es) := by
  refine run_invariant (C := fun _ e => e.allocated = true) (fun s e h he => ?_) es _
    (unfailed_new g src chunks queued) (along_of_forall es _ hes)
  cases e with
  | work i allocated =>
    obtain rfl : allocated = true := he
    exact h.work hall i
  | join allocated =>
    obtain rfl : allocated = true := he
    exact h.join hall

end Unfailed

/-! ### The joining thread returns -/

section Progress

variable {g : Geometry} {src : PixelSource} {chunks : List (List (ℕ × ℕ))} {queued : ℕ → Bool}
  {s : Join}

theorem done_work {i : ℕ} (hi : i < chunks.length) (hqueued : queued i = true)
    (allocated : Bool) : (s.work g src chunks queued i allocated).done i = true := by
  unfold Join.work
  rw [List.getElem?_eq_getElem hi]
  simp only [hqueued, Bool.true_and, Bool.not_eq_true']
  split
  · exact Function.update_self ..
  · next hdone => exact Bool.not_eq_false _ ▸ hdone

/-- An item stays done. -/
theorem done_step {i : ℕ} (h : s.done i = true) (e : Event) :
    (s.step g src chunks queued e).done i = true := by
  cases e with
  | work j allocated =>
    show (s.work g src chunks queued j allocated).done i = true
    unfold Join.work
    split
    · split
      · rcases eq_or_ne i j with rfl | hne
        · exact Function.update_self ..
        · exact (Function.update_of_ne hne ..).trans h
      · exact h
    · exact h
  | join allocated =>
    show (s.join g src chunks queued allocated).done i = true
    unfold Join.join
    split
    · exact h
    · split
      · exact h
      · split
        · exact h
        · split
          · exact h
          · split
            · exact h
            · split <;> exact h

theorem done_run {i : ℕ} (hi : i < chunks.length) (hqueued : queued i = true) :
    ∀ (es : List Event) (s : Join), (s.done i = true ∨ ∃ allocated, .work i allocated ∈ es) →
      (run (Join.step g src chunks queued) s es).done i = true
  | [], _, h => h.elim id fun ⟨_, hmem⟩ => nomatch hmem
  | e :: es, s, h => by
    refine done_run hi hqueued es (s.step g src chunks queued e) ?_
    rcases h with hdone | ⟨allocated, hmem⟩
    · exact .inl (done_step hdone e)
    · rcases List.mem_cons.1 hmem with rfl | hmem
      · exact .inl (done_work hi hqueued allocated)
      · exact .inr ⟨allocated, hmem⟩

/-- A joining thread that finds every item done gets on. -/
theorem join_turn (hdone : ∀ i < chunks.length, queued i = true → s.done i = true)
    (allocated : Bool) :
    (s.join g src chunks queued allocated).result.isSome = true ∨
      s.next < chunks.length ∧ (s.join g src chunks queued allocated).next = s.next + 1 := by
  unfold Join.join
  split
  · next hresult => exact .inl (hresult ▸ rfl)
  · split
    · exact .inl rfl
    · next coords hcoords =>
      obtain ⟨hin, -⟩ := List.getElem?_eq_some_iff.1 hcoords
      split
      · next hwait =>
        rw [Bool.and_eq_true, Bool.not_eq_true'] at hwait
        rw [hdone s.next hin hwait.1] at hwait
        exact absurd hwait.2 (by decide)
      · split
        · exact .inl rfl
        · split
          · exact .inl rfl
          · split
            · exact .inr ⟨hin, rfl⟩
            · exact .inl rfl

theorem result_join (h : s.result.isSome = true) (allocated : Bool) :
    (s.join g src chunks queued allocated).result.isSome = true := by
  obtain ⟨o, ho⟩ := Option.isSome_iff_exists.1 h
  unfold Join.join
  rw [ho]
  exact h

/-- **The joining thread returns**, a turn for each chunk and one behind the last. -/
theorem joins_return : ∀ (turns : List Bool) (s : Join),
    (∀ i < chunks.length, queued i = true → s.done i = true) →
    (s.result.isSome = true ∨ chunks.length - s.next < turns.length) →
    (run (Join.step g src chunks queued) s (turns.map .join)).result.isSome = true
  | [], _, _, h => h.resolve_right (Nat.not_lt_zero _)
  | turn :: turns, s, hdone, h => by
    refine joins_return turns (s.join g src chunks queued turn)
      (fun i hi hqueued => done_step (hdone i hi hqueued) (.join turn)) ?_
    rcases h with hresult | hturns
    · exact .inl (result_join hresult turn)
    · rcases join_turn hdone turn with hresult | ⟨hin, hnext⟩
      · exact .inl hresult
      · right
        rw [hnext]
        rw [List.length_cons] at hturns
        omega

end Progress

/-! ### The whole frame -/

/-- The loop cuts no more chunks than there is room for. -/
theorem length_chunks_le {coords : List (ℕ × ℕ)} (h : 2 ≤ chunkCount coords) :
    (coords.toChunks (perChunk coords)).length ≤ chunkCount coords := by
  have hper := perChunk_pos h
  have hround : coords.length ≤ chunkCount coords * perChunk coords := by
    have hdiv := Nat.div_add_mod (coords.length + chunkCount coords - 1) (chunkCount coords)
    have hmod := Nat.mod_lt (coords.length + chunkCount coords - 1) (show 0 < chunkCount coords by
      omega)
    unfold perChunk
    omega
  rw [length_toChunks hper, ← Nat.lt_succ_iff, Nat.div_lt_iff_lt_mul hper, Nat.succ_mul]
  omega

variable (g : Geometry) (src : PixelSource) (coords : List (ℕ × ℕ))

/-- A list that is split is joined from its chunks. -/
theorem parallelStripEncode_eq (h : 2 ≤ chunkCount coords) (queued : ℕ → Bool)
    (es : List Event) : parallelStripEncode g src coords true queued es =
    (run (Join.step g src (coords.toChunks (perChunk coords)) queued) .new es).result := by
  unfold parallelStripEncode
  rw [dif_neg (Nat.not_lt.2 h), if_pos rfl]
  simp only [chunkLoop_eq, List.drop_zero]

/-- Lists of fewer than 64 strips are not split. -/
theorem chunkCount_lt_two : chunkCount coords < 2 ↔ coords.length < 64 := by
  unfold chunkCount encodeMinStripsPerChunk encodeMaxWorkItems
  omega

/-- A list that is split gives an error or its strips. -/
theorem outcome_of_split (h : 2 ≤ chunkCount coords) (dispatched : Bool) (queued : ℕ → Bool)
    (es : List Event) {o : Outcome}
    (ho : parallelStripEncode g src coords dispatched queued es = some o) :
    o = .error ∨ ∃ bodies, encodeCoords g src coords = some bodies ∧ o = .strips bodies := by
  cases dispatched with
  | false =>
    unfold parallelStripEncode at ho
    rw [dif_neg (Nat.not_lt.2 h), if_neg Bool.false_ne_true] at ho
    exact .inl (Option.some.inj ho).symm
  | true =>
    have hper := perChunk_pos h
    rw [parallelStripEncode_eq g src coords h] at ho
    have hne : ∀ chunk ∈ coords.toChunks (perChunk coords), chunk ≠ [] :=
      fun _ hmem => mem_toChunks_ne_nil hper hmem
    rw [← flatten_toChunks hper coords]
    exact (joined_run hne es).result o ho

theorem serial_iff (dispatched : Bool) (queued : ℕ → Bool) (es : List Event) :
    parallelStripEncode g src coords dispatched queued es = some .serial ↔
      coords.length < 64 := by
  rw [← chunkCount_lt_two]
  constructor
  · intro hserial
    by_contra hsplit
    rcases outcome_of_split g src coords (Nat.not_lt.1 hsplit) dispatched queued es hserial with
      herror | ⟨bodies, -, hbodies⟩
    · exact absurd herror (by decide)
    · exact Outcome.noConfusion hbodies
  · intro hshort
    unfold parallelStripEncode
    rw [dif_pos hshort]

/-- Once every item has run, the encoder returns. -/
theorem parallelStripEncode_returns (dispatched : Bool) (queued : ℕ → Bool) (es : List Event)
    (hes : ∀ i < chunkCount coords, ∃ allocated, .work i allocated ∈ es) (turns : List Bool)
    (hturns : chunkCount coords < turns.length) :
    (parallelStripEncode g src coords dispatched queued (es ++ turns.map .join)).isSome = true := by
  by_cases h : chunkCount coords < 2
  · unfold parallelStripEncode
    rw [dif_pos h]
    rfl
  · have hsplit := Nat.not_lt.1 h
    have hlen := length_chunks_le hsplit
    cases dispatched with
    | false =>
      unfold parallelStripEncode
      rw [dif_neg h, if_neg Bool.false_ne_true]
      rfl
    | true =>
      rw [parallelStripEncode_eq g src coords hsplit, run_append]
      refine joins_return turns _ (fun i hi hqueued => ?_) (.inr ?_)
      · exact done_run hi hqueued es .new (.inr (hes i (by omega)))
      · omega

/-- Without a failure the encoder reports none. -/
theorem parallelStripEncode_unfailed {bodies : List (List UInt8)}
    (hbodies : encodeCoords g src coords = some bodies) (queued : ℕ → Bool) (es : List Event)
    (hes : ∀ e ∈ es, e.allocated = true) :
    parallelStripEncode g src coords true queued es ≠ some .error := by
  by_cases h : chunkCount coords < 2
  · unfold parallelStripEncode
    rw [dif_pos h]
    decide
  · have hsplit := Nat.not_lt.1 h
    rw [parallelStripEncode_eq g src coords hsplit]
    have hall : ∀ chunk ∈ coords.toChunks (perChunk coords),
        ∃ bodies, encodeCoords g src chunk = some bodies := by
      intro chunk hchunk
      rw [← Option.isSome_iff_exists, encodeCoords_isSome]
      intro c hc
      refine (encodeCoords_isSome g src coords).1 (Option.isSome_of_eq_some hbodies) c ?_
      rw [← flatten_toChunks (perChunk_pos hsplit) coords]
      exact List.mem_flatten_of_mem hchunk hc
    exact (unfailed_run hall hes).result

/-- **Strips encoded in parallel are those encoded in series, under every transform.**  In every
order of completion and with every failure, the parallel encoder declines exactly the lists that
are too short, and else reports an error or the strips of the whole list in its order; it returns
once the items have run, and reports no error without a failure.  The direct path reads the pixels
of the general one, and every mask turns every output onto its framebuffer. -/
theorem planes_exact :
    (∀ dispatched queued es,
      parallelStripEncode g src coords dispatched queued es = some .serial ↔
        coords.length < 64) ∧
    (∀ dispatched queued es o, parallelStripEncode g src coords dispatched queued es = some o →
      o = .serial ∨ o = .error ∨
        ∃ bodies, encodeCoords g src coords = some bodies ∧ o = .strips bodies) ∧
    (∀ dispatched queued es (turns : List Bool),
      (∀ i < chunkCount coords, ∃ allocated, Event.work i allocated ∈ es) →
      chunkCount coords < turns.length →
      (parallelStripEncode g src coords dispatched queued
        (es ++ turns.map Event.join)).isSome = true) ∧
    (∀ bodies queued es, encodeCoords g src coords = some bodies →
      (∀ e ∈ es, Event.allocated e = true) →
      parallelStripEncode g src coords true queued es ≠ some .error) ∧
    (∀ dx dy, src.px dx dy = src.generalPx dx dy) ∧
    ∀ rotation ow oh, Set.BijOn
      (fun p : ℕ × ℕ => rotSrc rotation p.1 p.2 (srcDims rotation ow oh).1
        (srcDims rotation ow oh).2)
      (surface ow oh) (surface (srcDims rotation ow oh).1 (srcDims rotation ow oh).2) := by
  refine ⟨serial_iff g src coords, fun dispatched queued es o ho => ?_,
    fun dispatched queued es turns hes hturns =>
      parallelStripEncode_returns g src coords dispatched queued es hes turns hturns,
    fun bodies queued es hbodies hes =>
      parallelStripEncode_unfailed g src coords hbodies queued es hes,
    px_eq_generalPx src, fun rotation ow oh => rotSrc_bijOn ow oh rotation⟩
  by_cases h : chunkCount coords < 2
  · unfold parallelStripEncode at ho
    rw [dif_pos h] at ho
    exact .inl (Option.some.inj ho).symm
  · exact .inr (outcome_of_split g src coords (Nat.not_lt.1 h) dispatched queued es ho)

end Vino.Kms.Planes
