import Vino.Color
import Vino.Evdi.Painter
import Vino.Lib.Run

/-!
# Grabs under a Colour Transform

A grab applies the colour transform of the CRTC to the rectangles it copies.  The transform changes
with the commits of the CRTC, the damage with the flips of the plane, and the two meet only in the
copy.

* `tinted_after_grab`: behind every grab the client's buffer is the current framebuffer under the
  current transform, and a commit that changes it finds a frame waiting to be grabbed, in every run
  whose commits change only pixels that are recorded as damage,
* `tint_left_behind`: a commit by itself leaves the client with the old colours, and a partial flip
  behind it is grabbed beside them.
-/

namespace Vino.Evdi.Tint

open Vino.Color Vino.Lib.Run

/-! ### State -/

/-- A pixel of an XRGB8888 framebuffer. -/
structure Pixel where
  blue : UInt8
  green : UInt8
  red : UInt8
  unused : UInt8
  deriving DecidableEq, Repr

/-- The pixel under a transform, which never fails on one (`Color.apply_succeeds`). -/
def tint (color : Option ColorPipeline) (p : Pixel) : Pixel :=
  match color with
  | none => p
  | some pipeline =>
      match pipeline.apply p.red p.green p.blue with
      | none => p
      | some (r, g, b) => { p with red := r, green := g, blue := b }

structure State where
  scanout : Option (Framebuffer Pixel)
  frameDirty : Bool
  damage : Damage
  color : Option ColorPipeline
  /-- `UPDATE_READY` events sent so far. -/
  sent : ℕ
  buffer : Image Pixel

/-- Nothing has been flipped in yet. -/
def State.initial (buffer : Image Pixel) : State := ⟨none, false, Damage.new, none, 0, buffer⟩

inductive Event where
  | atomicUpdate (fb : Framebuffer Pixel) (clips : List Rect)
  | atomicFlush (lut : Option (List ColorLut)) (ctm : Option ColorCtm)
  | grabpix (q : Request)

/-- What a commit of the CRTC builds; building never fails (`Color.diagonal_path_general`). -/
def built (lut : Option (List ColorLut)) (ctm : Option ColorCtm) : Option ColorPipeline :=
  (build lut ctm).getD none

def step (s : State) : Event → State
  | .atomicUpdate fb clips =>
      { s with
        scanout := some fb
        damage := s.damage.pushAll clips
        frameDirty := true
        sent := s.sent + 1 }
  | .atomicFlush lut ctm => { s with color := built lut ctm }
  | .grabpix q =>
      match s.scanout with
      | none => s
      | some fb =>
          { s with
            frameDirty := false
            damage := Damage.new
            buffer := copyRects (fun x y => tint s.color (fb.pixel x y))
              (grabRects q fb s.damage.rects) s.buffer }

/-! ### What is promised and what is asked for -/

/-- A flip covers what it changes, and the client's buffer holds the framebuffer. -/
def Event.WellFormed (s : State) : Event → Prop
  | .atomicUpdate fb clips => Honest s.scanout fb clips
  | .atomicFlush _ _ => True
  | .grabpix q => ∀ fb, s.scanout = some fb → q.Holds fb

/-- The commit changes the colour of a pixel of the current framebuffer. -/
def Recolours (s : State) (color : Option ColorPipeline) (x y : ℤ) : Prop :=
  ∃ fb, s.scanout = some fb ∧ fb.Shows x y ∧
    tint color (fb.pixel x y) ≠ tint s.color (fb.pixel x y)

/-- A commit of the CRTC recolours only pixels that are recorded as damage. -/
def Event.Damaged (s : State) : Event → Prop
  | .atomicFlush lut ctm => ∀ x y, Recolours s (built lut ctm) x y → Covered s.damage.rects x y
  | _ => True

/-- What a step must leave behind: a grab that leaves no frame waiting, the current framebuffer under
the current transform; a commit that recolours a pixel, a frame that is waiting or announced. -/
def Event.Follows (s : State) : Event → Prop
  | .atomicUpdate _ _ => True
  | .atomicFlush lut ctm => ∀ x y, Recolours s (built lut ctm) x y →
      (step s (.atomicFlush lut ctm)).frameDirty = true ∨
        s.sent < (step s (.atomicFlush lut ctm)).sent
  | .grabpix q => (step s (.grabpix q)).frameDirty = false → ∀ fb, s.scanout = some fb →
      ∀ x y, fb.Shows x y →
        (step s (.grabpix q)).buffer x y = tint (step s (.grabpix q)).color (fb.pixel x y)

/-! ### The invariant -/

structure Inv (s : State) : Prop where
  dirty : s.damage.rects ≠ [] → s.frameDirty = true
  /-- A pixel of the old colour or the old frame is recorded as damage. -/
  owed : ∀ fb, s.scanout = some fb → ∀ x y, fb.Shows x y →
    s.buffer x y ≠ tint s.color (fb.pixel x y) → Covered s.damage.rects x y

theorem inv_initial (buffer : Image Pixel) : Inv (State.initial buffer) :=
  ⟨fun h => absurd rfl h, nofun⟩

variable {s : State}

theorem inv_atomicUpdate (h : Inv s) {fb : Framebuffer Pixel} {clips : List Rect}
    (hhonest : Honest s.scanout fb clips) : Inv (step s (.atomicUpdate fb clips)) where
  dirty _ := rfl
  owed fb' hfb' x y hshows hstale := by
    obtain rfl := Option.some.inj hfb'
    refine s.damage.pushAll_covers clips ?_
    by_cases hclips : Covered clips x y
    · exact .inr hclips
    · obtain ⟨o, ho, hoshows, heq⟩ := hhonest.unchanged hshows hclips
      refine .inl (h.owed o ho x y hoshows ?_)
      rw [heq]
      exact hstale

theorem inv_atomicFlush (h : Inv s) {lut : Option (List ColorLut)} {ctm : Option ColorCtm}
    (hdamaged : (Event.atomicFlush lut ctm).Damaged s) : Inv (step s (.atomicFlush lut ctm)) where
  dirty := h.dirty
  owed fb hfb x y hshows hstale := by
    by_cases hsame : tint (built lut ctm) (fb.pixel x y) = tint s.color (fb.pixel x y)
    · refine h.owed fb hfb x y hshows ?_
      rw [← hsame]
      exact hstale
    · exact hdamaged x y ⟨fb, hfb, hshows, hsame⟩

/-- **Behind a grab every pixel has its colour.** -/
theorem grabpix_tints (h : Inv s) {q : Request} {fb : Framebuffer Pixel} (hfb : s.scanout = some fb)
    (hfits : q.Holds fb) {x y : ℤ} (hshows : fb.Shows x y) :
    copyRects (fun x y => tint s.color (fb.pixel x y)) (grabRects q fb s.damage.rects) s.buffer x y =
      tint s.color (fb.pixel x y) := by
  rw [copyRects_eq]
  split_ifs with hcovered
  · rfl
  · by_contra hstale
    exact hcovered (grabRects_covers hfits hshows (.inr (h.owed fb hfb x y hshows hstale)))

theorem inv_grabpix (h : Inv s) {q : Request} (hwell : (Event.grabpix q).WellFormed s) :
    Inv (step s (.grabpix q)) := by
  simp only [step]
  split
  · exact h
  · rename_i fb hfb
    refine ⟨fun hne => absurd rfl hne, fun fb' hfb' x y hshows hstale => ?_⟩
    obtain rfl := Option.some.inj (hfb.symm.trans hfb')
    exact absurd (grabpix_tints h hfb (hwell fb hfb) hshows) hstale

theorem inv_step (h : Inv s) {e : Event} (hwell : e.WellFormed s) (hdamaged : e.Damaged s) :
    Inv (step s e) := by
  cases e with
  | atomicUpdate fb clips => exact inv_atomicUpdate h hwell
  | atomicFlush lut ctm => exact inv_atomicFlush h hdamaged
  | grabpix q => exact inv_grabpix h hwell

theorem Inv.follows (h : Inv s) {e : Event} (hwell : e.WellFormed s) (hdamaged : e.Damaged s) :
    e.Follows s := by
  cases e with
  | atomicUpdate fb clips => trivial
  | atomicFlush lut ctm =>
      intro x y hrecolours
      obtain ⟨r, hr, -⟩ := hdamaged x y hrecolours
      exact .inl (h.dirty (List.ne_nil_of_mem hr))
  | grabpix q =>
      intro _ fb hfb x y hshows
      simp only [step, hfb]
      exact grabpix_tints h hfb (hwell fb hfb) hshows

/-- **The client's buffer follows the colour transform**, in every run whose commits recolour only
pixels that are recorded as damage. -/
theorem tinted_after_grab (buffer : Image Pixel) (es : List Event)
    (hes : Along (fun s e => e.WellFormed s ∧ e.Damaged s) step (State.initial buffer) es)
    (before : List Event) (e : Event) (after : List Event) (hsplit : es = before ++ e :: after) :
    e.Follows (run step (State.initial buffer) before) := by
  subst hsplit
  obtain ⟨hbefore, hnow, -⟩ := (along_append before (e :: after) _).1 hes
  have hinv := run_invariant (P := Inv) (fun _ _ h hC => inv_step h hC.1 hC.2) before _
    (inv_initial buffer) hbefore
  exact hinv.follows hnow.1 hnow.2

/-! ### A commit without a flip -/

/-- A white framebuffer. -/
def white : Framebuffer Pixel := fullHd fun _ _ => ⟨255, 255, 255, 0⟩

/-- A corner of the screen. -/
def corner : Rect := ⟨0, 0, 64, 64⟩

def black : Image Pixel := fun _ _ => ⟨0, 0, 0, 0⟩

theorem holds_white (fb : Framebuffer Pixel) (hfb : some white = some fb) : fullFrame.Holds fb := by
  obtain rfl := Option.some.inj hfb
  exact holds_fullHd _

/-- A flip with nothing changed is honest with any clips. -/
theorem honest_unchanged (fb : Framebuffer Pixel) (clips : List Rect) :
    Honest (some fb) fb clips :=
  fun _ _ h => absurd rfl (h.2 fb rfl h.1)

/-- The matrix that halves green and removes blue turns white into this. -/
theorem tint_white :
    tint (built none (some halfGreen)) ⟨255, 255, 255, 0⟩ = ⟨0, 128, 255, 0⟩ := by
  obtain ⟨pipeline, hbuilt, hstands⟩ := build_stands none (some halfGreen)
    (m := ![65536, 0, 0, 0, 32768, 0, 0, 0, -65536]) (by decide +kernel) (by decide)
  have hgeneral : (ColorPipeline.mixed ![65536, 0, 0, 0, 32768, 0, 0, 0, -65536] none).apply
      255 255 255 = some (255, 128, 0) := by decide +kernel
  have happly := hstands 255 255 255
  rw [built, hbuilt]
  cases pipeline with
  | none =>
      have hidentity := hgeneral.symm.trans happly
      revert hidentity
      decide
  | some p =>
      have hpixel : p.apply 255 255 255 = some (255, 128, 0) := happly.trans hgeneral
      simp [tint, hpixel]

/-- A commit of the CRTC together with a flip of the whole screen, and a grab. -/
def recolouredFlip : List Event :=
  [.atomicUpdate white [screen], .atomicFlush none (some halfGreen), .grabpix fullFrame]

theorem tinted_after_grab_recolouredFlip :
    (Event.grabpix fullFrame).Follows (run step (State.initial black)
      [.atomicUpdate white [screen], .atomicFlush none (some halfGreen)]) := by
  refine tinted_after_grab black recolouredFlip ⟨⟨honest_screen none _, trivial⟩, ⟨trivial, ?_⟩,
    ⟨holds_white, trivial⟩, trivial⟩ [.atomicUpdate white [screen],
      .atomicFlush none (some halfGreen)] (.grabpix fullFrame) [] rfl
  rintro x y ⟨fb, hfb, hshows, -⟩
  obtain rfl := Option.some.inj hfb
  exact covered_screen hshows

/-- A commit of the CRTC behind a grab, then a flip of a corner and a grab. -/
def recolouredLater : List Event :=
  [.atomicUpdate white [screen], .grabpix fullFrame, .atomicFlush none (some halfGreen),
    .atomicUpdate white [corner], .grabpix fullFrame]

/-- **Colours are left behind**: the commit recolours the screen and nothing tells the client; the
grab behind the partial flip then leaves the rest of the screen in the old colours. -/
theorem tint_left_behind :
    Along (fun s e => e.WellFormed s) step (State.initial black) recolouredLater ∧
      ¬(Event.atomicFlush none (some halfGreen)).Follows
        (run step (State.initial black) (recolouredLater.take 2)) ∧
      ¬(Event.grabpix fullFrame).Follows
        (run step (State.initial black) (recolouredLater.take 4)) := by
  refine ⟨⟨honest_screen none _, holds_white, trivial, honest_unchanged white _, holds_white, trivial⟩,
    fun hfollows => ?_, fun hfollows => ?_⟩
  · have hrecolours : Recolours (run step (State.initial black) (recolouredLater.take 2))
        (built none (some halfGreen)) 0 0 := by
      refine ⟨white, rfl, ⟨by decide, by decide, by decide, by decide⟩, ?_⟩
      show tint (built none (some halfGreen)) ⟨255, 255, 255, 0⟩ ≠ ⟨255, 255, 255, 0⟩
      rw [tint_white]
      decide
    rcases hfollows 0 0 hrecolours with hdirty | hsent
    · cases hdirty
    · exact absurd hsent (lt_irrefl _)
  · have hpixel := hfollows rfl white rfl 100 100 ⟨by decide, by decide, by decide, by decide⟩
    have hbuffer : (step (run step (State.initial black) (recolouredLater.take 4))
        (.grabpix fullFrame)).buffer 100 100 = ⟨255, 255, 255, 0⟩ := by
      show copyRects (fun x y => tint (built none (some halfGreen)) (white.pixel x y))
        (grabRects fullFrame white [corner]) (copyRects (fun x y => tint none (white.pixel x y))
          (grabRects fullFrame white [screen]) black) 100 100 = _
      rw [copyRects_eq, if_neg (by decide), copyRects_eq, if_pos (by decide)]
      rfl
    rw [hbuffer] at hpixel
    have htinted := tint_white
    rw [show tint (built none (some halfGreen)) ⟨255, 255, 255, 0⟩ = ⟨255, 255, 255, 0⟩ from
      hpixel.symm] at htinted
    revert htinted
    decide

end Vino.Evdi.Tint
