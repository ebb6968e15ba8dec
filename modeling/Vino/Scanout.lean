import Vino.Haar.Records
import Vino.Profile

/-!
# What to Send for One Presented Frame

Per head, the host keeps a hash of every strip as it was last published and a retransmit debt:
a changed strip is charged as many transmissions as the dock needs to reach all its buffers and
stays selected until it has paid them.  `plan` decides between nothing, the macro-tiles that owe
something and a whole keyframe; `encode` builds the strips, reusing bodies whose hash is still
current; `presented` publishes the hashes and books the transmission, only once the frame has
reached the dock.
-/

namespace Vino.Scanout

open Vino.Haar.Strip Vino.Haar.Records Vino.Profile Vino.Lib.Bits

/-! ### Strips of a surface -/

/-- A half-open damage rectangle `(x0, y0, x1, y1)`. -/
abbrev Clip := ℕ × ℕ × ℕ × ℕ

/-- The raster-ordered top-left coordinate of every strip of a surface. -/
def allStripCoords (g : Geometry) (width height : ℕ) : List (ℕ × ℕ) :=
  (List.range ((height + g.stripH - 1) / g.stripH)).flatMap fun ty =>
    (List.range ((width + g.stripW - 1) / g.stripW)).map fun tx => (tx * g.stripW, ty * g.stripH)

/-- A clip overlaps the macro-tile of the strip at `(sx, sy)`. -/
def hitsMacro (g : Geometry) (sx sy : ℕ) (clip : Clip) : Bool :=
  let mx := sx / g.macroW * g.macroW
  let my := sy / g.macroH * g.macroH
  mx < clip.2.2.1 && clip.1 < mx + g.macroW && my < clip.2.2.2 && clip.2.1 < my + g.macroH

/-- The raster-ordered coordinates of the strips a damage set selects: every strip of a touched
macro-tile. -/
def damageStripCoords (g : Geometry) (width height : ℕ) (clips : List Clip) : List (ℕ × ℕ) :=
  (allStripCoords g width height).filter fun p => clips.any (hitsMacro g p.1 p.2)

/-- The pixel reader of a packed RGB888 surface, widened to the depth of the link. -/
def rgbReader (tenBit : Bool) (width : ℕ) (rgb : List UInt8) : PixelSource := fun x y =>
  let widen (v : UInt8) : UInt16 :=
    if tenBit then v.toUInt16 <<< 2 ||| v.toUInt16 >>> 6 else v.toUInt16
  let i := (y * width + x) * 3
  (widen (rgb.getD i 0), widen (rgb.getD (i + 1) 0), widen (rgb.getD (i + 2) 0))

/-- Encode the strip whose top-left pixel is `(sx, sy)`. -/
def encodeStrip (d : Dock) (width : ℕ) (rgb : List UInt8) (sx sy : ℕ) : Option (List UInt8) :=
  colourStripAt d.geometry sx sy (rgbReader d.tenBit width rgb)

/-! ### Content hashes -/

def hashPrime : UInt64 := 0x9e3779b185ebca87

def rotateLeft (x : UInt64) (k : UInt64) : UInt64 := x <<< k ||| x >>> (64 - k)

/-- Fold one line of a strip into its hash, eight bytes at a time and the remainder singly. -/
def hashLine (h : UInt64) : List UInt8 → UInt64
  | b0 :: b1 :: b2 :: b3 :: b4 :: b5 :: b6 :: b7 :: rest =>
      let word := [b7, b6, b5, b4, b3, b2, b1, b0].foldl
        (fun (w : UInt64) b => w <<< 8 ||| b.toUInt64) 0
      hashLine (rotateLeft ((h ^^^ word) * hashPrime) 31) rest
  | rest => rest.foldl (fun h b => (h ^^^ b.toUInt64) * hashPrime) h

/-- The pixel bytes of the strip in column `tx` and band `ty`, line by line. -/
def stripLines (rgb : List UInt8) (wPad stripW stripH tx ty : ℕ) : List (List UInt8) :=
  (List.range stripH).map fun dy =>
    (rgb.drop ((ty * stripH + dy) * (wPad * 3) + tx * (stripW * 3))).take (stripW * 3)

/-- The hash of a strip, from its position and its pixels. -/
def stripHash (tx ty : ℕ) (lines : List (List UInt8)) : UInt64 :=
  lines.foldl hashLine
    (hashPrime ^^^ rotateLeft (UInt64.ofNat tx) 17 ^^^ rotateLeft (UInt64.ofNat ty) 43)

/-- Hash each strip of a packed RGB888 surface, in raster order. -/
def stripHashes (rgb : List UInt8) (wPad hPad stripW stripH : ℕ) : List UInt64 :=
  (List.range (hPad / stripH)).flatMap fun ty =>
    (List.range (wPad / stripW)).map fun tx =>
      stripHash tx ty (stripLines rgb wPad stripW stripH tx ty)

/-! ### The ledger -/

/-- What one presented frame should put on the wire. -/
inductive Plan where
  | keyframe
  | damage (clips : List Clip)
  | idle
  deriving DecidableEq, Repr

/-- Cap on the number of damage rectangles. -/
def maxRects : ℕ := 128

/-- Per-head content shadow and retransmit ledger. -/
structure HeadScanout where
  dock : Dock
  wPad : ℕ
  hPad : ℕ
  hashes : List UInt64
  debt : List ℕ
  keyframeOwed : Bool
  pending : List UInt64
  bodies : List (Option (List UInt8))
  bodyHashes : List UInt64
  deriving DecidableEq

namespace HeadScanout

def new (dock : Dock) : HeadScanout where
  dock := dock
  wPad := 0
  hPad := 0
  hashes := []
  debt := []
  keyframeOwed := true
  pending := []
  bodies := []
  bodyHashes := []

def oweKeyframe (s : HeadScanout) : HeadScanout := { s with keyframeOwed := true }

/-- Whether some strip still owes a transmission. -/
def owesRetransmission (s : HeadScanout) : Bool := s.keyframeOwed || s.debt.any (0 < ·)

end HeadScanout

/-- The next run of owing strips in a band, from column `tx` on: the columns `[start, stop)`. -/
def nextRun (owes : ℕ → Bool) (tilesX tx : ℕ) : Option (ℕ × ℕ) :=
  match (List.range' tx (tilesX - tx)).find? owes with
  | none => none
  | some start =>
      some (start, ((List.range' start (tilesX - start)).find? fun x => !owes x).getD tilesX)

/-- The runs of owing strips in a band. -/
def bandRuns (owes : ℕ → Bool) (tilesX : ℕ) : ℕ → ℕ → List (ℕ × ℕ)
  | 0, _ => []
  | fuel + 1, tx =>
      match nextRun owes tilesX tx with
      | none => []
      | some (start, stop) => (start, stop) :: bandRuns owes tilesX fuel stop

/-- Grow the last rectangle that ends where this one begins, if there is one. -/
def growRect (rects : List Clip) (x0 x1 y0 y1 : ℕ) : Option (List Clip) :=
  match rects with
  | [] => none
  | r :: rest =>
      match growRect rest x0 x1 y0 y1 with
      | some rest' => some (r :: rest')
      | none =>
          if r.1 = x0 ∧ r.2.2.1 = x1 ∧ r.2.2.2 = y0 then
            some ((r.1, r.2.1, r.2.2.1, y1) :: rest)
          else none

/-- Add the rectangle of one run, merged downwards where the band above has the same span. -/
def addRect (stripW stripH ty : ℕ) (rects : List Clip) (r : ℕ × ℕ) : Option (List Clip) :=
  let x0 := r.1 * stripW
  let x1 := r.2 * stripW
  let y0 := ty * stripH
  let y1 := y0 + stripH
  match growRect rects x0 x1 y0 y1 with
  | some rects' => some rects'
  | none => if rects.length = maxRects then none else some (rects ++ [(x0, y0, x1, y1)])

/-- The strips that still owe a transmission as tile-aligned rectangles; `none` when the change
is too scattered. -/
def owedRects (debt : List ℕ) (tilesX tilesY stripW stripH : ℕ) : Option (List Clip) :=
  (List.range tilesY).foldlM
    (fun rects ty =>
      (bandRuns (fun tx => decide (0 < debt.getD (ty * tilesX + tx) 0)) tilesX (tilesX + 1)
        0).foldlM (addRect stripW stripH ty) rects)
    []

namespace HeadScanout

/-- A surface of a different size says nothing about the one the dock is holding. -/
def resized (s : HeadScanout) (wPad hPad expected : ℕ) : HeadScanout :=
  if s.wPad ≠ wPad ∨ s.hPad ≠ hPad ∨ s.hashes.length ≠ expected then
    { s with
      wPad := wPad
      hPad := hPad
      hashes := List.replicate expected 0
      debt := List.replicate expected 0
      bodies := List.replicate expected none
      bodyHashes := List.replicate expected 0
      keyframeOwed := true }
  else s

/-- The debt with every strip charged whose content moved. -/
def charged (s : HeadScanout) : List ℕ :=
  s.debt.mapIdx fun i d =>
    if s.hashes.getD i 0 ≠ s.pending.getD i 0 then s.dock.damageFrames else d

/-- Decide what to send for `rgb`, a padded surface of `wPad` by `hPad`. -/
def plan (s : HeadScanout) (wPad hPad : ℕ) (rgb : List UInt8) : HeadScanout × Plan :=
  let (stripW, stripH) := s.dock.stripDims
  let tilesX := wPad / stripW
  let tilesY := hPad / stripH
  let s := s.resized wPad hPad (tilesX * tilesY)
  let s := { s with pending := stripHashes rgb wPad hPad stripW stripH }
  if s.keyframeOwed then (s, .keyframe)
  else
    -- A strip that changed on an earlier frame and has not reached every buffer still owes.
    let s := { s with debt := s.charged }
    match owedRects s.debt tilesX tilesY stripW stripH with
    | none => (s, .keyframe)
    | some [] => (s, .idle)
    | some rects => (s, .damage rects)

/-- The strips a plan selects and how often the frame is presented. -/
def selection (s : HeadScanout) : Plan → List (ℕ × ℕ) × ℕ
  | .idle => ([], 0)
  | .damage clips =>
      (damageStripCoords s.dock.geometry s.wPad s.hPad clips, s.dock.deltaPresentations)
  | .keyframe => (allStripCoords s.dock.geometry s.wPad s.hPad, s.dock.keyframePresentations)

/-- The raster index of the strip at `(sx, sy)`. -/
def stripIndex (s : HeadScanout) (sx sy : ℕ) : ℕ :=
  sy / s.dock.stripDims.2 * (s.wPad / s.dock.stripDims.1) + sx / s.dock.stripDims.1

/-- The cached body of a strip, if it was encoded from the strip's current content. -/
def cached (s : HeadScanout) (index : ℕ) : Option (List UInt8) :=
  (s.bodies.getD index none).filter fun _ => s.bodyHashes.getD index 0 == s.pending.getD index 0

/-- One strip's body: the cached one if it is current, else a fresh one, which is cached. -/
def stripBody (s : HeadScanout) (rgb : List UInt8) (p : ℕ × ℕ) :
    HeadScanout × Option (List UInt8) :=
  let index := s.stripIndex p.1 p.2
  match s.cached index with
  | some body => (s, some body)
  | none =>
      match encodeStrip s.dock s.wPad rgb p.1 p.2 with
      | none => (s, none)
      | some body =>
          ({ s with
            bodies := s.bodies.set index (some body)
            bodyHashes := s.bodyHashes.set index (s.pending.getD index 0) }, some body)

/-- The bodies of the selected strips, in order.  What was cached before a failure stays. -/
def stripBodies (rgb : List UInt8) : HeadScanout → List (ℕ × ℕ) →
    HeadScanout × Option (List (List UInt8))
  | s, [] => (s, some [])
  | s, p :: ps =>
      match s.stripBody rgb p with
      | (s, none) => (s, none)
      | (s, some body) =>
          let (s, rest) := stripBodies rgb s ps
          (s, rest.map (body :: ·))

end HeadScanout

/-- One frame's worth of records, the strips they were framed from, and how many times to
present it. -/
structure Frame where
  coords : List (ℕ × ℕ)
  strips : List (List UInt8)
  records : List (List UInt8)
  presentations : ℕ

namespace HeadScanout

/-- Encode the strips a plan selects into records; nothing when it selects none.  `fault` is
the number of strips after which an allocation fails, if one does. -/
def encode (s : HeadScanout) (plan : Plan) (rgb : List UInt8) (head : UInt8) (fault : Option ℕ) :
    HeadScanout × Except Errno (Option Frame) :=
  let (coords, presentations) := s.selection plan
  if coords.isEmpty then (s, .ok none)
  else
    match fault with
    | some n => ((s.stripBodies rgb (coords.take n)).1, .error .ENOMEM)
    | none =>
        match s.stripBodies rgb coords with
        | (s, none) => (s, .error .EOVERFLOW)
        | (s, some strips) =>
            match frameRecords s.dock.geometry strips head with
            | .error e => (s, .error e)
            | .ok records => (s, .ok (some { coords, strips, records, presentations }))

/-- Record that a plan's frame reached the dock. -/
def presented (s : HeadScanout) : Plan → HeadScanout
  | .idle => s
  | .keyframe =>
      { s with
        debt := s.debt.map fun _ => 0
        keyframeOwed := false
        hashes := s.pending
        pending := [] }
  | .damage _ =>
      { s with
        debt := s.debt.map (· - 1)
        hashes := s.pending
        pending := [] }

end HeadScanout

end Vino.Scanout
