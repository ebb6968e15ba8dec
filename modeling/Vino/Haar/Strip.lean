import Mathlib
import Vino.Haar.Coder
import Vino.Lib.Buffer

/-!
# Strip Geometry and the Encoding of One Strip

A strip is the unit the dock accepts: sixteen blocks carrying Y, Cb and Cr for a rectangle of
the surface.  `Geometry` says how a dock cuts a surface into strips; the strip itself is a
sixteen-byte header followed by three bit-packed regions: the significance trees with the DC
tokens, and the AC coefficients of the two halves.
-/

namespace Vino.Haar.Strip

open Vino.Haar.Transform Vino.Haar.Coder Vino.Lib.Bits Vino.Lib.Buffer Vino.Lib.Checked

/-! ### Geometry -/

/-- Everything about a dock's video encoding that differs between platforms.  The two strip
layouts are 64×16 and 128×8 pixels, always sixteen blocks. -/
structure Geometry where
  stripWShift : ℕ
  stripHShift : ℕ
  interlacedBands : Bool
  bandParityBit : Bool
  connectorSelectorShift : UInt8
  streamIdMask : UInt8
  dockBuffers : UInt8
  steadySubBit : UInt8
  depth : Depth
  coding : CodeTables
  layout : (stripWShift = 6 ∧ stripHShift = 4) ∨ (stripWShift = 7 ∧ stripHShift = 3)
  dockBuffers_pos : 1 ≤ dockBuffers
  deriving DecidableEq

namespace Geometry

/-- A dock's geometry from its profile; any layout but sixteen blocks across is 64×16. -/
def new (stripBlocksX : ℕ) (interlacedBands bandParityBit : Bool)
    (connectorSelectorShift streamIdMask dockBuffers : UInt8) : Geometry where
  stripWShift := if stripBlocksX = 16 then 7 else 6
  stripHShift := if stripBlocksX = 16 then 3 else 4
  interlacedBands := interlacedBands
  bandParityBit := bandParityBit
  connectorSelectorShift := connectorSelectorShift
  streamIdMask := streamIdMask
  dockBuffers := max dockBuffers 1
  steadySubBit := 0
  depth := .eight
  coding := .wide
  layout := by split_ifs <;> simp
  dockBuffers_pos := by
    change 1 ≤ if dockBuffers ≤ 1 then 1 else dockBuffers
    split_ifs with h
    · exact UInt8.le_refl 1
    · exact UInt8.le_of_lt (UInt8.not_le.1 h)

def withDepth (g : Geometry) (depth : Depth) : Geometry := { g with depth := depth }

def withCoding (g : Geometry) (coding : CodeTables) : Geometry := { g with coding := coding }

def withSteadySubBit (g : Geometry) (bit : UInt8) : Geometry := { g with steadySubBit := bit }

/-- The geometry of a frame that opens a stream. -/
def opening (g : Geometry) : Geometry := { g with steadySubBit := 0 }

def stripW (g : Geometry) : ℕ := 2 ^ g.stripWShift

def stripH (g : Geometry) : ℕ := 2 ^ g.stripHShift

/-- Damage macro-tile: four by four strips. -/
def macroW (g : Geometry) : ℕ := 4 * g.stripW

def macroH (g : Geometry) : ℕ := 4 * g.stripH

/-- The connector as it stands in a record's `sub`. -/
def connectorSelector (g : Geometry) (connector : UInt8) : UInt8 :=
  connector <<< g.connectorSelectorShift

/-- The content-stream id of a connector. -/
def streamId (g : Geometry) (connector : UInt8) : UInt16 :=
  (g.connectorSelector connector ||| g.streamIdMask).toUInt16

end Geometry

/-! ### Blocks -/

/-- One quantised block: the coefficients of the three planes and their last significant AC
positions. -/
structure ColourBlock where
  qcr : Coeffs
  qcb : Coeffs
  qy : Coeffs
  lcr : ℕ
  lcb : ℕ
  ly : ℕ
  deriving DecidableEq

/-- The last significant position found by an ascending pass over `1..64`. -/
def lastSignificant (q : Coeffs) : ℕ :=
  (List.range' 1 63).foldl (fun last i => if q (Fin.ofNat 64 i) ≠ 0 then i else last) 0

/-- Quantise a transformed plane: position 0 with `dc`, the others with `ac`. -/
def quantizePlane (dc : ℤ → Option ℤ) (ac : ℤ → Fin 64 → Option ℤ) (t : Coeffs) :
    Option Coeffs :=
  tabulate fun i => if i = 0 then dc (t i) else ac (t i) i

/-- Transform and quantise one block's three planes, with `lumaAc` for the luma AC
coefficients. -/
def colourBlockWith (lumaAc : ℤ → Fin 64 → Option ℤ) (cr cb y : Matrix (Fin 8) (Fin 8) ℤ) :
    Option ColourBlock := do
  let tcr ← transform cr
  let tcb ← transform cb
  let ty ← transform y
  let qcr ← quantizePlane (quantizeDcRound 2) quantizeChromaAc tcr
  let qcb ← quantizePlane (quantizeDcRound 1) quantizeChromaAc tcb
  let qy ← quantizePlane (quantizeDcRound 0) lumaAc ty
  return {
    qcr, qcb, qy
    lcr := lastSignificant qcr
    lcb := lastSignificant qcb
    ly := lastSignificant qy }

/-- Transform and quantise one block's three planes. -/
def colourBlock : Matrix (Fin 8) (Fin 8) ℤ → Matrix (Fin 8) (Fin 8) ℤ →
    Matrix (Fin 8) (Fin 8) ℤ → Option ColourBlock :=
  colourBlockWith quantize

/-- A pixel source: the three channels at a frame coordinate. -/
abbrev PixelSource := ℕ → ℕ → UInt16 × UInt16 × UInt16

/-- The pixel at row `r`, column `c` of the strip's block `k`, through the colour
transform. -/
def blockSample (g : Geometry) (ox oy : ℕ) (px : PixelSource) (k : ℕ) (r c : Fin 8) :
    Option (ℤ × ℤ × ℤ) :=
  let acrossShift := g.stripWShift - 3
  let bx := k &&& (1 <<< acrossShift - 1)
  let bY := k >>> acrossShift
  let p := px (ox + bx * 8 + c) (oy + bY * 8 + r)
  colour p.1.toNat p.2.1.toNat p.2.2.toNat

/-- Gather the sixteen blocks of the strip at `(ox, oy)`, in raster order within it, each
built by `mk` from its planes Cr, Cb and Y. -/
def stripBlocksWith (mk : Matrix (Fin 8) (Fin 8) ℤ → Matrix (Fin 8) (Fin 8) ℤ →
      Matrix (Fin 8) (Fin 8) ℤ → Option ColourBlock)
    (g : Geometry) (ox oy : ℕ) (px : PixelSource) : Option (List ColourBlock) :=
  (List.range 16).mapM fun k => do
    let s ← tabulate fun r => tabulate fun c => blockSample g ox oy px k r c
    mk (fun r c => (s r c).2.2) (fun r c => (s r c).2.1) fun r c => (s r c).1

/-- The sixteen blocks of the strip at `(ox, oy)`. -/
def colourStripBlocks : Geometry → ℕ → ℕ → PixelSource → Option (List ColourBlock) :=
  stripBlocksWith colourBlock

/-! ### The strip -/

/-- Round a byte count up to an even number. -/
def roundEven (n : ℕ) : ℕ := n + n % 2

/-- The DPCM of the DC tokens, from the previous block's values. -/
def escDc (cmax : ℕ) : Bits → ℤ → ℤ → ℤ → List ColourBlock → Bits
  | w, _, _, _, [] => w
  | w, pcr, pcb, py, b :: bs =>
      let w := ((w.esc (b.qcr 0 - pcr) cmax).esc (b.qcb 0 - pcb) cmax).esc (b.qy 0 - py) cmax
      escDc cmax w (b.qcr 0) (b.qcb 0) (b.qy 0) bs

/-- The region of significance trees and DC tokens. -/
def mainBits (g : Geometry) (blocks : List ColourBlock) : Bits :=
  let trees := blocks.foldl (fun w b => w.colourSyncUnit b.lcr b.lcb b.ly) (Bits.new g.coding)
  escDc g.depth.dcCmax trees 0 0 0 blocks

/-- The region of one half's AC coefficients. -/
def rowBits (g : Geometry) (blocks : List ColourBlock) : Bits :=
  blocks.foldl (fun w b => w.colourBlockAc b.qcr b.qcb b.qy b.lcr b.lcb b.ly g.depth)
    (Bits.new g.coding)

/-- Encode one strip at pixel `(x, y)` from its sixteen blocks. -/
def colourStrip (g : Geometry) (blocks : List ColourBlock) (x y : UInt16) : List UInt8 :=
  let main := (mainBits g blocks).finish
  let row0 := (rowBits g (blocks.take 8)).finish
  let row1 := (rowBits g (blocks.drop 8)).finish
  let w18 := 16 + (roundEven main.length + 2)
  let w1c := w18 + roundEven row0.length
  let out := List.replicate (w1c + roundEven row1.length) 0
  let out := copyAt 0 [0x01] out
  let out := copyAt 1 [0x28] out
  let out := copyAt 2 (u16Bytes x) out
  let out := copyAt 4 (u16Bytes y) out
  let out := copyAt 10 (u16Bytes (UInt16.ofNat w18)) out
  let out := copyAt 12 (u16Bytes (UInt16.ofNat w1c)) out
  let out := copyAt 16 main out
  let out := copyAt w18 row0 out
  copyAt w1c row1 out

/-- Encode the strip whose top-left pixel is `(sx, sy)`. -/
def colourStripAt (g : Geometry) (sx sy : ℕ) (px : PixelSource) : Option (List UInt8) := do
  return colourStrip g (← colourStripBlocks g sx sy px) (UInt16.ofNat sx) (UInt16.ofNat sy)

/-- A strip's `x`, as its builder writes it. -/
def stripX (s : List UInt8) : UInt16 := (u16At 2 s).getD 0

/-- A strip's `y`, as its builder writes it. -/
def stripY (s : List UInt8) : UInt16 := (u16At 4 s).getD 0

end Vino.Haar.Strip
