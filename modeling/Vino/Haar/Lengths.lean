import Vino.Haar.Decode

/-!
# How Long a Strip Is

The length of a strip in closed form, from the quantised coefficients of its blocks.  A value of
magnitude category `c` takes `2 * c + 1` bits and one bit less at the ceiling of its plane; a zero
takes one bit.  Each of the three regions is rounded up to an even number of bytes.

* `length_colourStrip_eq`: the strip has the length the categories of its coefficients say.
-/

namespace Vino.Haar.Lengths

open Vino.Haar.Transform Vino.Haar.Coder Vino.Haar.Strip Vino.Haar.Decode Vino.Lib.Bits
  Vino.Lib.Buffer

/-! ### Code words -/

/-- The length of the escape code of a value. -/
def escLength (v : ℤ) (cmax : ℕ) : ℕ :=
  if v = 0 then 1
  else
    let c := min (magCategory v) cmax
    2 * c + if c < cmax then 1 else 0

/-- The length of a chroma plane's last position. -/
def chromaLength (last : ℕ) : ℕ := 2 * Nat.log 2 (last + 1) + 1

/-- The length of luma's last position. -/
def lumaLength (last : ℕ) : ℕ := if last = 0 then 13 else 2 * Nat.log 2 (64 - last) + 1

/-- The length of a block's significance tree. -/
def treeLength (b : ColourBlock) : ℕ := chromaLength b.lcr + chromaLength b.lcb + lumaLength b.ly

/-- The length of the AC coefficients of a plane. -/
def planeLength (q : Coeffs) (last cmax : ℕ) : ℕ :=
  ((List.range' 1 last).map fun i => escLength (q (Fin.ofNat 64 i)) cmax).sum

/-- The length of the AC coefficients of a block. -/
def acLength (depth : Depth) (b : ColourBlock) : ℕ :=
  planeLength b.qcr b.lcr depth.chromaAcCmax + planeLength b.qcb b.lcb depth.chromaAcCmax +
    planeLength b.qy b.ly depth.acCmax

theorem length_unaryWord (coding : CodeTables) (count : ℕ) (terminate : Bool) (payload : ℕ) :
    (unaryWord coding count terminate payload).length = 2 * count + if terminate then 1 else 0 := by
  have hstop : (stopWord terminate).length = if terminate then 1 else 0 := by
    cases terminate <;> rfl
  have hpairs : ∀ l : List Bool, (l.flatMap fun b => [true, b]).length = 2 * l.length := by
    intro l
    induction l with
    | nil => rfl
    | cons b l ih =>
        rw [List.flatMap_cons, List.length_append, ih, List.length_cons]
        simp only [List.length_cons, List.length_nil]
        omega
  cases coding with
  | wide =>
      simp only [unaryWord, List.length_append, List.length_replicate, length_msbBits, hstop]
      omega
  | narrow => rw [unaryWord, List.length_append, hpairs, length_lsbBits, hstop]

theorem length_escWord (coding : CodeTables) (v : ℤ) (cmax : ℕ) :
    (escWord coding v cmax).length = escLength v cmax := by
  unfold escWord escLength
  split_ifs with hv
  · rfl
  · dsimp only
    rw [length_unaryWord]
    simp

theorem length_chromaWord (coding : CodeTables) (last : ℕ) :
    (chromaWord coding last).length = chromaLength last :=
  length_unaryWord _ _ _ _

theorem length_lumaWord (coding : CodeTables) (last : ℕ) :
    (lumaWord coding last).length = lumaLength last := by
  unfold lumaWord lumaLength
  split_ifs
  · exact length_unaryWord _ _ _ _
  · exact length_unaryWord _ _ _ _

theorem length_flatMap_eq {α : Type} {f : α → List Bool} {n : α → ℕ}
    (h : ∀ a, (f a).length = n a) (l : List α) : (l.flatMap f).length = (l.map n).sum := by
  rw [List.length_flatMap]
  exact congrArg List.sum (List.map_congr_left fun a _ => h a)

theorem length_blockAcWord (coding : CodeTables) (depth : Depth) (b : ColourBlock) :
    (blockAcWord coding b.qcr b.qcb b.qy b.lcr b.lcb b.ly depth).length = acLength depth b := by
  have hplane : ∀ (q : Coeffs) (last cmax : ℕ),
      (planeWord coding q last cmax).length = planeLength q last cmax := fun q last cmax =>
    length_flatMap_eq (fun i => length_escWord coding (q (Fin.ofNat 64 i)) cmax) _
  simp only [blockAcWord, List.length_append, hplane, acLength]
  omega

/-! ### Regions -/

/-- The length of the significance trees and DC tokens. -/
def mainLength (depth : Depth) (blocks : List ColourBlock) : ℕ :=
  (blocks.map treeLength).sum +
    ((dcDifferences 0 0 0 blocks).map fun d => escLength d depth.dcCmax).sum

/-- The length of one half's AC coefficients. -/
def rowLength (depth : Depth) (blocks : List ColourBlock) : ℕ :=
  (blocks.map (acLength depth)).sum

/-- The bytes a region takes. -/
def regionBytes (bits : ℕ) : ℕ := roundEven ((bits + 7) / 8)

/-- The bytes a strip takes: a header, two bytes behind the first region, and the regions. -/
def stripLength (depth : Depth) (blocks : List ColourBlock) : ℕ :=
  18 + regionBytes (mainLength depth blocks) + regionBytes (rowLength depth (blocks.take 8)) +
    regionBytes (rowLength depth (blocks.drop 8))

theorem length_finish (w : Bits) : w.finish.length = (w.bits.length + 7) / 8 := by
  simp only [Bits.finish, Bits.bits, List.length_append, length_leBytes, length_bytesBits,
    length_lsbBits]
  omega

theorem length_mainBits (g : Geometry) (blocks : List ColourBlock) :
    (mainBits g blocks).bits.length = mainLength g.depth blocks := by
  rw [bits_mainBits, mainWord, List.length_append, mainLength]
  congr 1
  · refine length_flatMap_eq (fun b => ?_) blocks
    simp only [List.length_append, length_chromaWord, length_lumaWord, treeLength]
    omega
  · exact length_flatMap_eq (fun d => length_escWord g.coding d g.depth.dcCmax) _

theorem length_rowBits (g : Geometry) (blocks : List ColourBlock) :
    (rowBits g blocks).bits.length = rowLength g.depth blocks := by
  rw [bits_rowBits]
  exact length_flatMap_eq (fun b => length_blockAcWord g.coding g.depth b) blocks

/-- **The length of a strip.** -/
theorem length_colourStrip_eq (g : Geometry) (blocks : List ColourBlock) (x y : UInt16) :
    (colourStrip g blocks x y).length = stripLength g.depth blocks := by
  have hmain := le_roundEven (mainBits g blocks).finish.length
  have hrow0 := le_roundEven (rowBits g (blocks.take 8)).finish.length
  have hrow1 := le_roundEven (rowBits g (blocks.drop 8)).finish.length
  have hkeep : ∀ {l : List UInt8} {n pos : ℕ} {w : List UInt8}, l.length = n →
      pos + w.length ≤ n → (copyAt pos w l).length = n := by
    intro l n pos w hl hfit
    rw [length_copyAt (by omega), hl]
  simp only [stripLength, regionBytes, ← length_mainBits g, ← length_rowBits g, ← length_finish]
  unfold colourStrip
  refine hkeep (hkeep (hkeep (hkeep (hkeep (hkeep (hkeep (hkeep (hkeep ?_ ?_) ?_) ?_) ?_) ?_) ?_)
    ?_) ?_) ?_
  all_goals
    try simp only [List.length_replicate, length_u16Bytes, List.length_cons, List.length_nil]
    omega

end Vino.Haar.Lengths
