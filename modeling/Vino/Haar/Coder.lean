import Vino.Haar.Transform
import Vino.Lib.Bits

/-!
# The Entropy Coder

The bit accumulator of the strip coder and the codes it writes: the shared unary code in its
two dialects, the escape code of a value, the significance tree of a block and the run of AC
coefficients of a block.

`Bits` carries its own well-formedness: fewer than 64 pending bits, and none above them.  Its
denotation `Bits.bits` is the stream written so far; every operation only appends to it, and
`Emits f word` says which word.

* `emits_unary`, `emits_esc`, `emits_colourSyncUnit`, `emits_colourBlockAc`: the word each
  operation appends,
* `bytesBits_finish`: the packed bytes are the stream with fewer than eight zeros behind it.
-/

namespace Vino.Haar.Coder

open Vino.Haar.Transform Vino.Lib.Bits

/-- The dialects of the shared unary code. -/
inductive CodeTables where
  | wide
  | narrow
  deriving DecidableEq, Repr

/-! ### The accumulator -/

/-- The LSB-first bit accumulator: bytes already spilled, and the pending bits in the low
`nacc` of `acc`. -/
structure Bits where
  out : List UInt8
  acc : ℕ
  nacc : ℕ
  coding : CodeTables
  nacc_lt : nacc < 64
  acc_lt : acc < 2 ^ nacc

namespace Bits

def new (coding : CodeTables) : Bits where
  out := []
  acc := 0
  nacc := 0
  coding := coding
  nacc_lt := by omega
  acc_lt := by simp

theorem or_shiftLeft_lt {a n : ℕ} (b : ℕ) (h : a < 2 ^ n) :
    a ||| (b % 2) <<< n < 2 ^ (n + 1) := by
  refine Nat.or_lt_two_pow (h.trans (Nat.pow_lt_pow_right Nat.one_lt_two (by omega))) ?_
  rw [Nat.shiftLeft_eq, pow_succ']
  exact Nat.mul_lt_mul_of_pos_right (Nat.mod_lt b Nat.two_pos) (Nat.two_pow_pos n)

/-- Append one bit, the low bit of `b`; the sixty-fourth spills the word. -/
def bit (w : Bits) (b : ℕ) : Bits :=
  let acc := w.acc ||| (b % 2) <<< w.nacc
  if h : w.nacc + 1 = 64 then
    { w with
      out := w.out ++ leBytes 8 acc
      acc := 0
      nacc := 0
      nacc_lt := by omega
      acc_lt := by simp }
  else
    { w with
      acc := acc
      nacc := w.nacc + 1
      nacc_lt := by have := w.nacc_lt; omega
      acc_lt := or_shiftLeft_lt b w.acc_lt }

/-- Flush the accumulator, zero-padding the final byte. -/
def finish (w : Bits) : List UInt8 := w.out ++ leBytes ((w.nacc + 7) / 8) w.acc

/-- The unary code every field of a strip is built from: a category of `count` ones, a
terminator unless the category is the maximum, and `count` payload bits. -/
def unary (w : Bits) (count : ℕ) (terminate : Bool) (payload : ℕ) : Bits :=
  match w.coding with
  | .wide =>
      let w := (List.range count).foldl (fun w _ => w.bit 1) w
      let w := if terminate then w.bit 0 else w
      (List.range count).reverse.foldl (fun w i => w.bit (payload >>> i)) w
  | .narrow =>
      let w := (List.range count).foldl (fun w i => (w.bit 1).bit (payload >>> i)) w
      if terminate then w.bit 0 else w

/-- The escape code of a value, saturating at the category `cmax`. -/
def esc (w : Bits) (v : ℤ) (cmax : ℕ) : Bits :=
  if v = 0 then w.bit 0
  else
    let c := min (magCategory v) cmax
    let off := min v.natAbs (2 ^ c - 1) - 2 ^ (c - 1)
    w.unary c (c < cmax) (off <<< 1 ||| if 0 < v then 1 else 0)

/-- Luma significance, after the two zero root branches a present chroma plane replaces. -/
def syncUnitAfter (w : Bits) (last skip : ℕ) : Bits :=
  let w := (List.range (2 - skip)).foldl (fun w _ => w.bit 0) w
  if last = 0 then w.unary 6 true 0
  else
    let k := Nat.log 2 (64 - last)
    w.unary k true (64 - 2 ^ k - last)

def syncUnit (w : Bits) (last : ℕ) : Bits := w.syncUnitAfter last 0

/-- The chroma last-position node of the significance tree. -/
def chromaBase (w : Bits) (last : ℕ) : Bits :=
  let c := Nat.log 2 (last + 1)
  w.unary c true (last - (2 ^ c - 1))

/-- One block's three-plane significance tree. -/
def colourSyncUnit (w : Bits) (lcr lcb ly : ℕ) : Bits :=
  match decide (lcr ≠ 0), decide (lcb ≠ 0) with
  | false, false => w.syncUnit ly
  | true, false => (w.chromaBase lcr).syncUnitAfter ly 1
  | false, true => ((w.bit 0).chromaBase lcb).syncUnitAfter ly 2
  | true, true => ((w.chromaBase lcr).chromaBase lcb).syncUnitAfter ly 2

/-- The AC coefficients of one plane, positions `1..=last`. -/
def planeAc (w : Bits) (q : Coeffs) (last cmax : ℕ) : Bits :=
  (List.range' 1 last).foldl
    (fun w i =>
      let v := q (Fin.ofNat 64 i)
      if v = 0 then w.bit 0 else w.esc v cmax) w

/-- One block's AC coefficients, in the order Cr, Cb, Y. -/
def colourBlockAc (w : Bits) (qcr qcb qy : Coeffs) (lcr lcb ly : ℕ) (depth : Depth) : Bits :=
  ((w.planeAc qcr lcr depth.chromaAcCmax).planeAc qcb lcb depth.chromaAcCmax).planeAc
    qy ly depth.acCmax

/-- The stream written so far. -/
def bits (w : Bits) : List Bool := bytesBits w.out ++ lsbBits w.nacc w.acc

@[simp]
theorem coding_bit (w : Bits) (b : ℕ) : (w.bit b).coding = w.coding := by
  by_cases h : w.nacc + 1 = 64
  · simp only [bit, dif_pos h]
  · simp only [bit, dif_neg h]

theorem lsbBits_or_shiftLeft {a n : ℕ} (b : ℕ) (h : a < 2 ^ n) :
    lsbBits (n + 1) (a ||| (b % 2) <<< n) = lsbBits n a ++ [b.testBit 0] := by
  have hlow : ∀ i < n, (a ||| (b % 2) <<< n).testBit i = a.testBit i := by
    intro i hi
    simp [Nat.testBit_or, Nat.testBit_shiftLeft, show ¬n ≤ i by omega]
  have htop : (a ||| (b % 2) <<< n).testBit n = b.testBit 0 := by
    simp [Nat.testBit_or, Nat.testBit_shiftLeft, Nat.testBit_lt_two_pow h]
  rw [lsbBits_concat, lsbBits_congr hlow, htop]

/-- **`bit` appends one bit.** -/
theorem bits_bit (w : Bits) (b : ℕ) : (w.bit b).bits = w.bits ++ [b.testBit 0] := by
  have hword := lsbBits_or_shiftLeft b w.acc_lt
  by_cases h : w.nacc + 1 = 64
  · rw [h] at hword
    simp only [bit, dif_pos h, bits, bytesBits_append, bytesBits_leBytes, lsbBits_zero,
      List.append_nil, List.append_assoc]
    rw [hword]
  · simp only [bit, dif_neg h, bits, List.append_assoc]
    rw [hword]

/-- **The packed bytes are the stream, zero-padded to a whole byte.** -/
theorem bytesBits_finish (w : Bits) :
    bytesBits w.finish = w.bits ++ List.replicate (8 * ((w.nacc + 7) / 8) - w.nacc) false := by
  have hpad : 8 * ((w.nacc + 7) / 8) = w.nacc + (8 * ((w.nacc + 7) / 8) - w.nacc) := by omega
  rw [finish, bytesBits_append, bytesBits_leBytes, bits, List.append_assoc, hpad,
    lsbBits_pad w.acc_lt]
  simp

/-- The packed bytes are no longer than the stream needs. -/
theorem length_finish_le (w : Bits) : 8 * w.finish.length ≤ w.bits.length + 7 := by
  have h := congrArg List.length w.bytesBits_finish
  rw [length_bytesBits, List.length_append, List.length_replicate] at h
  omega

end Bits

/-! ### The words written -/

/-- The operation keeps the dialect and appends the word the dialect selects. -/
structure Emits (f : Bits → Bits) (word : CodeTables → List Bool) : Prop where
  coding : ∀ w, (f w).coding = w.coding
  bits : ∀ w, (f w).bits = w.bits ++ word w.coding

section Rules

variable {f g : Bits → Bits} {u v : CodeTables → List Bool} {ι : Type}

theorem Emits.id : Emits (fun w => w) fun _ => [] :=
  ⟨fun _ => rfl, fun w => (List.append_nil w.bits).symm⟩

theorem Emits.comp (hf : Emits f u) (hg : Emits g v) :
    Emits (fun w => g (f w)) fun c => u c ++ v c := by
  refine ⟨fun w => (hg.coding _).trans (hf.coding w), fun w => ?_⟩
  rw [hg.bits, hf.bits, hf.coding, List.append_assoc]

theorem Emits.ite {p : Prop} [Decidable p] (hf : p → Emits f u) (hg : ¬p → Emits g v) :
    Emits (fun w => if p then f w else g w) fun c => if p then u c else v c := by
  by_cases h : p
  · simpa only [if_pos h] using hf h
  · simpa only [if_neg h] using hg h

theorem Emits.foldl {f : Bits → ι → Bits} {word : ι → CodeTables → List Bool}
    (h : ∀ i, Emits (fun w => f w i) (word i)) :
    ∀ l : List ι, Emits (fun w => l.foldl f w) fun c => l.flatMap fun i => word i c
  | [] => Emits.id
  | i :: l => (h i).comp (Emits.foldl h l)

end Rules

theorem emits_bit (b : ℕ) : Emits (fun w => w.bit b) fun _ => [b.testBit 0] :=
  ⟨fun w => w.coding_bit b, fun w => w.bits_bit b⟩

/-- The terminator of a unary category. -/
def stopWord (terminate : Bool) : List Bool := if terminate then [false] else []

/-- The word of the unary code: payload behind the terminator, most significant bit first, or
one payload bit behind each one, least significant first. -/
def unaryWord (coding : CodeTables) (count : ℕ) (terminate : Bool) (payload : ℕ) :
    List Bool :=
  match coding with
  | .wide => List.replicate count true ++ (stopWord terminate ++ msbBits count payload)
  | .narrow => ((lsbBits count payload).flatMap fun b => [true, b]) ++ stopWord terminate

theorem emits_stop (terminate : Bool) :
    Emits (fun w => if terminate then w.bit 0 else w) fun _ => stopWord terminate := by
  simpa only [stopWord, Nat.zero_testBit] using
    Emits.ite (p := terminate) (fun _ => emits_bit 0) fun _ => Emits.id

theorem testBit_zero_shiftRight (payload i : ℕ) :
    (payload >>> i).testBit 0 = payload.testBit i := by
  simp

theorem emits_unary (count : ℕ) (terminate : Bool) (payload : ℕ) :
    Emits (fun w => w.unary count terminate payload)
      fun c => unaryWord c count terminate payload := by
  have hones : (List.range count).flatMap (fun _ => [true]) = List.replicate count true := by
    rw [← List.map_eq_flatMap, List.map_const', List.length_range]
  have hdown : (List.range count).reverse.flatMap (fun i => [(payload >>> i).testBit 0]) =
      msbBits count payload := by
    simp only [testBit_zero_shiftRight, msbBits, lsbBits, ← List.map_reverse,
      ← List.map_eq_flatMap]
  have hpairs : (List.range count).flatMap
      (fun i => [Nat.testBit 1 0] ++ [(payload >>> i).testBit 0]) =
      (lsbBits count payload).flatMap fun b => [true, b] := by
    simp [lsbBits, List.flatMap_map]
  have hwide := (Emits.foldl (fun _ : ℕ => emits_bit 1) (List.range count)).comp
    ((emits_stop terminate).comp
      (Emits.foldl (fun i => emits_bit (payload >>> i)) (List.range count).reverse))
  have hnarrow := (Emits.foldl
    (fun i => (emits_bit 1).comp (emits_bit (payload >>> i))) (List.range count)).comp
      (emits_stop terminate)
  constructor
  · intro w
    cases hc : w.coding with
    | wide => simpa only [Bits.unary, hc] using hwide.coding w
    | narrow => simpa only [Bits.unary, hc] using hnarrow.coding w
  · intro w
    cases hc : w.coding with
    | wide =>
        simpa only [Bits.unary, hc, unaryWord, Nat.testBit_one_zero, hones, hdown] using
          hwide.bits w
    | narrow => simpa only [Bits.unary, hc, unaryWord, hpairs] using hnarrow.bits w

/-- The payload of an escape: the offset into the category, with the sign below it. -/
def escPayload (v : ℤ) (cmax : ℕ) : ℕ :=
  let c := min (magCategory v) cmax
  (min v.natAbs (2 ^ c - 1) - 2 ^ (c - 1)) <<< 1 ||| if 0 < v then 1 else 0

/-- The word of the escape code. -/
def escWord (coding : CodeTables) (v : ℤ) (cmax : ℕ) : List Bool :=
  if v = 0 then [false]
  else
    let c := min (magCategory v) cmax
    unaryWord coding c (c < cmax) (escPayload v cmax)

theorem emits_esc (v : ℤ) (cmax : ℕ) :
    Emits (fun w => w.esc v cmax) fun c => escWord c v cmax := by
  simpa only [Bits.esc, escWord, escPayload, Nat.zero_testBit] using
    Emits.ite (p := v = 0) (fun _ => emits_bit 0) fun _ => emits_unary _ _ _

/-! ### The significance tree

A chroma plane without coefficients leaves one zero root branch, which is the word its node
would have at position zero.  So the four branches of the tree are one concatenation. -/

/-- The word of a chroma plane's last position, a single zero for an absent plane. -/
def chromaWord (coding : CodeTables) (last : ℕ) : List Bool :=
  let c := Nat.log 2 (last + 1)
  unaryWord coding c true (last - (2 ^ c - 1))

/-- The word of luma's last position. -/
def lumaWord (coding : CodeTables) (last : ℕ) : List Bool :=
  if last = 0 then unaryWord coding 6 true 0
  else
    let k := Nat.log 2 (64 - last)
    unaryWord coding k true (64 - 2 ^ k - last)

theorem chromaWord_zero (coding : CodeTables) : chromaWord coding 0 = [false] := by
  cases coding <;> rfl

theorem emits_chromaBase (last : ℕ) :
    Emits (fun w => w.chromaBase last) fun c => chromaWord c last :=
  emits_unary _ _ _

theorem emits_syncUnitAfter (last skip : ℕ) :
    Emits (fun w => w.syncUnitAfter last skip)
      fun c => List.replicate (2 - skip) false ++ lumaWord c last := by
  have hzeros : (List.range (2 - skip)).flatMap (fun _ => [Nat.testBit 0 0]) =
      List.replicate (2 - skip) false := by
    rw [← List.map_eq_flatMap, List.map_const', List.length_range, Nat.zero_testBit]
  have hroot := Emits.foldl (fun _ : ℕ => emits_bit 0) (List.range (2 - skip))
  simp only [hzeros] at hroot
  exact hroot.comp (Emits.ite (fun _ => emits_unary 6 true 0) fun _ => emits_unary _ _ _)

/-- **The significance tree is three words in a row.** -/
theorem emits_colourSyncUnit (lcr lcb ly : ℕ) :
    Emits (fun w => w.colourSyncUnit lcr lcb ly)
      fun c => chromaWord c lcr ++ (chromaWord c lcb ++ lumaWord c ly) := by
  unfold Bits.colourSyncUnit
  by_cases hcr : lcr = 0 <;> by_cases hcb : lcb = 0
  · subst hcr hcb
    simpa [chromaWord_zero, List.replicate, Bits.syncUnit] using emits_syncUnitAfter ly 0
  · subst hcr
    simpa [chromaWord_zero, hcb] using
      (emits_bit 0).comp ((emits_chromaBase lcb).comp (emits_syncUnitAfter ly 2))
  · subst hcb
    simpa [chromaWord_zero, hcr] using (emits_chromaBase lcr).comp (emits_syncUnitAfter ly 1)
  · simpa [hcr, hcb] using
      (emits_chromaBase lcr).comp ((emits_chromaBase lcb).comp (emits_syncUnitAfter ly 2))

/-! ### The coefficients -/

/-- The word of one plane's coefficients. -/
def planeWord (coding : CodeTables) (q : Coeffs) (last cmax : ℕ) : List Bool :=
  (List.range' 1 last).flatMap fun i => escWord coding (q (Fin.ofNat 64 i)) cmax

/-- A zero is written as the same single bit by the run and by the escape. -/
theorem emits_runOrEsc (v : ℤ) (cmax : ℕ) :
    Emits (fun w => if v = 0 then w.bit 0 else w.esc v cmax) fun c => escWord c v cmax := by
  by_cases h : v = 0
  · simpa [h, escWord] using emits_bit 0
  · simpa only [h, if_false] using emits_esc v cmax

theorem emits_planeAc (q : Coeffs) (last cmax : ℕ) :
    Emits (fun w => w.planeAc q last cmax) fun c => planeWord c q last cmax :=
  Emits.foldl (fun i => emits_runOrEsc (q (Fin.ofNat 64 i)) cmax) (List.range' 1 last)

/-- The word of a block's coefficients. -/
def blockAcWord (coding : CodeTables) (qcr qcb qy : Coeffs) (lcr lcb ly : ℕ) (depth : Depth) :
    List Bool :=
  planeWord coding qcr lcr depth.chromaAcCmax ++
    (planeWord coding qcb lcb depth.chromaAcCmax ++ planeWord coding qy ly depth.acCmax)

theorem emits_colourBlockAc (qcr qcb qy : Coeffs) (lcr lcb ly : ℕ) (depth : Depth) :
    Emits (fun w => w.colourBlockAc qcr qcb qy lcr lcb ly depth)
      fun c => blockAcWord c qcr qcb qy lcr lcb ly depth :=
  (emits_planeAc qcr lcr _).comp ((emits_planeAc qcb lcb _).comp (emits_planeAc qy ly _))

end Vino.Haar.Coder
