import Vino.Haar.Strip
import Vino.Lib.Reader

/-!
# The Strip Bitstream Is Uniquely Decodable

A decoder for the strip grammar, and the proof that it inverts the encoder.  The decoder is
given the depth and the dialect, reads the position and the two region offsets from the
header, the significance trees and DC tokens from byte 16, and the coefficients of the two
halves from their regions.

Each code is shown to be read back in front of anything (`Reads`), the unary code by induction
on the ceiling of its category; the tokens of a region then follow by the rules for readers.
The header holds because the regions are short: a half is below five thousand bytes.
-/

namespace Vino.Haar.Decode

open Vino.Haar.Transform Vino.Haar.Coder Vino.Haar.Strip Vino.Lib.Bits Vino.Lib.Reader
  Vino.Lib.Buffer

/-! ### The decoder -/

/-- Count ones up to a ceiling; a zero before it is taken as the terminator. -/
def ones : ℕ → StreamReader Bool ℕ
  | 0 => pure 0
  | n + 1 => do
      if ← next then return (← ones n) + 1 else return 0

/-- The payload bits behind each one, up to a ceiling. -/
def pairs : ℕ → StreamReader Bool (List Bool)
  | 0 => pure []
  | n + 1 => do
      if ← next then
        let b ← next
        return b :: (← pairs n)
      else return []

/-- The category and the payload of a unary word with ceiling `cmax`. -/
def readUnary (coding : CodeTables) (cmax : ℕ) : StreamReader Bool (ℕ × ℕ) :=
  match coding with
  | .wide => do
      let c ← ones cmax
      let l ← take c
      return (c, ofMsb l)
  | .narrow => do
      let l ← pairs cmax
      return (l.length, ofLsb l)

/-- The value of an escape with category `c` and payload `p`. -/
def escValue (c p : ℕ) : ℤ :=
  if c = 0 then 0
  else if p % 2 = 1 then (2 ^ (c - 1) + p / 2 : ℕ)
  else -(2 ^ (c - 1) + p / 2 : ℕ)

def readEsc (coding : CodeTables) (cmax : ℕ) : StreamReader Bool ℤ := do
  let (c, p) ← readUnary coding cmax
  return escValue c p

/-- The last positions of a block's three planes. -/
structure Lasts where
  lcr : ℕ
  lcb : ℕ
  ly : ℕ

/-- No category of the significance tree reaches seven, so each is terminated. -/
def readTree (coding : CodeTables) : StreamReader Bool Lasts := do
  let (ccr, pcr) ← readUnary coding 7
  let (ccb, pcb) ← readUnary coding 7
  let (k, py) ← readUnary coding 7
  return {
    lcr := 2 ^ ccr - 1 + pcr
    lcb := 2 ^ ccb - 1 + pcb
    ly := if k = 6 then 0 else 64 - 2 ^ k - py }

/-- The DC values of `n` blocks, from the previous block's. -/
def readDcs (coding : CodeTables) (cmax : ℕ) :
    ℕ → ℤ → ℤ → ℤ → StreamReader Bool (List (ℤ × ℤ × ℤ))
  | 0, _, _, _ => pure []
  | n + 1, pcr, pcb, py => do
      let dcr ← readEsc coding cmax
      let dcb ← readEsc coding cmax
      let dy ← readEsc coding cmax
      let rest ← readDcs coding cmax n (pcr + dcr) (pcb + dcb) (py + dy)
      return (pcr + dcr, pcb + dcb, py + dy) :: rest

/-- The coefficients `1..=last` of one plane. -/
def readPlane (coding : CodeTables) (cmax last : ℕ) : StreamReader Bool (List ℤ) :=
  each (fun _ => readEsc coding cmax) (List.range' 1 last)

/-- The coefficients of a block whose last positions are known. -/
def readBlockAc (coding : CodeTables) (depth : Depth) (t : Lasts) :
    StreamReader Bool (List ℤ × List ℤ × List ℤ) := do
  let cr ← readPlane coding depth.chromaAcCmax t.lcr
  let cb ← readPlane coding depth.chromaAcCmax t.lcb
  let y ← readPlane coding depth.acCmax t.ly
  return (cr, cb, y)

/-- A plane from its DC value and its coefficients from position 1 on. -/
def plane (dc : ℤ) (ac : List ℤ) : Coeffs := fun i =>
  if i = 0 then dc else ac.getD (i - 1) 0

/-- A block from its decoded parts. -/
def block (p : (Lasts × (ℤ × ℤ × ℤ)) × (List ℤ × List ℤ × List ℤ)) : ColourBlock where
  qcr := plane p.1.2.1 p.2.1
  qcb := plane p.1.2.2.1 p.2.2.1
  qy := plane p.1.2.2.2 p.2.2.2
  lcr := p.1.1.lcr
  lcb := p.1.1.lcb
  ly := p.1.1.ly

/-- Decode a strip: its position and its sixteen blocks. -/
def decodeStrip (depth : Depth) (coding : CodeTables) (l : List UInt8) :
    Option (UInt16 × UInt16 × List ColourBlock) := do
  let x ← u16At 2 l
  let y ← u16At 4 l
  let w18 ← u16At 10 l
  let w1c ← u16At 12 l
  let (trees, rest) ← each (fun _ => readTree coding) (List.replicate 16 ())
    (bytesBits (l.drop 16))
  let (dcs, _) ← readDcs coding depth.dcCmax 16 0 0 0 rest
  let (ac0, _) ← each (readBlockAc coding depth) (trees.take 8) (bytesBits (l.drop w18.toNat))
  let (ac1, _) ← each (readBlockAc coding depth) (trees.drop 8) (bytesBits (l.drop w1c.toNat))
  return (x, y, ((trees.zip dcs).zip (ac0 ++ ac1)).map block)

/-! ### The unary code -/

theorem reads_ones {c n : ℕ} (h : c ≤ n) :
    Reads (ones n) (List.replicate c true ++ stopWord (c < n)) c := by
  induction n generalizing c with
  | zero =>
      obtain rfl : c = 0 := by omega
      exact Reads.pure 0
  | succ n ih =>
      cases c with
      | zero => exact (Reads.next false).map rfl
      | succ c =>
          have hstop : decide (c + 1 < n + 1) = decide (c < n) := by simp
          rw [hstop, List.replicate_succ, List.cons_append]
          exact (Reads.next true).bind ((ih (by omega)).map rfl)

theorem reads_pairs {l : List Bool} {n : ℕ} (h : l.length ≤ n) :
    Reads (pairs n) ((l.flatMap fun b => [true, b]) ++ stopWord (l.length < n)) l := by
  induction n generalizing l with
  | zero =>
      obtain rfl : l = [] := List.length_eq_zero_iff.1 (by omega)
      exact Reads.pure []
  | succ n ih =>
      cases l with
      | nil => exact (Reads.next false).map rfl
      | cons b l =>
          rw [List.length_cons] at h
          have hstop : decide ((b :: l).length < n + 1) = decide (l.length < n) := by simp
          rw [hstop, List.flatMap_cons, List.append_assoc]
          exact (Reads.next true).bind
            ((Reads.next b).bind ((ih (l := l) (by omega)).map rfl))

/-- **The unary code is read back** in either dialect, up to its ceiling. -/
theorem reads_unary (coding : CodeTables) {c cmax p : ℕ} (hc : c ≤ cmax) (hp : p < 2 ^ c) :
    Reads (readUnary coding cmax) (unaryWord coding c (c < cmax) p) (c, p) := by
  cases coding with
  | wide =>
      have htake : Reads (take c) (msbBits c p) (msbBits c p) := by
        simpa only [length_msbBits] using Reads.take (msbBits c p)
      rw [unaryWord, ← List.append_assoc]
      exact (reads_ones hc).bind (htake.map (by rw [ofMsb_msbBits hp]))
  | narrow =>
      have hl : (lsbBits c p).length = c := length_lsbBits c p
      have hpairs := reads_pairs (l := lsbBits c p) (n := cmax) (by omega)
      rw [hl] at hpairs
      exact hpairs.map (by rw [hl, ofLsb_lsbBits hp])

/-! ### Escapes -/

/-- An in-range escape has the offset into its category as payload, the sign below it. -/
theorem escPayload_eq {v : ℤ} {cmax : ℕ} (h : magCategory v ≤ cmax) :
    escPayload v cmax =
      2 * (v.natAbs - 2 ^ (magCategory v - 1)) + if 0 < v then 1 else 0 := by
  have hlt : v.natAbs < 2 ^ magCategory v := magCategory_le_iff.1 le_rfl
  have hsign : (if 0 < v then 1 else 0) < 2 ^ 1 := by split_ifs <;> decide
  rw [escPayload, min_eq_left h, min_eq_left (by omega), ← Nat.shiftLeft_add_eq_or_of_lt hsign,
    Nat.shiftLeft_eq, pow_one, Nat.mul_comm]

/-- A nonzero value lies in the upper half of its category. -/
theorem magCategory_bounds {v : ℤ} (hv : v ≠ 0) :
    1 ≤ magCategory v ∧ 2 ^ (magCategory v - 1) ≤ v.natAbs ∧
      v.natAbs < 2 * 2 ^ (magCategory v - 1) := by
  have hpos : 1 ≤ magCategory v := by
    by_contra h
    have := magCategory_le_iff.1 (show magCategory v ≤ 0 by omega)
    omega
  have hlow : 2 ^ (magCategory v - 1) ≤ v.natAbs := by
    by_contra h
    have := magCategory_le_iff.2 (not_le.1 h)
    omega
  have hhigh : v.natAbs < 2 ^ magCategory v := magCategory_le_iff.1 le_rfl
  obtain ⟨c, hc⟩ : ∃ c, magCategory v = c + 1 := ⟨magCategory v - 1, by omega⟩
  rw [hc, pow_succ'] at hhigh
  refine ⟨hpos, hlow, ?_⟩
  simpa only [hc, Nat.add_sub_cancel] using hhigh

/-- **An escape in range is read back exactly.** -/
theorem reads_esc (coding : CodeTables) {v : ℤ} {cmax : ℕ} (hcmax : 0 < cmax)
    (h : magCategory v ≤ cmax) : Reads (readEsc coding cmax) (escWord coding v cmax) v := by
  by_cases hv : v = 0
  · have hword : escWord coding v cmax = unaryWord coding 0 (0 < cmax) 0 := by
      rw [escWord, if_pos hv, decide_eq_true hcmax]
      cases coding <;> rfl
    rw [hword, hv]
    exact (reads_unary coding (Nat.zero_le cmax) Nat.one_pos).map rfl
  · obtain ⟨hpos, hlow, hhigh⟩ := magCategory_bounds hv
    have hpay := escPayload_eq h
    have hp : escPayload v cmax < 2 ^ magCategory v := by
      obtain ⟨c, hc⟩ : ∃ c, magCategory v = c + 1 := ⟨magCategory v - 1, by omega⟩
      rw [hpay]
      simp only [hc, Nat.add_sub_cancel, pow_succ'] at hlow hhigh ⊢
      split_ifs <;> omega
    have hval : escValue (magCategory v) (escPayload v cmax) = v := by
      rw [escValue, if_neg (by omega), hpay]
      by_cases hsign : 0 < v
      · rw [if_pos hsign, if_pos (by omega)]
        omega
      · rw [if_neg hsign, if_neg (by omega)]
        omega
    rw [escWord, if_neg hv, min_eq_left h]
    exact (reads_unary coding h hp).map (by simp only [hval])

theorem dcCmax_pos (depth : Depth) : 0 < depth.dcCmax := by cases depth <;> decide

theorem acCmax_pos (depth : Depth) : 0 < depth.acCmax := by cases depth <;> decide

theorem chromaAcCmax_pos (depth : Depth) : 0 < depth.chromaAcCmax := by
  cases depth <;> decide

/-! ### The significance tree -/

/-- A power of two at or below a number, and the offset of the number above it. -/
theorem log_offset {n : ℕ} (hn : n ≠ 0) :
    2 ^ Nat.log 2 n ≤ n ∧ n - 2 ^ Nat.log 2 n < 2 ^ Nat.log 2 n := by
  have hlow := Nat.pow_log_le_self 2 hn
  have hhigh := Nat.lt_pow_succ_log_self Nat.one_lt_two n
  rw [pow_succ'] at hhigh
  exact ⟨hlow, by omega⟩

/-- A unary word below the ceiling seven always has its terminator. -/
theorem reads_unary_seven (coding : CodeTables) {c p : ℕ} (hc : c < 7) (hp : p < 2 ^ c) :
    Reads (readUnary coding 7) (unaryWord coding c true p) (c, p) := by
  simpa only [hc, decide_true] using reads_unary coding hc.le hp

theorem reads_chroma (coding : CodeTables) {last : ℕ} (h : last < 64) :
    ∃ c p, Reads (readUnary coding 7) (chromaWord coding last) (c, p) ∧ 2 ^ c - 1 + p = last := by
  obtain ⟨hlow, hoff⟩ := log_offset (n := last + 1) (by omega)
  have hc : Nat.log 2 (last + 1) < 7 := Nat.log_lt_of_lt_pow (by omega) (by omega)
  have hpos := Nat.two_pow_pos (Nat.log 2 (last + 1))
  exact ⟨_, _, reads_unary_seven coding hc (by omega), by omega⟩

theorem reads_luma (coding : CodeTables) {last : ℕ} (h : last < 64) :
    ∃ k p, Reads (readUnary coding 7) (lumaWord coding last) (k, p) ∧
      (if k = 6 then 0 else 64 - 2 ^ k - p) = last := by
  unfold lumaWord
  split_ifs with h0
  · exact ⟨6, 0, reads_unary_seven coding (by omega) (by omega), h0 ▸ rfl⟩
  · obtain ⟨hlow, hoff⟩ := log_offset (n := 64 - last) (by omega)
    have hk : Nat.log 2 (64 - last) < 6 := Nat.log_lt_of_lt_pow (by omega) (by omega)
    refine ⟨_, _, reads_unary_seven coding (by omega) (by omega), ?_⟩
    rw [if_neg hk.ne]
    omega

/-- **The significance tree is read back.** -/
theorem reads_tree (coding : CodeTables) {lcr lcb ly : ℕ} (hcr : lcr < 64) (hcb : lcb < 64)
    (hy : ly < 64) :
    Reads (readTree coding)
      (chromaWord coding lcr ++ (chromaWord coding lcb ++ lumaWord coding ly))
      { lcr, lcb, ly } := by
  obtain ⟨ccr, pcr, hrcr, hvcr⟩ := reads_chroma coding hcr
  obtain ⟨ccb, pcb, hrcb, hvcb⟩ := reads_chroma coding hcb
  obtain ⟨k, py, hry, hvy⟩ := reads_luma coding hy
  refine hrcr.bind (hrcb.bind (hry.map ?_))
  simp only [hvcr, hvcb, hvy]

/-! ### Well-formed blocks -/

/-- `l` is the position of the last nonzero AC coefficient, zero if there is none. -/
def IsLastAc (q : Coeffs) (l : ℕ) : Prop :=
  (l = 0 ∧ ∀ i, i ≠ 0 → q i = 0) ∨
    ∃ i : Fin 64, i ≠ 0 ∧ i.val = l ∧ q i ≠ 0 ∧ ∀ j, i < j → q j = 0

theorem IsLastAc.lt {q : Coeffs} {l : ℕ} (h : IsLastAc q l) : l < 64 := by
  rcases h with ⟨rfl, -⟩ | ⟨i, -, rfl, -⟩
  · omega
  · exact i.isLt

theorem IsLastAc.eq_zero {q : Coeffs} {l : ℕ} (h : IsLastAc q l) {i : Fin 64} (hi : l < i) :
    q i = 0 := by
  rcases h with ⟨rfl, hz⟩ | ⟨k, -, rfl, -, hz⟩
  · exact hz i (by rintro rfl; exact absurd hi (lt_irrefl 0))
  · exact hz i hi

/-- The blocks a strip can carry exactly: the last positions are the true ones and every
coefficient is below its plane's ceiling. -/
structure WellFormed (depth : Depth) (b : ColourBlock) : Prop where
  lcr : IsLastAc b.qcr b.lcr
  lcb : IsLastAc b.qcb b.lcb
  ly : IsLastAc b.qy b.ly
  acr : ∀ i, i ≠ 0 → magCategory (b.qcr i) ≤ depth.chromaAcCmax
  acb : ∀ i, i ≠ 0 → magCategory (b.qcb i) ≤ depth.chromaAcCmax
  ay : ∀ i, i ≠ 0 → magCategory (b.qy i) ≤ depth.acCmax

/-- The DC differences `escDc` passes to the escape, from the previous block's values. -/
def dcDifferences : ℤ → ℤ → ℤ → List ColourBlock → List ℤ
  | _, _, _, [] => []
  | pcr, pcb, py, b :: bs =>
      (b.qcr 0 - pcr) :: (b.qcb 0 - pcb) :: (b.qy 0 - py) ::
        dcDifferences (b.qcr 0) (b.qcb 0) (b.qy 0) bs

/-! ### Regions -/

theorem emits_escDc (cmax : ℕ) (blocks : List ColourBlock) (pcr pcb py : ℤ) :
    Emits (fun w => escDc cmax w pcr pcb py blocks)
      fun c => (dcDifferences pcr pcb py blocks).flatMap fun d => escWord c d cmax := by
  induction blocks generalizing pcr pcb py with
  | nil => exact Emits.id
  | cons b bs ih =>
      have h := (emits_esc (b.qcr 0 - pcr) cmax).comp ((emits_esc (b.qcb 0 - pcb) cmax).comp
        ((emits_esc (b.qy 0 - py) cmax).comp (ih (b.qcr 0) (b.qcb 0) (b.qy 0))))
      simpa only [dcDifferences, List.flatMap_cons, escDc] using h

/-- **The DC tokens are read back** as the blocks' DC values. -/
theorem reads_dcs (coding : CodeTables) {cmax : ℕ} (hcmax : 0 < cmax)
    (blocks : List ColourBlock) (pcr pcb py : ℤ)
    (h : ∀ d ∈ dcDifferences pcr pcb py blocks, magCategory d ≤ cmax) :
    Reads (readDcs coding cmax blocks.length pcr pcb py)
      ((dcDifferences pcr pcb py blocks).flatMap fun d => escWord coding d cmax)
      (blocks.map fun b => (b.qcr 0, b.qcb 0, b.qy 0)) := by
  induction blocks generalizing pcr pcb py with
  | nil => exact Reads.pure []
  | cons b bs ih =>
      simp only [dcDifferences, List.mem_cons, forall_eq_or_imp] at h
      obtain ⟨hcr, hcb, hy, htail⟩ := h
      simp only [dcDifferences, List.flatMap_cons, List.map_cons, List.length_cons, readDcs]
      refine (reads_esc coding hcmax hcr).bind ((reads_esc coding hcmax hcb).bind
        ((reads_esc coding hcmax hy).bind ?_))
      simp only [add_sub_cancel]
      exact (ih (b.qcr 0) (b.qcb 0) (b.qy 0) htail).map rfl

theorem reads_plane (coding : CodeTables) {q : Coeffs} {last cmax : ℕ} (hcmax : 0 < cmax)
    (hlast : last < 64) (h : ∀ i, i ≠ 0 → magCategory (q i) ≤ cmax) :
    Reads (readPlane coding cmax last) (planeWord coding q last cmax)
      ((List.range' 1 last).map fun i => q (Fin.ofNat 64 i)) := by
  refine Reads.each _ fun i hi => reads_esc coding hcmax (h _ ?_)
  rw [List.mem_range'_1] at hi
  intro h0
  have := congrArg Fin.val h0
  rw [Fin.val_ofNat, Nat.mod_eq_of_lt (by omega), Fin.val_zero] at this
  omega

/-- A plane is rebuilt from its DC value and the coefficients up to its last position. -/
theorem plane_eq {q : Coeffs} {last : ℕ} (h : IsLastAc q last) :
    plane (q 0) ((List.range' 1 last).map fun i => q (Fin.ofNat 64 i)) = q := by
  funext i
  unfold plane
  split_ifs with h0
  · rw [h0]
  · have hi : i.val ≠ 0 := fun hv => h0 (Fin.ext hv)
    rw [List.getD_eq_getElem?_getD, List.getElem?_map]
    rcases Nat.lt_or_ge last i with hlt | hge
    · rw [List.getElem?_eq_none (by rw [List.length_range']; omega), h.eq_zero hlt]
      rfl
    · have hget : (List.range' 1 last)[i.val - 1]? = some i.val := by
        rw [List.getElem?_range' (by omega)]
        congr 1
        omega
      rw [hget]
      exact congrArg q (Fin.ext (Nat.mod_eq_of_lt i.isLt))

/-- The last positions of a block. -/
def lasts (b : ColourBlock) : Lasts := { lcr := b.lcr, lcb := b.lcb, ly := b.ly }

/-- The coefficients of a block up to its last positions. -/
def acs (b : ColourBlock) : List ℤ × List ℤ × List ℤ :=
  ((List.range' 1 b.lcr).map fun i => b.qcr (Fin.ofNat 64 i),
    (List.range' 1 b.lcb).map fun i => b.qcb (Fin.ofNat 64 i),
    (List.range' 1 b.ly).map fun i => b.qy (Fin.ofNat 64 i))

theorem reads_blockAc (coding : CodeTables) {depth : Depth} {b : ColourBlock}
    (h : WellFormed depth b) :
    Reads (readBlockAc coding depth (lasts b))
      (blockAcWord coding b.qcr b.qcb b.qy b.lcr b.lcb b.ly depth) (acs b) := by
  have hcr := reads_plane coding (chromaAcCmax_pos depth) h.lcr.lt h.acr
  have hcb := reads_plane coding (chromaAcCmax_pos depth) h.lcb.lt h.acb
  have hy := reads_plane coding (acCmax_pos depth) h.ly.lt h.ay
  exact hcr.bind (hcb.bind (hy.map rfl))

theorem block_eq {depth : Depth} {b : ColourBlock} (h : WellFormed depth b) :
    block ((lasts b, (b.qcr 0, b.qcb 0, b.qy 0)), acs b) = b := by
  simp only [block, acs, lasts, plane_eq h.lcr, plane_eq h.lcb, plane_eq h.ly]

/-! ### The three regions of a strip -/

/-- The stream of the significance trees and DC tokens. -/
def mainWord (g : Geometry) (blocks : List ColourBlock) : List Bool :=
  (blocks.flatMap fun b =>
    chromaWord g.coding b.lcr ++ (chromaWord g.coding b.lcb ++ lumaWord g.coding b.ly)) ++
  (dcDifferences 0 0 0 blocks).flatMap fun d => escWord g.coding d g.depth.dcCmax

/-- The stream of one half's coefficients. -/
def rowWord (g : Geometry) (blocks : List ColourBlock) : List Bool :=
  blocks.flatMap fun b => blockAcWord g.coding b.qcr b.qcb b.qy b.lcr b.lcb b.ly g.depth

theorem bits_mainBits (g : Geometry) (blocks : List ColourBlock) :
    (mainBits g blocks).bits = mainWord g blocks := by
  have htrees := Emits.foldl
    (fun b : ColourBlock => emits_colourSyncUnit b.lcr b.lcb b.ly) blocks
  exact (htrees.comp (emits_escDc g.depth.dcCmax blocks 0 0 0)).bits (Bits.new g.coding)

theorem bits_rowBits (g : Geometry) (blocks : List ColourBlock) :
    (rowBits g blocks).bits = rowWord g blocks :=
  (Emits.foldl (fun b : ColourBlock =>
    emits_colourBlockAc b.qcr b.qcb b.qy b.lcr b.lcb b.ly g.depth) blocks).bits
      (Bits.new g.coding)

section Lengths

theorem length_flatMap_le {α : Type} {f : α → List Bool} {k : ℕ} :
    ∀ l : List α, (∀ a ∈ l, (f a).length ≤ k) → (l.flatMap f).length ≤ l.length * k
  | [], _ => by simp
  | a :: l, h => by
      have hhead := h a List.mem_cons_self
      have htail := length_flatMap_le l fun b hb => h b (List.mem_cons_of_mem a hb)
      rw [List.flatMap_cons, List.length_append, List.length_cons, Nat.succ_mul]
      omega

theorem length_unaryWord_le (coding : CodeTables) (count : ℕ) (terminate : Bool)
    (payload : ℕ) : (unaryWord coding count terminate payload).length ≤ 2 * count + 1 := by
  have hstop : (stopWord terminate).length ≤ 1 := by cases terminate <;> decide
  cases coding with
  | wide =>
      simp only [unaryWord, List.length_append, List.length_replicate, length_msbBits]
      omega
  | narrow =>
      have := length_flatMap_le (f := fun b => [true, b]) (k := 2) (lsbBits count payload)
        fun _ _ => le_rfl
      rw [length_lsbBits] at this
      rw [unaryWord, List.length_append]
      omega

theorem length_escWord_le (coding : CodeTables) (v : ℤ) (cmax : ℕ) :
    (escWord coding v cmax).length ≤ 2 * cmax + 1 := by
  unfold escWord
  split_ifs
  · simp
  · refine (length_unaryWord_le _ _ _ _).trans ?_
    have := min_le_right (magCategory v) cmax
    omega

theorem length_chromaWord_le (coding : CodeTables) {last : ℕ} (h : last < 64) :
    (chromaWord coding last).length ≤ 13 := by
  have hc : Nat.log 2 (last + 1) < 7 := Nat.log_lt_of_lt_pow (by omega) (by omega)
  exact (length_unaryWord_le _ _ _ _).trans (by omega)

theorem length_lumaWord_le (coding : CodeTables) {last : ℕ} (h : last < 64) :
    (lumaWord coding last).length ≤ 13 := by
  unfold lumaWord
  split_ifs
  · exact length_unaryWord_le _ _ _ _
  · have hk : Nat.log 2 (64 - last) < 7 := Nat.log_lt_of_lt_pow (by omega) (by omega)
    exact (length_unaryWord_le _ _ _ _).trans (by omega)

theorem length_planeWord_le (coding : CodeTables) (q : Coeffs) {last cmax : ℕ}
    (hlast : last < 64) (hcmax : cmax ≤ 12) :
    (planeWord coding q last cmax).length ≤ 63 * 25 := by
  have h := length_flatMap_le (List.range' 1 last) fun i _ =>
    (length_escWord_le coding (q (Fin.ofNat 64 i)) cmax).trans (show _ ≤ 25 by omega)
  rw [List.length_range'] at h
  exact h.trans (Nat.mul_le_mul_right 25 (by omega))

theorem cmax_le (depth : Depth) :
    depth.dcCmax ≤ 12 ∧ depth.acCmax ≤ 12 ∧ depth.chromaAcCmax ≤ 12 := by
  cases depth <;> decide

theorem length_dcDifferences (blocks : List ColourBlock) (pcr pcb py : ℤ) :
    (dcDifferences pcr pcb py blocks).length = 3 * blocks.length := by
  induction blocks generalizing pcr pcb py with
  | nil => rfl
  | cons b bs ih =>
      simp only [dcDifferences, List.length_cons, ih]
      omega

variable {g : Geometry} {blocks : List ColourBlock} (hwf : ∀ b ∈ blocks, WellFormed g.depth b)
include hwf

theorem length_rowWord_le : (rowWord g blocks).length ≤ blocks.length * 4725 := by
  refine length_flatMap_le blocks fun b hb => ?_
  obtain ⟨-, hy, hc⟩ := cmax_le g.depth
  have h1 := length_planeWord_le g.coding b.qcr (hwf b hb).lcr.lt hc
  have h2 := length_planeWord_le g.coding b.qcb (hwf b hb).lcb.lt hc
  have h3 := length_planeWord_le g.coding b.qy (hwf b hb).ly.lt hy
  simp only [blockAcWord, List.length_append]
  omega

theorem length_mainWord_le : (mainWord g blocks).length ≤ blocks.length * 114 := by
  have htrees := length_flatMap_le blocks fun b hb => show (chromaWord g.coding b.lcr ++
      (chromaWord g.coding b.lcb ++ lumaWord g.coding b.ly)).length ≤ 39 by
    have h1 := length_chromaWord_le g.coding (hwf b hb).lcr.lt
    have h2 := length_chromaWord_le g.coding (hwf b hb).lcb.lt
    have h3 := length_lumaWord_le g.coding (hwf b hb).ly.lt
    simp only [List.length_append]
    omega
  have hdc := length_flatMap_le (dcDifferences 0 0 0 blocks) fun d _ =>
    (length_escWord_le g.coding d g.depth.dcCmax).trans
      (show _ ≤ 25 by have := (cmax_le g.depth).1; omega)
  rw [length_dcDifferences] at hdc
  rw [mainWord, List.length_append]
  omega

end Lengths

/-! ### The header -/

theorem le_roundEven (n : ℕ) : n ≤ roundEven n := Nat.le_add_right n _

/-- **Where everything stands in a strip**: the fields of the header and the three regions. -/
theorem colourStrip_holds (g : Geometry) (blocks : List ColourBlock) (x y : UInt16) :
    let main := (mainBits g blocks).finish
    let row0 := (rowBits g (blocks.take 8)).finish
    let row1 := (rowBits g (blocks.drop 8)).finish
    let w18 := 16 + (roundEven main.length + 2)
    let w1c := w18 + roundEven row0.length
    let strip := colourStrip g blocks x y
    Holds strip 2 (u16Bytes x) ∧ Holds strip 4 (u16Bytes y) ∧
      Holds strip 10 (u16Bytes (UInt16.ofNat w18)) ∧
      Holds strip 12 (u16Bytes (UInt16.ofNat w1c)) ∧
      Holds strip 16 main ∧ Holds strip w18 row0 ∧ Holds strip w1c row1 := by
  intro main row0 row1 w18 w1c strip
  have hmain := le_roundEven main.length
  have hrow0 := le_roundEven row0.length
  have hrow1 := le_roundEven row1.length
  have hx : (u16Bytes x).length = 2 := length_u16Bytes x
  have hy : (u16Bytes y).length = 2 := length_u16Bytes y
  have h18 := length_u16Bytes (UInt16.ofNat w18)
  have h1c := length_u16Bytes (UInt16.ofNat w1c)
  -- The buffers after each copy keep the length of the first.
  set s0 : List UInt8 := List.replicate (w1c + roundEven row1.length) 0 with hs0
  set s1 := copyAt 0 [0x01] s0 with hs1
  set s2 := copyAt 1 [0x28] s1 with hs2
  set s3 := copyAt 2 (u16Bytes x) s2 with hs3
  set s4 := copyAt 4 (u16Bytes y) s3 with hs4
  set s5 := copyAt 10 (u16Bytes (UInt16.ofNat w18)) s4 with hs5
  set s6 := copyAt 12 (u16Bytes (UInt16.ofNat w1c)) s5 with hs6
  set s7 := copyAt 16 main s6 with hs7
  set s8 := copyAt w18 row0 s7 with hs8
  have hstrip : strip = copyAt w1c row1 s8 := rfl
  have l0 : s0.length = w1c + roundEven row1.length := List.length_replicate
  have l1 : s1.length = s0.length := length_copyAt (by simp; omega)
  have l2 : s2.length = s1.length := length_copyAt (by simp; omega)
  have l3 : s3.length = s2.length := length_copyAt (by omega)
  have l4 : s4.length = s3.length := length_copyAt (by omega)
  have l5 : s5.length = s4.length := length_copyAt (by omega)
  have l6 : s6.length = s5.length := length_copyAt (by omega)
  have l7 : s7.length = s6.length := length_copyAt (by omega)
  have l8 : s8.length = s7.length := length_copyAt (by omega)
  -- Each field is written once and overlaps nothing written later.
  have f3 : Holds s3 2 (u16Bytes x) := holds_copyAt (by omega)
  have f4 : Holds s4 4 (u16Bytes y) := holds_copyAt (by omega)
  have f5 : Holds s5 10 (u16Bytes (UInt16.ofNat w18)) := holds_copyAt (by omega)
  have f6 : Holds s6 12 (u16Bytes (UInt16.ofNat w1c)) := holds_copyAt (by omega)
  have f7 : Holds s7 16 main := holds_copyAt (by omega)
  have f8 : Holds s8 w18 row0 := holds_copyAt (by omega)
  have tail : ∀ {pos : ℕ} {w : List UInt8}, Holds s6 pos w → pos + w.length ≤ 16 →
      Holds strip pos w := by
    intro pos w hw hpos
    have e7 : Holds s7 pos w := hw.copyAt (by omega) (by omega)
    have e8 : Holds s8 pos w := e7.copyAt (by omega) (by omega)
    exact hstrip ▸ e8.copyAt (by omega) (by omega)
  refine ⟨tail ?_ (by omega), tail ?_ (by omega), tail ?_ (by omega), tail f6 (by omega), ?_, ?_,
    hstrip ▸ holds_copyAt (by omega)⟩
  · have e4 : Holds s4 2 (u16Bytes x) := f3.copyAt (by omega) (by omega)
    have e5 : Holds s5 2 (u16Bytes x) := e4.copyAt (by omega) (by omega)
    exact e5.copyAt (by omega) (by omega)
  · have e5 : Holds s5 4 (u16Bytes y) := f4.copyAt (by omega) (by omega)
    exact e5.copyAt (by omega) (by omega)
  · exact f5.copyAt (by omega) (by omega)
  · have e8 : Holds s8 16 main := f7.copyAt (by omega) (by omega)
    exact hstrip ▸ e8.copyAt (by omega) (by omega)
  · exact hstrip ▸ f8.copyAt (by omega) (by omega)

/-! ### The round trip -/

theorem u16At_of_holds {l : List UInt8} {off : ℕ} {w : UInt16} (h : Holds l off (u16Bytes w)) :
    u16At off l = some w := by
  obtain ⟨r, hr⟩ := h.drop_eq
  exact u16At_eq hr

/-- What a reader positioned at a packed region sees. -/
theorem bytesBits_drop_of_holds {l : List UInt8} {off : ℕ} {w : Bits} (h : Holds l off w.finish) :
    ∃ r, bytesBits (l.drop off) = w.bits ++ r := by
  obtain ⟨r, hr⟩ := h.drop_eq
  rw [hr, bytesBits_append, w.bytesBits_finish, List.append_assoc]
  exact ⟨_, rfl⟩

section RoundTrip

variable {g : Geometry} {blocks : List ColourBlock} (hwf : ∀ b ∈ blocks, WellFormed g.depth b)
include hwf

theorem reads_trees :
    Reads (each (fun _ => readTree g.coding) (List.replicate blocks.length ()))
      (blocks.flatMap fun b =>
        chromaWord g.coding b.lcr ++ (chromaWord g.coding b.lcb ++ lumaWord g.coding b.ly))
      (blocks.map lasts) := by
  rw [← List.map_const', each_map]
  exact Reads.each blocks fun b hb =>
    reads_tree g.coding (hwf b hb).lcr.lt (hwf b hb).lcb.lt (hwf b hb).ly.lt

theorem reads_row :
    Reads (each (readBlockAc g.coding g.depth) (blocks.map lasts)) (rowWord g blocks)
      (blocks.map acs) := by
  rw [each_map]
  exact Reads.each blocks fun b hb => reads_blockAc g.coding (hwf b hb)

/-- The region offsets of the header are below `2 ^ 16`. -/
theorem offsets_lt (hlen : blocks.length = 16) :
    16 + (roundEven (mainBits g blocks).finish.length + 2) +
      roundEven (rowBits g (blocks.take 8)).finish.length < 65536 := by
  have hmain := (mainBits g blocks).length_finish_le
  have hrow := (rowBits g (blocks.take 8)).length_finish_le
  rw [bits_mainBits] at hmain
  rw [bits_rowBits] at hrow
  have h1 := length_mainWord_le hwf
  have h2 : (rowWord g (blocks.take 8)).length ≤ (blocks.take 8).length * 4725 :=
    length_rowWord_le fun b hb => hwf b (List.mem_of_mem_take hb)
  rw [List.length_take] at h2
  unfold roundEven
  omega

end RoundTrip

/-- The block lists a strip can carry exactly: sixteen well-formed blocks whose DC differences
are below their ceiling. -/
structure StripWellFormed (depth : Depth) (blocks : List ColourBlock) : Prop where
  length : blocks.length = 16
  block : ∀ b ∈ blocks, WellFormed depth b
  dc : ∀ d ∈ dcDifferences 0 0 0 blocks, magCategory d ≤ depth.dcCmax

theorem decodeStrip_of_wellFormed {g : Geometry} {blocks : List ColourBlock}
    (h : StripWellFormed g.depth blocks) (x y : UInt16) :
    decodeStrip g.depth g.coding (colourStrip g blocks x y) = some (x, y, blocks) := by
  obtain ⟨hlen, hwf, hdc⟩ := h
  obtain ⟨hx, hy, h18, h1c, hmain, hrow0, hrow1⟩ := colourStrip_holds g blocks x y
  have hoff := offsets_lt hwf hlen
  have htake : ∀ b ∈ blocks.take 8, WellFormed g.depth b := fun b hb =>
    hwf b (List.mem_of_mem_take hb)
  have hdrop : ∀ b ∈ blocks.drop 8, WellFormed g.depth b := fun b hb =>
    hwf b (List.mem_of_mem_drop hb)
  obtain ⟨r, hr⟩ := bytesBits_drop_of_holds hmain
  obtain ⟨r0, hr0⟩ := bytesBits_drop_of_holds hrow0
  obtain ⟨r1, hr1⟩ := bytesBits_drop_of_holds hrow1
  rw [bits_mainBits, mainWord, List.append_assoc] at hr
  rw [bits_rowBits] at hr0 hr1
  have htrees := reads_trees hwf
  have hdcs := reads_dcs g.coding (dcCmax_pos g.depth) blocks 0 0 0 hdc
  rw [hlen] at htrees hdcs
  rw [decodeStrip, u16At_of_holds hx, u16At_of_holds hy, u16At_of_holds h18, u16At_of_holds h1c]
  simp only [Option.bind_eq_bind, Option.bind_some, UInt16.toNat_ofNat_of_lt' hoff,
    UInt16.toNat_ofNat_of_lt' (lt_of_le_of_lt (Nat.le_add_right _ _) hoff), hr, htrees _, hdcs _,
    hr0, hr1, ← List.map_take, ← List.map_drop, reads_row htake _, reads_row hdrop _,
    ← List.map_append, List.take_append_drop, List.zip_map', List.map_map]
  have hblocks : blocks.map (block ∘ fun b => ((lasts b, b.qcr 0, b.qcb 0, b.qy 0), acs b)) =
      blocks := by
    conv_rhs => rw [← List.map_id blocks]
    exact List.map_congr_left fun b hb => block_eq (hwf b hb)
  rw [hblocks]
  rfl

/-- **The strip bitstream determines the blocks.**  In either dialect and at either depth, the
strip built from sixteen well-formed blocks whose DC differences are below their ceiling
decodes to its position and exactly those blocks. -/
theorem decodeStrip_colourStrip (g : Geometry) (blocks : List ColourBlock) (x y : UInt16)
    (hlen : blocks.length = 16) (hwf : ∀ b ∈ blocks, WellFormed g.depth b)
    (hdc : ∀ d ∈ dcDifferences 0 0 0 blocks, magCategory d ≤ g.depth.dcCmax) :
    decodeStrip g.depth g.coding (colourStrip g blocks x y) = some (x, y, blocks) :=
  decodeStrip_of_wellFormed ⟨hlen, hwf, hdc⟩ x y

/-- A block with a coefficient in two planes and the third one flat. -/
def sampleBlock : ColourBlock where
  qcr := fun i => if i = 0 then 7 else if i = 5 then -3 else 0
  qcb := fun i => if i = 0 then -2 else 0
  qy := fun i => if i = 0 then 900 else if i = 1 ∨ i = 63 then 500 else 0
  lcr := 5
  lcb := 0
  ly := 63

theorem wellFormed_sampleBlock : WellFormed .eight sampleBlock where
  lcr := .inr ⟨5, by decide, rfl, by decide, by decide⟩
  lcb := .inl ⟨rfl, by decide⟩
  ly := .inr ⟨63, by decide, rfl, by decide, by decide⟩
  acr := fun i hi => magCategory_le_iff.2 (by revert i; decide)
  acb := fun i hi => magCategory_le_iff.2 (by revert i; decide)
  ay := fun i hi => magCategory_le_iff.2 (by revert i; decide)

theorem decodeStrip_colourStrip_sample :
    let g := (Geometry.new 8 true false 0 8 3).withCoding .narrow
    let blocks := List.replicate 16 sampleBlock
    decodeStrip .eight .narrow (colourStrip g blocks 64 16) = some (64, 16, blocks) := by
  have hdc : ∀ d ∈ dcDifferences 0 0 0 (List.replicate 16 sampleBlock), d.natAbs < 2 ^ 10 := by
    decide
  exact decodeStrip_colourStrip ((Geometry.new 8 true false 0 8 3).withCoding .narrow)
    (List.replicate 16 sampleBlock) 64 16 rfl
    (fun b hb => List.eq_of_mem_replicate hb ▸ wellFormed_sampleBlock)
    fun d hd => magCategory_le_iff.2 (hdc d hd)

end Vino.Haar.Decode
