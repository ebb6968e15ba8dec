import Mathlib

/-!
# Bits in Least-Significant-First Order

Byte strings read as streams of bits, each byte giving its eight bits least significant
first, and the numbers such a stream carries.  A field of `n` bits is written either way round:
`lsbBits` from the bottom, `msbBits` from the top.

* `ofLsb_lsbBits`, `ofMsb_msbBits`: a field determines its number,
* `lsbBits_add`: a field splits anywhere,
* `bytesBits_leBytes`: the little-endian bytes of a number are its bits,
* `u16At_eq`: a two-byte little-endian field is read back.
-/

namespace Vino.Lib.Bits

/-! ### Fields of bits -/

/-- The low `n` bits of `v`, least significant first. -/
def lsbBits (n v : ℕ) : List Bool := (List.range n).map v.testBit

/-- The low `n` bits of `v`, most significant first. -/
def msbBits (n v : ℕ) : List Bool := (lsbBits n v).reverse

/-- The number whose binary digits, least significant first, are the given bits. -/
def ofLsb : List Bool → ℕ
  | [] => 0
  | b :: l => b.toNat + 2 * ofLsb l

/-- The number whose binary digits, most significant first, are the given bits. -/
def ofMsb (l : List Bool) : ℕ := ofLsb l.reverse

@[simp]
theorem length_lsbBits (n v : ℕ) : (lsbBits n v).length = n := by
  simp [lsbBits]

@[simp]
theorem length_msbBits (n v : ℕ) : (msbBits n v).length = n := by
  simp [msbBits]

@[simp]
theorem lsbBits_zero (v : ℕ) : lsbBits 0 v = [] := rfl

theorem lsbBits_succ (n v : ℕ) : lsbBits (n + 1) v = v.testBit 0 :: lsbBits n (v / 2) := by
  simp only [lsbBits, List.range_succ_eq_map, List.map_cons, List.map_map]
  congr 1
  refine List.map_congr_left fun i _ => ?_
  simp only [Function.comp, Nat.succ_eq_add_one, Nat.testBit_succ]

/-- The field one bit longer carries the next bit at its end. -/
theorem lsbBits_concat (n v : ℕ) : lsbBits (n + 1) v = lsbBits n v ++ [v.testBit n] := by
  simp [lsbBits, List.range_succ]

/-- **A field splits anywhere.** -/
theorem lsbBits_add (m n v : ℕ) : lsbBits (m + n) v = lsbBits m v ++ lsbBits n (v >>> m) := by
  simp only [lsbBits, List.range_add, List.map_append, List.map_map]
  congr 1
  refine List.map_congr_left fun i _ => ?_
  simp [Function.comp, Nat.testBit_shiftRight]

/-- Bits above the width of the field do not show in it. -/
theorem lsbBits_congr {n v w : ℕ} (h : ∀ i < n, v.testBit i = w.testBit i) :
    lsbBits n v = lsbBits n w :=
  List.map_congr_left fun i hi => h i (List.mem_range.1 hi)

theorem lsbBits_mod {n k : ℕ} (h : n ≤ k) (v : ℕ) : lsbBits n (v % 2 ^ k) = lsbBits n v := by
  refine lsbBits_congr fun i hi => ?_
  simp [Nat.testBit_mod_two_pow, show i < k by omega]

theorem lsbBits_eq_replicate {v : ℕ} (n : ℕ) (h : v = 0) :
    lsbBits n v = List.replicate n false := by
  subst h
  simp [lsbBits, List.eq_replicate_iff]

/-- A number below `2 ^ n` fills its field with zeros beyond bit `n`. -/
theorem lsbBits_pad {n v : ℕ} (h : v < 2 ^ n) (k : ℕ) :
    lsbBits (n + k) v = lsbBits n v ++ List.replicate k false := by
  have hz : v >>> n = 0 := by rw [Nat.shiftRight_eq_div_pow, Nat.div_eq_of_lt h]
  rw [lsbBits_add, lsbBits_eq_replicate k hz]

/-- A field keeps the number modulo its width. -/
theorem ofLsb_lsbBits_mod (n v : ℕ) : ofLsb (lsbBits n v) = v % 2 ^ n := by
  induction n generalizing v with
  | zero => simp [ofLsb, Nat.mod_one]
  | succ n ih =>
      rw [lsbBits_succ, ofLsb, ih, Nat.testBit_zero, pow_succ', Nat.mod_mul]
      rcases Nat.mod_two_eq_zero_or_one v with h | h <;> simp [h]

/-- **A field determines its number**, least significant bit first. -/
theorem ofLsb_lsbBits {n v : ℕ} (h : v < 2 ^ n) : ofLsb (lsbBits n v) = v := by
  rw [ofLsb_lsbBits_mod, Nat.mod_eq_of_lt h]

/-- **A field determines its number**, most significant bit first. -/
theorem ofMsb_msbBits {n v : ℕ} (h : v < 2 ^ n) : ofMsb (msbBits n v) = v := by
  rw [ofMsb, msbBits, List.reverse_reverse, ofLsb_lsbBits h]

/-! ### Bytes -/

/-- The eight bits of a byte, least significant first. -/
def byteBits (b : UInt8) : List Bool := lsbBits 8 b.toNat

/-- The bits of a byte string, each byte least significant bit first. -/
def bytesBits (l : List UInt8) : List Bool := l.flatMap byteBits

@[simp]
theorem bytesBits_nil : bytesBits [] = [] := rfl

theorem bytesBits_append (l m : List UInt8) :
    bytesBits (l ++ m) = bytesBits l ++ bytesBits m :=
  List.flatMap_append

@[simp]
theorem length_bytesBits (l : List UInt8) : (bytesBits l).length = 8 * l.length := by
  induction l with
  | nil => rfl
  | cons b l ih =>
      rw [bytesBits, List.flatMap_cons, List.length_append, ← bytesBits, ih]
      simp only [byteBits, length_lsbBits, List.length_cons]
      ring

/-- The low `n` bytes of `v`, least significant first. -/
def leBytes (n v : ℕ) : List UInt8 :=
  (List.range n).map fun k => UInt8.ofNat (v >>> (8 * k))

@[simp]
theorem length_leBytes (n v : ℕ) : (leBytes n v).length = n := by
  simp [leBytes]

theorem byteBits_ofNat (v : ℕ) : byteBits (UInt8.ofNat v) = lsbBits 8 v := by
  rw [byteBits, UInt8.toNat_ofNat', lsbBits_mod le_rfl]

/-- **The little-endian bytes of a number are its bits.** -/
theorem bytesBits_leBytes (n v : ℕ) : bytesBits (leBytes n v) = lsbBits (8 * n) v := by
  induction n with
  | zero => rfl
  | succ n ih =>
      rw [leBytes, List.range_succ, List.map_append, bytesBits_append, ← leBytes, ih,
        Nat.mul_succ, lsbBits_add]
      simp [bytesBits, byteBits_ofNat]

/-- The two little-endian bytes of a 16-bit word. -/
def u16Bytes (w : UInt16) : List UInt8 := leBytes 2 w.toNat

/-- The 16-bit word at offset `off` of a byte string, little-endian. -/
def u16At (off : ℕ) (l : List UInt8) : Option UInt16 :=
  match l.drop off with
  | a :: b :: _ => some (UInt16.ofNat (a.toNat + 256 * b.toNat))
  | _ => none

@[simp]
theorem length_u16Bytes (w : UInt16) : (u16Bytes w).length = 2 := length_leBytes 2 _

/-- **A two-byte little-endian field is read back.** -/
theorem u16At_eq {l m : List UInt8} {w : UInt16} {off : ℕ} (h : l.drop off = u16Bytes w ++ m) :
    u16At off l = some w := by
  have hw : w.toNat < 65536 := w.toNat_lt
  have hhi : w.toNat >>> 8 = w.toNat / 256 := Nat.shiftRight_eq_div_pow _ 8
  have hval : w.toNat % 256 + 256 * (w.toNat / 256) = w.toNat := by omega
  have hlt : w.toNat / 256 < 256 := by omega
  rw [u16At, h, u16Bytes, leBytes]
  simp [List.range_succ, UInt8.toNat_ofNat', hhi, Nat.mod_eq_of_lt hlt, hval]

end Vino.Lib.Bits
