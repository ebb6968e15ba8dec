import Vino.Damage
import Mathlib.Data.Nat.Digits.Lemmas

/-!
# A Localised Change Is Seen in Its Own Strip Only

A strip's hash is a running word: every eight bytes of a row are xored in, the word is multiplied
by an odd prime and rotated.  Each of these steps loses nothing, so once two surfaces have driven
the words apart the rest of the strip, being equal, cannot bring them together again.  Every byte
of a surface stands in exactly one row of one strip, so a change leaves all other hashes as they
were.

* `mix_state_injective`, `mix_word_injective`: a step forgets neither the word nor what it absorbs,
* `hashLine_injective`, `hashLine_ne`: a line carries a difference through and takes one up,
* `stripHashes_localised`: after a change within one word exactly the strip holding it differs,
* `charged_localised`: a plan charges that strip and no other.
-/

namespace Vino.ChangeDetection

open Vino.Scanout Vino.Damage Vino.Profile

/-! ### One step of the running word -/

/-- The eight bytes of a chunk as a little-endian word. -/
def leWord : List UInt8 → UInt64
  | [] => 0
  | b :: l => leWord l <<< 8 ||| b.toUInt64

/-- One step of the running hash: absorb a word, multiply, rotate. -/
def mix (h word : UInt64) : UInt64 := rotateLeft ((h ^^^ word) * hashPrime) 31

/-- The inverse of the hash's prime modulo `2 ^ 64`. -/
def hashPrimeInv : UInt64 := 0x887493432badb37

theorem hashPrime_mul_inv : hashPrime * hashPrimeInv = 1 := by decide

theorem mul_hashPrime_injective : Function.Injective fun x : UInt64 => x * hashPrime := by
  intro x y h
  have hcancel (z : UInt64) : z * hashPrime * hashPrimeInv = z := by
    rw [UInt64.mul_assoc, hashPrime_mul_inv, UInt64.mul_one]
  rw [← hcancel x, ← hcancel y]
  exact congrArg (· * hashPrimeInv) h

theorem rotateLeft_toBitVec (x : UInt64) :
    (rotateLeft x 31).toBitVec = x.toBitVec.rotateLeft 31 := by
  simp [rotateLeft, BitVec.rotateLeft_def]

/-- Bit `i` of a word stands at `i + 31`, modulo the width, after the rotation. -/
theorem rotateLeft_injective : Function.Injective fun x : UInt64 => rotateLeft x 31 := by
  intro x y h
  have hrot : x.toBitVec.rotateLeft 31 = y.toBitVec.rotateLeft 31 := by
    rw [← rotateLeft_toBitVec, ← rotateLeft_toBitVec]
    exact congrArg UInt64.toBitVec h
  refine UInt64.eq_of_toBitVec_eq (BitVec.eq_of_getLsbD_eq fun i hi => ?_)
  have hbit := congrArg (fun z => z.getLsbD ((i + 31) % 64)) hrot
  simp only [BitVec.getLsbD_rotateLeft] at hbit
  rcases Nat.lt_or_ge i 33 with h1 | h1
  · rw [show (i + 31) % 64 = i + 31 by omega] at hbit
    simpa [show i + 31 < 64 by omega] using hbit
  · rw [show (i + 31) % 64 = i - 33 by omega] at hbit
    simpa [show i - 33 < 31 by omega, show 33 + (i - 33) = i by omega] using hbit

theorem xor_right_injective (word : UInt64) : Function.Injective fun h : UInt64 => h ^^^ word := by
  intro x y h
  have hcancel (z : UInt64) : z ^^^ word ^^^ word = z := by
    rw [UInt64.xor_assoc, UInt64.xor_self, UInt64.xor_zero]
  rw [← hcancel x, ← hcancel y]
  exact congrArg (· ^^^ word) h

/-- **A step does not forget the word it started from.** -/
theorem mix_state_injective (word : UInt64) : Function.Injective fun h => mix h word := by
  intro x y h
  exact xor_right_injective word (mul_hashPrime_injective (rotateLeft_injective h))

/-- **A step does not forget the word it absorbed.** -/
theorem mix_word_injective (h : UInt64) : Function.Injective (mix h) := by
  intro x y hxy
  have hxor : h ^^^ x = h ^^^ y := mul_hashPrime_injective (rotateLeft_injective hxy)
  rw [UInt64.xor_comm h x, UInt64.xor_comm h y] at hxor
  exact xor_right_injective h hxor

/-- The remainder of a line is absorbed a byte at a time, which forgets nothing either. -/
theorem mixByte_injective (b : UInt8) :
    Function.Injective fun h : UInt64 => (h ^^^ b.toUInt64) * hashPrime := by
  intro x y h
  exact xor_right_injective b.toUInt64 (mul_hashPrime_injective h)

theorem leWord_toNat : ∀ l : List UInt8, l.length ≤ 8 →
    (leWord l).toNat = Nat.ofDigits 256 (l.map UInt8.toNat)
  | [], _ => rfl
  | b :: l, h => by
    have hlen : l.length ≤ 7 := by simpa [Nat.lt_succ_iff] using h
    have ih := leWord_toNat l (by omega)
    have hb : b.toNat < 2 ^ 8 := b.toNat_lt
    have hlt : Nat.ofDigits 256 (l.map UInt8.toNat) < 256 ^ 7 := by
      have hdigits := Nat.ofDigits_lt_base_pow_length (b := 256) (l := l.map UInt8.toNat)
        (by decide) (by simp only [List.mem_map]; rintro _ ⟨a, -, rfl⟩; exact a.toNat_lt)
      have hpow : 256 ^ (l.map UInt8.toNat).length ≤ 256 ^ 7 :=
        Nat.pow_le_pow_right (by decide) (by simpa using hlen)
      omega
    have hshift : (leWord l).toNat <<< 8 % 2 ^ 64 = (leWord l).toNat <<< 8 := by
      rw [Nat.shiftLeft_eq]
      exact Nat.mod_eq_of_lt (by omega)
    have hword : (leWord (b :: l)).toNat = (leWord l).toNat <<< 8 ||| b.toNat := by
      simp only [leWord, UInt64.toNat_or, UInt64.toNat_shiftLeft, UInt8.toNat_toUInt64]
      rw [show (8 : UInt64).toNat % 64 = 8 from rfl, hshift]
    rw [hword, ← Nat.shiftLeft_add_eq_or_of_lt hb, Nat.shiftLeft_eq, ih, List.map_cons,
      Nat.ofDigits_cons]
    omega

/-- **Eight bytes are read back from their word.** -/
theorem leWord_injective {l l' : List UInt8} (hl : l.length = 8) (hl' : l'.length = 8)
    (h : leWord l = leWord l') : l = l' := by
  have hdigits : Nat.ofDigits 256 (l.map UInt8.toNat) = Nat.ofDigits 256 (l'.map UInt8.toNat) := by
    rw [← leWord_toNat l (by omega), ← leWord_toNat l' (by omega), h]
  have hbound (m : List UInt8) : ∀ d ∈ m.map UInt8.toNat, d < 256 := by
    simp only [List.mem_map]
    rintro _ ⟨a, -, rfl⟩
    exact a.toNat_lt
  have hmap := Nat.ofDigits_inj_of_len_eq (by decide) (by simp [hl, hl']) (hbound l) (hbound l')
    hdigits
  exact List.map_injective_iff.2 (fun a b hab => UInt8.toNat_inj.1 hab) hmap

/-! ### A line of a strip -/

theorem hashLine_chunk {chunk : List UInt8} (hc : chunk.length = 8) (h : UInt64)
    (rest : List UInt8) : hashLine h (chunk ++ rest) = hashLine (mix h (leWord chunk)) rest := by
  match chunk, hc with
  | [b0, b1, b2, b3, b4, b5, b6, b7], _ => rfl

theorem hashLine_remainder {l : List UInt8} (hl : l.length < 8) (h : UInt64) :
    hashLine h l = l.foldl (fun h b => (h ^^^ b.toUInt64) * hashPrime) h := by
  rw [hashLine]
  rintro b0 b1 b2 b3 b4 b5 b6 b7 rest rfl
  simp only [List.length_cons] at hl
  omega

theorem foldl_injective {α β : Type*} {f : α → β → α}
    (hf : ∀ b, Function.Injective fun a => f a b) :
    ∀ l : List β, Function.Injective fun a => l.foldl f a
  | [] => fun _ _ h => h
  | b :: l => fun _ _ h => hf b (foldl_injective hf l h)

/-- **A line carries a difference of the running word through to its end.** -/
theorem hashLine_injective (l : List UInt8) : Function.Injective fun h => hashLine h l := by
  rcases Nat.lt_or_ge l.length 8 with hl | hl
  · intro x y h
    simp only [hashLine_remainder hl] at h
    exact foldl_injective mixByte_injective l h
  · have hchunk : (l.take 8).length = 8 := by rw [List.length_take]; omega
    intro x y h
    rw [← List.take_append_drop 8 l] at h
    simp only [hashLine_chunk hchunk] at h
    exact mix_state_injective _ (hashLine_injective (l.drop 8) h)
termination_by l.length
decreasing_by
  rw [List.length_drop]
  omega

/-- Whole words at the front of a line are absorbed before the rest. -/
theorem hashLine_append : ∀ (k : ℕ) (pre l : List UInt8) (h : UInt64), pre.length = 8 * k →
    hashLine h (pre ++ l) = hashLine (hashLine h pre) l
  | 0, pre, l, h, hpre => by
    obtain rfl : pre = [] := List.length_eq_zero_iff.1 hpre
    rfl
  | k + 1, pre, l, h, hpre => by
    have hchunk : (pre.take 8).length = 8 := by rw [List.length_take]; omega
    rw [← List.take_append_drop 8 pre, List.append_assoc, hashLine_chunk hchunk,
      hashLine_chunk hchunk]
    exact hashLine_append k _ _ _ (by rw [List.length_drop]; omega)

/-- **A change within one word of a line is taken up**, whatever the running word. -/
theorem hashLine_ne {pre word word' post : List UInt8} {k : ℕ} (hpre : pre.length = 8 * k)
    (hw : word.length = 8) (hw' : word'.length = 8) (hne : word ≠ word') (h : UInt64) :
    hashLine h (pre ++ (word ++ post)) ≠ hashLine h (pre ++ (word' ++ post)) := by
  intro heq
  rw [hashLine_append k _ _ _ hpre, hashLine_append k _ _ _ hpre, hashLine_chunk hw,
    hashLine_chunk hw'] at heq
  exact hne (leWord_injective hw hw' (mix_word_injective _ (hashLine_injective post heq)))

/-! ### Where a byte of the surface stands -/

section Surface

variable {w h stripW stripH tx ty dy k : ℕ} {rgb rgb' : List UInt8}

/-- The first byte of row `dy` of the strip in column `tx` and band `ty`. -/
def lineStart (w stripW stripH tx ty dy : ℕ) : ℕ :=
  (ty * stripH + dy) * (w * 3) + tx * (stripW * 3)

/-- Row `dy` of a strip. -/
def stripLine (rgb : List UInt8) (w stripW stripH tx ty dy : ℕ) : List UInt8 :=
  (rgb.drop (lineStart w stripW stripH tx ty dy)).take (stripW * 3)

/-- Two surfaces of one strip-aligned size that differ, and only within the aligned eight-byte
word `k` of row `dy` of the strip in column `tx` and band `ty`. -/
structure WordChange (w h stripW stripH tx ty dy k : ℕ) (rgb rgb' : List UInt8) : Prop where
  aligned_w : stripW ∣ w
  aligned_h : stripH ∣ h
  length_before : rgb.length = w * h * 3
  length_after : rgb'.length = w * h * 3
  column : tx < w / stripW
  band : ty < h / stripH
  row : dy < stripH
  word : 8 * k + 8 ≤ stripW * 3
  outside : ∀ i, i < lineStart w stripW stripH tx ty dy + 8 * k ∨
    lineStart w stripW stripH tx ty dy + 8 * k + 8 ≤ i → rgb[i]? = rgb'[i]?
  differ : rgb ≠ rgb'

/-- Rows of strips are numbered across the surface, and start at multiples of the row's span. -/
theorem lineStart_eq (hw : stripW ∣ w) (tx ty dy : ℕ) :
    lineStart w stripW stripH tx ty dy =
      ((ty * stripH + dy) * (w / stripW) + tx) * (stripW * 3) := by
  obtain ⟨n, rfl⟩ := hw
  rcases Nat.eq_zero_or_pos stripW with rfl | hpos
  · simp [lineStart]
  · rw [Nat.mul_div_cancel_left n hpos, lineStart]
    ring

/-- **No byte stands in two rows of strips.** -/
theorem rows_disjoint (hw : stripW ∣ w) {tx' ty' dy' : ℕ} (htx : tx < w / stripW)
    (htx' : tx' < w / stripW) (hdy : dy < stripH) (hdy' : dy' < stripH)
    (hne : (tx', ty', dy') ≠ (tx, ty, dy)) :
    lineStart w stripW stripH tx' ty' dy' + stripW * 3 ≤ lineStart w stripW stripH tx ty dy ∨
      lineStart w stripW stripH tx ty dy + stripW * 3 ≤
        lineStart w stripW stripH tx' ty' dy' := by
  rw [lineStart_eq hw, lineStart_eq hw]
  set c := (ty * stripH + dy) * (w / stripW) + tx with hc
  set c' := (ty' * stripH + dy') * (w / stripW) + tx' with hc'
  have hcell : c' ≠ c := by
    intro heq
    have hcolumn : tx' = tx := by
      have hmod := congrArg (· % (w / stripW)) heq
      simpa [hc, hc', Nat.mul_add_mod', Nat.mod_eq_of_lt htx, Nat.mod_eq_of_lt htx'] using hmod
    have hline : ty' * stripH + dy' = ty * stripH + dy := by
      subst hcolumn
      exact Nat.eq_of_mul_eq_mul_right (by omega) (Nat.add_right_cancel heq)
    have hrow : dy' = dy := by
      have hmod := congrArg (· % stripH) hline
      simpa [Nat.mul_add_mod', Nat.mod_eq_of_lt hdy, Nat.mod_eq_of_lt hdy'] using hmod
    have hband : ty' = ty := by
      subst hrow
      exact Nat.eq_of_mul_eq_mul_right (by omega) (Nat.add_right_cancel hline)
    exact hne (by rw [hcolumn, hband, hrow])
  rcases Nat.lt_or_gt_of_ne hcell with hlt | hgt
  · left
    calc c' * (stripW * 3) + stripW * 3 = (c' + 1) * (stripW * 3) := by ring
      _ ≤ c * (stripW * 3) := Nat.mul_le_mul_right _ hlt
  · right
    calc c * (stripW * 3) + stripW * 3 = (c + 1) * (stripW * 3) := by ring
      _ ≤ c' * (stripW * 3) := Nat.mul_le_mul_right _ hgt

/-- **Every row of every strip lies inside an aligned surface**, so no slice is out of range. -/
theorem lineStart_add_le (hw : stripW ∣ w) (hh : stripH ∣ h) (htx : tx < w / stripW)
    (hty : ty < h / stripH) (hdy : dy < stripH) :
    lineStart w stripW stripH tx ty dy + stripW * 3 ≤ w * h * 3 := by
  have hrow : ty * stripH + dy + 1 ≤ h := by
    calc ty * stripH + dy + 1 ≤ (ty + 1) * stripH := by rw [Nat.succ_mul]; omega
      _ ≤ h / stripH * stripH := Nat.mul_le_mul_right _ hty
      _ = h := Nat.div_mul_cancel hh
  have hspan : tx * (stripW * 3) + stripW * 3 ≤ w * 3 := by
    calc tx * (stripW * 3) + stripW * 3 = (tx + 1) * stripW * 3 := by ring
      _ ≤ w / stripW * stripW * 3 :=
        Nat.mul_le_mul_right _ (Nat.mul_le_mul_right _ htx)
      _ = w * 3 := by rw [Nat.div_mul_cancel hw]
  calc lineStart w stripW stripH tx ty dy + stripW * 3
      = (ty * stripH + dy) * (w * 3) + (tx * (stripW * 3) + stripW * 3) := by
        rw [lineStart]; omega
    _ ≤ (ty * stripH + dy) * (w * 3) + w * 3 := Nat.add_le_add_left hspan _
    _ = (ty * stripH + dy + 1) * (w * 3) := by ring
    _ ≤ h * (w * 3) := Nat.mul_le_mul_right _ hrow
    _ = w * h * 3 := by ring

theorem getElem?_stripLine {i : ℕ} (hi : i < stripW * 3) :
    (stripLine rgb w stripW stripH tx ty dy)[i]? =
      rgb[lineStart w stripW stripH tx ty dy + i]? := by
  rw [stripLine, List.getElem?_take_of_lt hi, List.getElem?_drop]

theorem length_stripLine (hw : stripW ∣ w) (hh : stripH ∣ h) (hlen : rgb.length = w * h * 3)
    (htx : tx < w / stripW) (hty : ty < h / stripH) (hdy : dy < stripH) :
    (stripLine rgb w stripW stripH tx ty dy).length = stripW * 3 := by
  have hin := lineStart_add_le hw hh htx hty hdy
  rw [stripLine, List.length_take, List.length_drop]
  omega

/-- Rows of other strips, and other rows of the same strip, do not see the change. -/
theorem WordChange.stripLine_eq (hc : WordChange w h stripW stripH tx ty dy k rgb rgb')
    {tx' ty' dy' : ℕ} (htx' : tx' < w / stripW) (hdy' : dy' < stripH)
    (hne : (tx', ty', dy') ≠ (tx, ty, dy)) :
    stripLine rgb w stripW stripH tx' ty' dy' = stripLine rgb' w stripW stripH tx' ty' dy' := by
  have hdisjoint := rows_disjoint hc.aligned_w hc.column htx' hc.row hdy' hne
  have hword := hc.word
  refine List.ext_getElem? fun i => ?_
  rcases Nat.lt_or_ge i (stripW * 3) with hi | hi
  · rw [getElem?_stripLine hi, getElem?_stripLine hi]
    exact hc.outside _ (by omega)
  · have hshort (m : List UInt8) :
        (stripLine m w stripW stripH tx' ty' dy').length ≤ i :=
      (List.length_take_le _ _).trans hi
    rw [List.getElem?_eq_none (hshort rgb), List.getElem?_eq_none (hshort rgb')]

/-- The changed row, cut at the word: what stands around the word is the same. -/
theorem WordChange.cut (hc : WordChange w h stripW stripH tx ty dy k rgb rgb') :
    ∃ pre word word' post : List UInt8,
      stripLine rgb w stripW stripH tx ty dy = pre ++ (word ++ post) ∧
      stripLine rgb' w stripW stripH tx ty dy = pre ++ (word' ++ post) ∧
      pre.length = 8 * k ∧ word.length = 8 ∧ word'.length = 8 := by
  set l := stripLine rgb w stripW stripH tx ty dy with hl
  set l' := stripLine rgb' w stripW stripH tx ty dy with hl'
  have hword := hc.word
  have hlen : l.length = stripW * 3 :=
    length_stripLine hc.aligned_w hc.aligned_h hc.length_before hc.column hc.band hc.row
  have hlen' : l'.length = stripW * 3 :=
    length_stripLine hc.aligned_w hc.aligned_h hc.length_after hc.column hc.band hc.row
  have hsame (i : ℕ) (hi : i < 8 * k ∨ 8 * k + 8 ≤ i) : l[i]? = l'[i]? := by
    rcases Nat.lt_or_ge i (stripW * 3) with hlt | hge
    · rw [hl, hl', getElem?_stripLine hlt, getElem?_stripLine hlt]
      exact hc.outside _ (by omega)
    · rw [List.getElem?_eq_none (by omega), List.getElem?_eq_none (by omega)]
  have hpre : l.take (8 * k) = l'.take (8 * k) := by
    refine List.ext_getElem? fun i => ?_
    simp only [List.getElem?_take]
    split_ifs with hi
    · exact hsame i (Or.inl hi)
    · rfl
  have hpost : l.drop (8 * k + 8) = l'.drop (8 * k + 8) := by
    refine List.ext_getElem? fun i => ?_
    rw [List.getElem?_drop, List.getElem?_drop]
    exact hsame _ (Or.inr (by omega))
  have hcut (m : List UInt8) :
      m = m.take (8 * k) ++ ((m.drop (8 * k)).take 8 ++ m.drop (8 * k + 8)) := by
    rw [← List.drop_drop, List.take_append_drop, List.take_append_drop]
  refine ⟨l.take (8 * k), (l.drop (8 * k)).take 8, (l'.drop (8 * k)).take 8,
    l.drop (8 * k + 8), hcut l, ?_, ?_, ?_, ?_⟩
  · rw [hpre, hpost]
    exact hcut l'
  · rw [List.length_take]; omega
  · rw [List.length_take, List.length_drop]; omega
  · rw [List.length_take, List.length_drop]; omega

/-- The row that holds the word is really changed. -/
theorem WordChange.stripLine_ne (hc : WordChange w h stripW stripH tx ty dy k rgb rgb') :
    stripLine rgb w stripW stripH tx ty dy ≠ stripLine rgb' w stripW stripH tx ty dy := by
  intro heq
  have hword := hc.word
  refine hc.differ (List.ext_getElem? fun i => ?_)
  rcases Nat.lt_or_ge i (lineStart w stripW stripH tx ty dy + 8 * k) with h1 | h1
  · exact hc.outside i (Or.inl h1)
  rcases Nat.lt_or_ge i (lineStart w stripW stripH tx ty dy + 8 * k + 8) with h2 | h2
  · obtain ⟨j, rfl⟩ : ∃ j, i = lineStart w stripW stripH tx ty dy + j :=
      ⟨i - lineStart w stripW stripH tx ty dy, by omega⟩
    have hj : j < stripW * 3 := by omega
    rw [← getElem?_stripLine hj, ← getElem?_stripLine hj, heq]
  · exact hc.outside i (Or.inr h2)

theorem WordChange.hashLine_ne (hc : WordChange w h stripW stripH tx ty dy k rgb rgb')
    (x : UInt64) : hashLine x (stripLine rgb w stripW stripH tx ty dy) ≠
      hashLine x (stripLine rgb' w stripW stripH tx ty dy) := by
  obtain ⟨pre, word, word', post, hcut, hcut', hpre, hw, hw'⟩ := hc.cut
  have hne : word ≠ word' := by
    rintro rfl
    exact hc.stripLine_ne (hcut.trans hcut'.symm)
  rw [hcut, hcut']
  exact ChangeDetection.hashLine_ne hpre hw hw' hne x

/-! ### The hashes of two surfaces -/

/-- A fold of injective steps tells two runs apart that absorb different values in one place. -/
theorem foldl_range_ne {α β : Type*} {f : α → β → α} (hf : ∀ b, Function.Injective fun a => f a b)
    {F F' : ℕ → β} {d : ℕ} (hne : ∀ a, f a (F d) ≠ f a (F' d)) (a : α) :
    ∀ n, d < n → (∀ i < n, i ≠ d → F i = F' i) →
      ((List.range n).map F).foldl f a ≠ ((List.range n).map F').foldl f a
  | 0, hd, _ => absurd hd (Nat.not_lt_zero d)
  | n + 1, hd, hsame => by
    simp only [List.range_succ, List.map_append, List.foldl_append, List.map_cons, List.map_nil,
      List.foldl_cons, List.foldl_nil]
    rcases Nat.lt_or_ge d n with hlt | hge
    · rw [hsame n (by omega) (by omega)]
      intro heq
      exact foldl_range_ne hf hne a n hlt (fun i hi => hsame i (by omega)) (hf _ heq)
    · obtain rfl : d = n := by omega
      have hsteps : (List.range d).map F = (List.range d).map F' :=
        List.map_congr_left fun i hi => by
          have := List.mem_range.1 hi
          exact hsame i (by omega) (by omega)
      rw [hsteps]
      exact hne _

theorem stripLines_eq_map (rgb : List UInt8) (w stripW stripH tx ty : ℕ) :
    stripLines rgb w stripW stripH tx ty =
      (List.range stripH).map (stripLine rgb w stripW stripH tx ty) := rfl

/-- The strip that holds the changed word gets another hash. -/
theorem WordChange.stripHash_ne (hc : WordChange w h stripW stripH tx ty dy k rgb rgb') :
    stripHash tx ty (stripLines rgb w stripW stripH tx ty) ≠
      stripHash tx ty (stripLines rgb' w stripW stripH tx ty) := by
  rw [stripLines_eq_map, stripLines_eq_map]
  refine foldl_range_ne hashLine_injective hc.hashLine_ne _ stripH hc.row fun i hi hid => ?_
  exact hc.stripLine_eq hc.column hi fun heq => hid (by injection heq with _ h; injection h)

/-- Every other strip keeps its hash. -/
theorem WordChange.stripHash_eq (hc : WordChange w h stripW stripH tx ty dy k rgb rgb')
    {tx' ty' : ℕ} (htx' : tx' < w / stripW) (hne : (tx', ty') ≠ (tx, ty)) :
    stripHash tx' ty' (stripLines rgb w stripW stripH tx' ty') =
      stripHash tx' ty' (stripLines rgb' w stripW stripH tx' ty') := by
  rw [stripLines_eq_map, stripLines_eq_map]
  congr 1
  refine List.map_congr_left fun i hi => ?_
  refine hc.stripLine_eq htx' (List.mem_range.1 hi) fun heq => hne ?_
  rw [Prod.mk.injEq, Prod.mk.injEq] at heq
  rw [heq.1, heq.2.1]

theorem getElem?_stripHashes (htx : tx < w / stripW) (hty : ty < h / stripH) :
    (stripHashes rgb w h stripW stripH)[ty * (w / stripW) + tx]? =
      some (stripHash tx ty (stripLines rgb w stripW stripH tx ty)) :=
  getElem?_grid (fun ty tx => stripHash tx ty (stripLines rgb w stripW stripH tx ty)) _ hty htx

@[simp]
theorem length_stripHashes (rgb : List UInt8) (w h stripW stripH : ℕ) :
    (stripHashes rgb w h stripW stripH).length = w / stripW * (h / stripH) := by
  rw [stripHashes, length_grid, Nat.mul_comm]

/-- The hashes of the two surfaces differ at the strip of the changed word only. -/
theorem WordChange.hash_ne_iff (hc : WordChange w h stripW stripH tx ty dy k rgb rgb') (i : ℕ) :
    (stripHashes rgb w h stripW stripH)[i]? ≠ (stripHashes rgb' w h stripW stripH)[i]? ↔
      i = ty * (w / stripW) + tx := by
  constructor
  · intro hi
    by_contra hother
    refine hi ?_
    rcases Nat.lt_or_ge i (w / stripW * (h / stripH)) with hlt | hge
    · have htx' : i % (w / stripW) < w / stripW := Nat.mod_lt i (Nat.zero_lt_of_lt hc.column)
      have hty' : i / (w / stripW) < h / stripH := Nat.div_lt_of_lt_mul hlt
      have hsplit : i = i / (w / stripW) * (w / stripW) + i % (w / stripW) :=
        (Nat.div_add_mod' i _).symm
      have hne : (i % (w / stripW), i / (w / stripW)) ≠ (tx, ty) := by
        intro heq
        rw [Prod.mk.injEq] at heq
        exact hother (by rw [hsplit, heq.1, heq.2])
      rw [hsplit, getElem?_stripHashes htx' hty', getElem?_stripHashes htx' hty',
        hc.stripHash_eq htx' hne]
    · rw [List.getElem?_eq_none (by simpa using hge), List.getElem?_eq_none (by simpa using hge)]
  · rintro rfl
    rw [getElem?_stripHashes hc.column hc.band, getElem?_stripHashes hc.column hc.band]
    exact fun heq => hc.stripHash_ne (Option.some.inj heq)

/-- **A localised change is seen in its own strip and in no other**: both surfaces have a hash for
each strip, and these differ at the raster index of the strip that holds the changed word and agree
at every other. -/
theorem stripHashes_localised (hc : WordChange w h stripW stripH tx ty dy k rgb rgb') :
    (stripHashes rgb w h stripW stripH).length = w / stripW * (h / stripH) ∧
    (stripHashes rgb' w h stripW stripH).length = w / stripW * (h / stripH) ∧
    ty * (w / stripW) + tx < w / stripW * (h / stripH) ∧
    ∀ i, (stripHashes rgb w h stripW stripH)[i]? ≠ (stripHashes rgb' w h stripW stripH)[i]? ↔
      i = ty * (w / stripW) + tx := by
  have hindex : ty * (w / stripW) + tx < w / stripW * (h / stripH) := by
    calc ty * (w / stripW) + tx < (ty + 1) * (w / stripW) := by
          rw [Nat.succ_mul]; exact Nat.add_lt_add_left hc.column _
      _ ≤ h / stripH * (w / stripW) := Nat.mul_le_mul_right _ hc.band
      _ = w / stripW * (h / stripH) := Nat.mul_comm _ _
  exact ⟨length_stripHashes .., length_stripHashes .., hindex, hc.hash_ne_iff⟩

/-- A black surface with one bright byte at `a`. -/
def dotted (a b : ℕ) : List UInt8 := List.replicate a 0 ++ 255 :: List.replicate b 0

theorem dotted_outside {a b i : ℕ} (hi : i ≠ a) :
    (List.replicate (a + 1 + b) (0 : UInt8))[i]? = (dotted a b)[i]? := by
  rw [dotted, List.getElem?_append, List.getElem?_replicate, List.length_replicate]
  split_ifs with h1 h2 h2
  · rw [List.getElem?_replicate, if_pos h2]
  · rw [show i - a = (i - a - 1) + 1 by omega, List.getElem?_cons_succ, List.getElem?_replicate,
      if_pos (by omega)]
  · omega
  · rw [show i - a = (i - a - 1) + 1 by omega, List.getElem?_cons_succ, List.getElem?_replicate,
      if_neg (by omega)]

/-- A dot in the first row of a surface of one strip, in the third word of that row. -/
theorem dot_change (h : ℕ) (hh : 0 < h) :
    WordChange 64 h 64 h 0 0 0 2 (List.replicate (19 + 1 + (64 * h * 3 - 20)) 0)
      (dotted 19 (64 * h * 3 - 20)) where
  aligned_w := dvd_rfl
  aligned_h := dvd_rfl
  length_before := by rw [List.length_replicate]; omega
  length_after := by simp only [dotted, List.length_append, List.length_cons,
    List.length_replicate]; omega
  column := by decide
  band := by rw [Nat.div_self hh]; exact Nat.one_pos
  row := hh
  word := by decide
  outside i hi := by
    refine dotted_outside ?_
    simp only [lineStart] at hi
    omega
  differ heq := by
    have hbyte := congrArg (fun l : List UInt8 => l[19]?) heq
    rw [List.getElem?_replicate, if_pos (by omega), dotted,
      List.getElem?_append_right (by rw [List.length_replicate]),
      List.length_replicate] at hbyte
    exact absurd (Option.some.inj hbyte) (by decide)

theorem dot_seen :
    (stripHashes (List.replicate (19 + 1 + 3052) 0) 64 16 64 16).length = 1 ∧
    (stripHashes (dotted 19 3052) 64 16 64 16).length = 1 ∧ 0 < 1 ∧
    ∀ i, (stripHashes (List.replicate (19 + 1 + 3052) 0) 64 16 64 16)[i]? ≠
      (stripHashes (dotted 19 3052) 64 16 64 16)[i]? ↔ i = 0 :=
  stripHashes_localised (dot_change 16 (by decide))

end Surface

/-! ### What a plan charges -/

section Charge

variable {s : HeadScanout} {tx ty dy k : ℕ} {rgb rgb' : List UInt8}

/-- **A plan charges the strip that changed and no other.** -/
theorem charged_localised (hc : WordChange s.wPad s.hPad s.dock.stripDims.1 s.dock.stripDims.2
      tx ty dy k rgb rgb')
    (hhashes : s.hashes = stripHashes rgb s.wPad s.hPad s.dock.stripDims.1 s.dock.stripDims.2)
    (hpending : s.pending = stripHashes rgb' s.wPad s.hPad s.dock.stripDims.1 s.dock.stripDims.2)
    (i : ℕ) :
    s.charged[i]? = if i = ty * (s.wPad / s.dock.stripDims.1) + tx
      then s.debt[i]?.map fun _ => s.dock.damageFrames else s.debt[i]? := by
  have hget : s.hashes.getD i 0 ≠ s.pending.getD i 0 ↔
      i = ty * (s.wPad / s.dock.stripDims.1) + tx := by
    have hlen : s.hashes.length = s.pending.length := by simp [hhashes, hpending]
    rw [← hc.hash_ne_iff i, ← hhashes, ← hpending]
    rcases Nat.lt_or_ge i s.hashes.length with hi | hi
    · simp [hi, show i < s.pending.length by omega]
    · simp [hi, show s.pending.length ≤ i by omega]
  simp only [HeadScanout.charged, List.getElem?_mapIdx, hget]
  split_ifs with h
  · rfl
  · rw [Option.map_id']

end Charge

end Vino.ChangeDetection
