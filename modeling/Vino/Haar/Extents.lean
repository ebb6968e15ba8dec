import Vino.Haar.Framing
import Vino.Haar.Lengths

/-!
# Reading Framed Records Back

Two readers of a frame that is about to go on the wire.  `framedStripExtents` lists the strips it
finds, told from the padding behind them by their length and their first bytes; `recordStats` counts
the records and measures the longest record and strip, told from the padding by `aux`.  Both are
loops over absolute offsets, with as many rounds as the bytes they walk allow.

* `extentsFrom_eq`: the walk over the strips without its counter,
* `extentsFrom_records`, `chunkStats_records`: what each reader finds in a run of records,
* `readers_agree`: both read what the writer framed.
-/

namespace Vino.Haar.Extents

open Vino.Haar.Strip Vino.Haar.Records Vino.Haar.Framing Vino.Haar.Decode Vino.Haar.Lengths
open Vino.Lib.Bits Vino.Lib.Buffer

/-- The 16-bit word at an offset. -/
def word (off : ℕ) (l : List UInt8) : ℕ := ((u16At off l).getD 0).toNat

/-! ### The readers -/

/-- The strips of a chunk: the next record begins at `nextRecord`, the next strip of the current
one at `p`. -/
def stripExtents (chunk : List UInt8) : ℕ → ℕ → ℕ → ℕ → List (ℕ × ℕ × ℕ)
  | 0, _, _, _ => []
  | fuel + 1, nextRecord, p, recordEnd =>
      if recordEnd < p + 2 then
        -- This record is exhausted, or none has started yet.
        let stride := word (nextRecord + 2) chunk + 4
        if chunk.length < nextRecord + 16 then []
        else if stride < 16 ∨ chunk.length < nextRecord + stride then []
        else stripExtents chunk fuel (nextRecord + stride) (nextRecord + 16) (nextRecord + stride)
      else
        let sl := word p chunk
        -- A length that cannot be a strip is the trailing padding.
        if sl < 16 ∨ recordEnd < p + 2 + sl then
          stripExtents chunk fuel nextRecord recordEnd recordEnd
        else if chunk.getD (p + 2) 0 ≠ 0x01 ∨ chunk.getD (p + 3) 0 ≠ 0x28 then
          stripExtents chunk fuel nextRecord recordEnd recordEnd
        else
          (word (p + 4) chunk, word (p + 6) chunk, sl) ::
            stripExtents chunk fuel nextRecord (p + 2 + sl) recordEnd

/-- The rounds left: every record takes sixteen bytes at least. -/
def rounds (chunk : List UInt8) (nextRecord p recordEnd : ℕ) : ℕ :=
  2 * (chunk.length - nextRecord) + (recordEnd - p)

/-- The strips behind a position of a chunk. -/
def extentsFrom (chunk : List UInt8) (nextRecord p recordEnd : ℕ) : List (ℕ × ℕ × ℕ) :=
  stripExtents chunk (rounds chunk nextRecord p recordEnd + 1) nextRecord p recordEnd

/-- `(x, y, length)` of every strip of a framed set of records. -/
def framedStripExtents (frames : List (List UInt8)) : List (ℕ × ℕ × ℕ) :=
  frames.flatMap fun chunk => extentsFrom chunk 0 0 0

/-- The longest strip of a record's payload. -/
def longestStrip (body : List UInt8) (payload : ℕ) : ℕ → ℕ → ℕ → ℕ
  | 0, _, longest => longest
  | fuel + 1, off, longest =>
      if payload < off + 2 then longest
      else
        let len := word off body
        if len = 0 ∨ payload < off + 2 + len then longest
        else longestStrip body payload fuel (off + 2 + len) (max longest len)

/-- What `recordStats` has seen: the records, the largest stride and the longest strip. -/
abbrev Stats := ℕ × ℕ × ℕ

/-- The records of a chunk from an offset on. -/
def chunkStats (chunk : List UInt8) : ℕ → ℕ → Stats → Stats
  | 0, _, seen => seen
  | fuel + 1, off, seen =>
      let stride := word (off + 2) chunk + 4
      if chunk.length < off + 16 then seen
      else if stride < 16 ∨ chunk.length < off + stride then seen
      else
        let aux := word (off + 10) chunk
        let body := (chunk.drop (off + 16)).take (stride - 16)
        let longest := longestStrip body (body.length - aux) (body.length + 1) 0 seen.2.2
        chunkStats chunk fuel (off + stride) (seen.1 + 1, max seen.2.1 stride, longest)

/-- The shape of a frame: the records, the largest stride and the longest strip. -/
def recordStats (chunks : List (List UInt8)) : Stats :=
  chunks.foldl (fun seen chunk => chunkStats chunk (chunk.length + 1) 0 seen) (0, 0, 0)

/-! ### Loops without counters -/

/-- More rounds than are left change nothing. -/
theorem stripExtents_stable (chunk : List UInt8) : ∀ fuel fuel' nextRecord p recordEnd,
    rounds chunk nextRecord p recordEnd < fuel → rounds chunk nextRecord p recordEnd < fuel' →
      stripExtents chunk fuel nextRecord p recordEnd =
        stripExtents chunk fuel' nextRecord p recordEnd
  | 0, _, _, _, _, h, _ => absurd h (Nat.not_lt_zero _)
  | _, 0, _, _, _, _, h => absurd h (Nat.not_lt_zero _)
  | fuel + 1, fuel' + 1, nextRecord, p, recordEnd, h, h' => by
      have hnext := stripExtents_stable chunk fuel fuel'
      unfold rounds at h h' hnext
      unfold stripExtents
      dsimp only
      split_ifs with h1 h2 h3 h4 h5
      · rfl
      · rfl
      · exact hnext _ _ _ (by omega) (by omega)
      · exact hnext _ _ _ (by omega) (by omega)
      · exact hnext _ _ _ (by omega) (by omega)
      · rw [hnext _ _ _ (by omega) (by omega)]

/-- **The walk over the strips of a chunk.** -/
theorem extentsFrom_eq (chunk : List UInt8) (nextRecord p recordEnd : ℕ) :
    extentsFrom chunk nextRecord p recordEnd =
      if recordEnd < p + 2 then
        if chunk.length < nextRecord + 16 then []
        else if word (nextRecord + 2) chunk + 4 < 16 ∨
            chunk.length < nextRecord + (word (nextRecord + 2) chunk + 4) then []
        else extentsFrom chunk (nextRecord + (word (nextRecord + 2) chunk + 4)) (nextRecord + 16)
          (nextRecord + (word (nextRecord + 2) chunk + 4))
      else if word p chunk < 16 ∨ recordEnd < p + 2 + word p chunk then
        extentsFrom chunk nextRecord recordEnd recordEnd
      else if chunk.getD (p + 2) 0 ≠ 0x01 ∨ chunk.getD (p + 3) 0 ≠ 0x28 then
        extentsFrom chunk nextRecord recordEnd recordEnd
      else
        (word (p + 4) chunk, word (p + 6) chunk, word p chunk) ::
          extentsFrom chunk nextRecord (p + 2 + word p chunk) recordEnd := by
  have hstable := stripExtents_stable chunk (rounds chunk nextRecord p recordEnd)
  conv_lhs => rw [extentsFrom, stripExtents]
  unfold extentsFrom
  unfold rounds at hstable ⊢
  dsimp only
  split_ifs with h1 h2 h3 h4 h5
  · rfl
  · rfl
  · exact hstable _ _ _ _ (by omega) (by omega)
  · exact hstable _ _ _ _ (by omega) (by omega)
  · exact hstable _ _ _ _ (by omega) (by omega)
  · exact congrArg (List.cons _) (hstable _ _ _ _ (by omega) (by omega))

/-! ### What the writer framed -/

/-- A strip as `colour_strip` builds it. -/
def Produced (s : List UInt8) : Prop := ∃ g blocks x y, s = colourStrip g blocks x y

/-- Where a strip stands and how long it is. -/
def stripExtent (s : List UInt8) : ℕ × ℕ × ℕ := ((stripX s).toNat, (stripY s).toNat, s.length)

theorem word_eq {off : ℕ} {l m : List UInt8} {w : UInt16} (h : l.drop off = u16Bytes w ++ m) :
    word off l = w.toNat := by
  rw [word, u16At_eq h]
  rfl

theorem u16At_add {l : List UInt8} (off k : ℕ) : u16At (off + k) l = u16At k (l.drop off) := by
  rw [u16At, u16At, List.drop_drop]

theorem copyAt_keeps {off : ℕ} {a b : UInt8} {w l : List UInt8} (hoff : 2 ≤ off)
    (h : ∃ r, l = a :: b :: r) : ∃ r, copyAt off w l = a :: b :: r := by
  obtain ⟨r, rfl⟩ := h
  obtain ⟨off, rfl⟩ : ∃ k, off = k + 2 := ⟨off - 2, by omega⟩
  refine ⟨r.take off ++ (w ++ (a :: b :: r).drop (off + 2 + w.length)), ?_⟩
  simp only [copyAt, List.take_succ_cons, List.cons_append]

/-- A strip opens with the codec's magic. -/
theorem colourStrip_magic (g : Geometry) (blocks : List ColourBlock) (x y : UInt16) :
    ∃ r, colourStrip g blocks x y = 0x01 :: 0x28 :: r := by
  unfold colourStrip
  refine copyAt_keeps (by omega) (copyAt_keeps (by omega) (copyAt_keeps (by omega)
    (copyAt_keeps (by omega) (copyAt_keeps (by omega) (copyAt_keeps (by omega)
      (copyAt_keeps le_rfl ?_))))))
  obtain ⟨n, hn⟩ : ∃ n, 16 + (roundEven (mainBits g blocks).finish.length + 2) +
      roundEven (rowBits g (blocks.take 8)).finish.length +
        roundEven (rowBits g (blocks.drop 8)).finish.length = n + 2 :=
    Nat.exists_eq_add_of_le' (by omega)
  rw [hn]
  exact ⟨_, rfl⟩

/-- What tells a strip from padding. -/
structure Readable (s : List UInt8) : Prop where
  long : 16 ≤ s.length
  magic : ∃ r, s = 0x01 :: 0x28 :: r

theorem Produced.readable {s : List UInt8} (h : Produced s) : Readable s := by
  obtain ⟨g, blocks, x, y, rfl⟩ := h
  refine ⟨?_, colourStrip_magic g blocks x y⟩
  rw [length_colourStrip_eq, stripLength]
  omega

theorem stripExtent_colourStrip (g : Geometry) (blocks : List ColourBlock) (x y : UInt16) :
    stripExtent (colourStrip g blocks x y) =
      (x.toNat, y.toNat, (colourStrip g blocks x y).length) := by
  obtain ⟨hx, hy, -⟩ := colourStrip_holds g blocks x y
  rw [stripExtent, stripX, stripY, u16At_of_holds hx, u16At_of_holds hy]
  rfl

/-! ### The walk over the strips -/

section Walk

variable {chunk : List UInt8} {next p : ℕ}

/-- A record that is exhausted is left. -/
theorem extentsFrom_exhausted {recordEnd : ℕ} (h : recordEnd < p + 2) :
    extentsFrom chunk next p recordEnd = extentsFrom chunk next 0 0 := by
  have hfresh : (0 : ℕ) < 0 + 2 := by omega
  rw [extentsFrom_eq, if_pos h, extentsFrom_eq chunk next 0 0, if_pos hfresh]

theorem u16At_append_right {s r : List UInt8} {k : ℕ} (hk : k + 2 ≤ s.length) :
    u16At k (s ++ r) = u16At k s := by
  obtain ⟨a, b, m, hab⟩ : ∃ a b m, s.drop k = a :: b :: m := by
    have hlen : 2 ≤ (s.drop k).length := by rw [List.length_drop]; omega
    match hd : s.drop k, hlen with
    | a :: b :: m, _ => exact ⟨a, b, m, rfl⟩
  rw [u16At, u16At, List.drop_append_of_le_length (by omega), hab]
  rfl

/-- One strip is found. -/
theorem extentsFrom_strip {s r : List UInt8} {recordEnd : ℕ} (hs : Readable s)
    (hlong : s.length ≤ 4062) (hdrop : chunk.drop p = stripWord s ++ r)
    (hend : p + 2 + s.length ≤ recordEnd) :
    extentsFrom chunk next p recordEnd =
      stripExtent s :: extentsFrom chunk next (p + 2 + s.length) recordEnd := by
  obtain ⟨hmin, m, hmagic⟩ := hs
  have hword : word p chunk = s.length := by
    rw [stripWord, List.append_assoc] at hdrop
    rw [word_eq hdrop, toNat_ofNat_u16 (by omega)]
  have hbody : chunk.drop (p + 2) = s ++ r := by
    have hlen : (u16Bytes (UInt16.ofNat s.length)).length = 2 := length_u16Bytes _
    rw [← List.drop_drop, hdrop, stripWord, List.append_assoc, List.drop_left' hlen]
  have hbyte : ∀ k, chunk.getD (p + 2 + k) 0 = (s ++ r).getD k 0 := by
    intro k
    rw [← hbody, List.getD_eq_getElem?_getD, List.getD_eq_getElem?_getD, List.getElem?_drop]
  have h0 : chunk.getD (p + 2) 0 = 0x01 := by
    have := hbyte 0
    rw [hmagic] at this
    exact this
  have h1 : chunk.getD (p + 3) 0 = 0x28 := by
    have := hbyte 1
    rw [hmagic] at this
    exact this
  have hfield : ∀ k, k + 2 ≤ s.length → u16At (p + 2 + k) chunk = u16At k s := by
    intro k hk
    rw [u16At_add, hbody, u16At_append_right hk]
  have hx : word (p + 4) chunk = (stripX s).toNat := by
    rw [word, stripX, ← hfield 2 (by omega)]
  have hy : word (p + 6) chunk = (stripY s).toNat := by
    rw [word, stripY, ← hfield 4 (by omega)]
  rw [extentsFrom_eq, if_neg (by omega), hword, if_neg (by omega), h0, h1, if_neg (by simp), hx, hy]
  rfl

/-- **The strips of a record are found**, and the padding behind them is not one. -/
theorem extentsFrom_payload : ∀ {group : List (List UInt8)} {pad : ℕ} {r : List UInt8} {p : ℕ},
    (∀ s ∈ group, Readable s) → (∀ s ∈ group, s.length ≤ 4062) →
    chunk.drop p = payload group ++ (List.replicate pad 0 ++ r) →
    extentsFrom chunk next p (p + (payload group).length + pad) =
      group.map stripExtent ++ extentsFrom chunk next 0 0
  | [], pad, r, p, _, _, hdrop => by
      rw [List.map_nil, List.nil_append]
      simp only [payload, List.flatMap_nil, List.nil_append, List.length_nil] at hdrop ⊢
      by_cases hpad : pad < 2
      · exact extentsFrom_exhausted (by omega)
      · have hword : word p chunk = 0 := by
          obtain ⟨k, rfl⟩ : ∃ k, pad = k + 2 := ⟨pad - 2, by omega⟩
          have hzero : chunk.drop p = u16Bytes 0 ++ (List.replicate k 0 ++ r) := by
            rw [hdrop]
            rfl
          rw [word_eq hzero]
          rfl
        rw [extentsFrom_eq, if_neg (by omega), hword, if_pos (by omega)]
        exact extentsFrom_exhausted (by omega)
  | s :: group, pad, r, p, hread, hshort, hdrop => by
      have hlen : (stripWord s).length = 2 + s.length := by
        rw [stripWord, List.length_append, length_u16Bytes]
      have hpayload : payload (s :: group) = stripWord s ++ payload group := List.flatMap_cons
      rw [hpayload, List.append_assoc] at hdrop
      have hrest : chunk.drop (p + 2 + s.length) =
          payload group ++ (List.replicate pad 0 ++ r) := by
        rw [Nat.add_assoc, ← List.drop_drop, hdrop, List.drop_left' hlen]
      rw [hpayload, List.length_append, hlen,
        extentsFrom_strip (hread s List.mem_cons_self) (hshort s List.mem_cons_self) hdrop
          (by omega), List.map_cons, List.cons_append]
      have hih := extentsFrom_payload
        (fun t ht => hread t (List.mem_cons_of_mem s ht))
        (fun t ht => hshort t (List.mem_cons_of_mem s ht)) hrest
      have hend : p + (2 + s.length + (payload group).length) + pad =
          p + 2 + s.length + (payload group).length + pad := by omega
      rw [hend, hih]

end Walk

/-! ### The walk over the records -/

section Records

variable {g : Geometry} {connector : UInt8} {chunk : List UInt8} {next : ℕ}

/-- The fields of a record that the readers look at. -/
structure Framed (chunk : List UInt8) (next : ℕ) (group : List (List UInt8)) (r : List UInt8) :
    Prop where
  fits : next + 16 + (payload group).length + padding group ≤ chunk.length
  stride : word (next + 2) chunk + 4 = 16 + (payload group).length + padding group
  aux : word (next + 10) chunk = padding group
  body : chunk.drop (next + 16) = payload group ++ (List.replicate (padding group) 0 ++ r)
  rest : chunk.drop (next + (16 + (payload group).length + padding group)) = r

theorem drop_add {l a b : List UInt8} {n k : ℕ} (h : l.drop n = a ++ b) (hlen : a.length = k) :
    l.drop (n + k) = b := by
  rw [← List.drop_drop, h, List.drop_left' hlen]

theorem framed_of_drop {group : List (List UInt8)} {r : List UInt8} (h : Group g group)
    (hdrop : chunk.drop next = recordOf g connector group ++ r) :
    Framed chunk next group r := by
  have hcap := h.cap
  have hpad : padding group ≤ 15 := by unfold padding; omega
  have hrec := length_recordOf g connector group
  have hlen : next + 16 + (payload group).length + padding group ≤ chunk.length := by
    have := congrArg List.length hdrop
    rw [List.length_drop, List.length_append] at this
    omega
  have hrest := drop_add hdrop hrec
  rw [recordOf_eq] at hdrop
  simp only [List.append_assoc] at hdrop
  have h2 := drop_add hdrop rfl
  have h4 := drop_add h2 (length_u16Bytes _)
  have h8 := drop_add h4 (length_leBytes 4 _)
  have h10 := drop_add h8 (length_u16Bytes _)
  have h12 := drop_add h10 (length_u16Bytes _)
  have h16 := drop_add h12 (length_leBytes 4 _)
  have hsize : word (next + 2) chunk =
      (UInt16.ofNat (12 + ((payload group).length + padding group))).toNat := word_eq h2
  have haux : word (next + 10) chunk = (UInt16.ofNat (padding group)).toNat := word_eq h10
  refine ⟨hlen, ?_, ?_, h16, hrest⟩
  · rw [hsize, toNat_ofNat_u16 (by omega)]
    omega
  · rw [haux, toNat_ofNat_u16 (by omega)]

/-- **The strips of consecutive records are found**, in order. -/
theorem extentsFrom_records : ∀ {groups : List (List (List UInt8))} {next : ℕ},
    (∀ group ∈ groups, Group g group) → (∀ group ∈ groups, ∀ s ∈ group, Readable s) →
    chunk.drop next = (groups.map (recordOf g connector)).flatten →
    extentsFrom chunk next 0 0 = groups.flatten.map stripExtent
  | [], next, _, _, hdrop => by
      have hend : chunk.length ≤ next := by
        have := congrArg List.length hdrop
        rw [List.length_drop] at this
        simp only [List.map_nil, List.flatten_nil, List.length_nil] at this
        omega
      rw [extentsFrom_eq, if_pos (by omega), if_pos (by omega)]
      rfl
  | group :: groups, next, hgroups, hread, hdrop => by
      rw [List.map_cons, List.flatten_cons] at hdrop
      have hgroup := hgroups group List.mem_cons_self
      have hframed := framed_of_drop hgroup hdrop
      have hfits := hframed.fits
      have hih := extentsFrom_records (fun gr hgr => hgroups gr (List.mem_cons_of_mem group hgr))
        (fun gr hgr => hread gr (List.mem_cons_of_mem group hgr)) hframed.rest
      have hend : next + (16 + (payload group).length + padding group) =
          next + 16 + (payload group).length + padding group := by omega
      have hfresh : (0 : ℕ) < 0 + 2 := by omega
      rw [extentsFrom_eq, if_pos hfresh, hframed.stride, if_neg (by omega), if_neg (by omega), hend,
        extentsFrom_payload (hread group List.mem_cons_self) hgroup.short hframed.body, ← hend, hih,
        List.flatten_cons, List.map_append]

end Records

/-! ### The counts -/

section Counts

variable {g : Geometry} {connector : UInt8} {chunk : List UInt8}

/-- The longest of a list of byte strings, and of those seen before. -/
def longestFrom (longest : ℕ) (l : List (List UInt8)) : ℕ :=
  l.foldl (fun m s => max m s.length) longest

/-- **The strips of a record are measured.** -/
theorem longestStrip_payload {body : List UInt8} : ∀ {group : List (List UInt8)} {r : List UInt8}
    {fuel off : ℕ} (longest : ℕ),
    (∀ s ∈ group, Readable s) → (∀ s ∈ group, s.length ≤ 4062) →
    body.drop off = payload group ++ r → (payload group).length < fuel →
    longestStrip body (off + (payload group).length) fuel off longest = longestFrom longest group
  | [], r, fuel, off, longest, _, _, _, hfuel => by
      obtain ⟨fuel, rfl⟩ := Nat.exists_eq_add_of_lt hfuel
      simp only [payload, List.flatMap_nil, List.length_nil, Nat.zero_add, longestStrip]
      rw [if_pos (by omega)]
      rfl
  | s :: group, r, fuel, off, longest, hread, hshort, hdrop, hfuel => by
      obtain ⟨hmin, -⟩ := hread s List.mem_cons_self
      have hmax := hshort s List.mem_cons_self
      have hlen : (stripWord s).length = 2 + s.length := by
        rw [stripWord, List.length_append, length_u16Bytes]
      have hpayload : payload (s :: group) = stripWord s ++ payload group := List.flatMap_cons
      rw [hpayload, List.append_assoc] at hdrop
      rw [hpayload, List.length_append, hlen] at hfuel ⊢
      have hrest := drop_add hdrop hlen
      have hword : word off body = s.length := by
        rw [stripWord, List.append_assoc] at hdrop
        rw [word_eq hdrop, toNat_ofNat_u16 (by omega)]
      obtain ⟨fuel, rfl⟩ : ∃ k, fuel = k + 1 := ⟨fuel - 1, by omega⟩
      have hih := longestStrip_payload (max longest s.length)
        (fun t ht => hread t (List.mem_cons_of_mem s ht))
        (fun t ht => hshort t (List.mem_cons_of_mem s ht)) hrest
        (show (payload group).length < fuel by omega)
      have hend : off + (2 + s.length + (payload group).length) =
          off + (2 + s.length) + (payload group).length := by omega
      have hnext : off + 2 + s.length = off + (2 + s.length) := by omega
      rw [longestStrip, if_neg (by omega)]
      dsimp only
      rw [hword, if_neg (by omega), hend, hnext, hih]
      rfl

/-- One more record. -/
def Stats.see (g : Geometry) (connector : UInt8) (seen : Stats) (group : List (List UInt8)) :
    Stats :=
  (seen.1 + 1, max seen.2.1 (recordOf g connector group).length, longestFrom seen.2.2 group)

/-- **The records of a chunk are counted.** -/
theorem chunkStats_records : ∀ {groups : List (List (List UInt8))} {fuel off : ℕ} (seen : Stats),
    (∀ group ∈ groups, Group g group) → (∀ group ∈ groups, ∀ s ∈ group, Readable s) →
    chunk.drop off = (groups.map (recordOf g connector)).flatten → chunk.length < off + fuel →
    chunkStats chunk fuel off seen = groups.foldl (Stats.see g connector) seen
  | [], 0, off, seen, _, _, _, _ => rfl
  | [], fuel + 1, off, seen, _, _, hdrop, _ => by
      have hend : chunk.length ≤ off := by
        have := congrArg List.length hdrop
        rw [List.length_drop] at this
        simp only [List.map_nil, List.flatten_nil, List.length_nil] at this
        omega
      rw [chunkStats]
      dsimp only
      rw [if_pos (by omega)]
      rfl
  | group :: groups, fuel, off, seen, hgroups, hread, hdrop, hfuel => by
      rw [List.map_cons, List.flatten_cons] at hdrop
      have hgroup := hgroups group List.mem_cons_self
      have hframed := framed_of_drop hgroup hdrop
      have hfits := hframed.fits
      obtain ⟨fuel, rfl⟩ : ∃ k, fuel = k + 1 := ⟨fuel - 1, by omega⟩
      have hih := chunkStats_records (seen.see g connector group)
        (fun gr hgr => hgroups gr (List.mem_cons_of_mem group hgr))
        (fun gr hgr => hread gr (List.mem_cons_of_mem group hgr)) hframed.rest
        (show chunk.length < off + (16 + (payload group).length + padding group) + fuel by omega)
      have hbody : (chunk.drop (off + 16)).take
          (16 + (payload group).length + padding group - 16) =
          payload group ++ List.replicate (padding group) 0 := by
        rw [hframed.body, ← List.append_assoc]
        refine List.take_left' ?_
        rw [List.length_append, List.length_replicate]
        omega
      have hlen : (payload group ++ List.replicate (padding group) (0 : UInt8)).length -
          padding group = 0 + (payload group).length := by
        rw [List.length_append, List.length_replicate]
        omega
      rw [chunkStats]
      dsimp only
      rw [if_neg (by omega), hframed.stride, if_neg (by omega), hframed.aux, hbody, hlen,
        longestStrip_payload _ (hread group List.mem_cons_self) hgroup.short List.drop_zero
          (by rw [List.length_append]; omega), ← length_recordOf g connector]
      rw [← length_recordOf g connector] at hih
      exact hih

/-- The chunks of a frame are counted one after another. -/
theorem foldl_chunkStats : ∀ {cut : List (List (List (List UInt8)))} (seen : Stats),
    (∀ gs ∈ cut, (∀ group ∈ gs, Group g group) ∧ ∀ group ∈ gs, ∀ s ∈ group, Readable s) →
    (cut.map fun gs => (gs.map (recordOf g connector)).flatten).foldl
      (fun seen chunk => chunkStats chunk (chunk.length + 1) 0 seen) seen =
        cut.flatten.foldl (Stats.see g connector) seen
  | [], _, _ => rfl
  | gs :: cut, seen, h => by
      obtain ⟨hgs, hread⟩ := h gs List.mem_cons_self
      rw [List.map_cons, List.foldl_cons, List.flatten_cons, List.foldl_append,
        chunkStats_records seen hgs hread List.drop_zero (by omega),
        foldl_chunkStats _ fun gs' h' => h gs' (List.mem_cons_of_mem gs h')]

/-- The counts of all the records of a frame. -/
theorem foldl_see : ∀ (groups : List (List (List UInt8))) (seen : Stats),
    groups.foldl (Stats.see g connector) seen =
      (seen.1 + groups.length, longestFrom seen.2.1 (groups.map (recordOf g connector)),
        longestFrom seen.2.2 groups.flatten)
  | [], _ => rfl
  | group :: groups, seen => by
      rw [List.foldl_cons, foldl_see groups, List.flatten_cons, List.map_cons, List.length_cons]
      have hlong : longestFrom seen.2.2 (group ++ groups.flatten) =
          longestFrom (longestFrom seen.2.2 group) groups.flatten := List.foldl_append
      have hcount : seen.1 + 1 + groups.length = seen.1 + (groups.length + 1) := by omega
      rw [hlong, ← hcount]
      rfl

end Counts

/-! ### Both readers -/

section Agreement

variable {g : Geometry} {strips : List (List UInt8)} {connector : UInt8} {o : Option Bool}
  {chunks : List (List UInt8)}

/-- The chunks of a frame, cut between readable runs. -/
theorem exists_cut (hstrips : ∀ s ∈ strips, Produced s)
    (hframe : frameRecordsWithBoundary g strips connector o = .ok chunks) :
    ∃ cut : List (List (List (List UInt8))),
      emittedRecords g strips connector o = .ok (cut.flatten.map (recordOf g connector)) ∧
      chunks = cut.map (fun gs => (gs.map (recordOf g connector)).flatten) ∧
      cut.flatten.flatten = emitted g strips o ∧
      ∀ gs ∈ cut, (∀ group ∈ gs, Group g group) ∧ ∀ group ∈ gs, ∀ s ∈ group, Readable s := by
  rcases emittedRecords_spec g strips connector o with
    ⟨-, herr⟩ | ⟨cut, -, hrecords, hok, hcut, hall⟩
  · rw [herr] at hframe
    cases hframe
  rw [hok, Except.ok.injEq] at hframe
  refine ⟨cut, hrecords, hframe.symm, hcut, fun gs hgs => ⟨fun group hgr => ?_, ?_⟩⟩
  · exact hall group (List.mem_flatten.2 ⟨gs, hgs, hgr⟩)
  · intro group hgr s hs
    have hmem : s ∈ emitted g strips o :=
      hcut ▸ List.mem_flatten.2 ⟨group, List.mem_flatten.2 ⟨gs, hgs, hgr⟩, hs⟩
    exact (hstrips s ((ordered_perm g strips o).mem_iff.1 hmem)).readable

/-- Every strip is found where it stands, in the order they were sent. -/
theorem framedStripExtents_emitted (hstrips : ∀ s ∈ strips, Produced s)
    (hframe : frameRecordsWithBoundary g strips connector o = .ok chunks) :
    framedStripExtents chunks = (emitted g strips o).map stripExtent := by
  obtain ⟨cut, -, rfl, hcut, hall⟩ := exists_cut hstrips hframe
  rw [framedStripExtents, List.flatMap_map, ← hcut, List.flatten_flatten, List.map_flatten,
    List.map_map, List.flatMap_def]
  congr 1
  refine List.map_congr_left fun gs hgs => ?_
  exact extentsFrom_records (hall gs hgs).1 (hall gs hgs).2 List.drop_zero

end Agreement

/-- **Both readers find what the writer framed.**  `framedStripExtents` finds every strip where it
stands and with its length, in the order they were sent, and nothing else; `recordStats` counts the
records and finds the length of the longest record and of the longest strip. -/
theorem readers_agree (g : Geometry) (strips : List (List UInt8)) (connector : UInt8)
    (navarroOrdinary : Option Bool) (chunks : List (List UInt8))
    (hstrips : ∀ s ∈ strips, Produced s)
    (hframe : frameRecordsWithBoundary g strips connector navarroOrdinary = .ok chunks) :
    framedStripExtents chunks = (emitted g strips navarroOrdinary).map stripExtent ∧
      ∃ records, emittedRecords g strips connector navarroOrdinary = .ok records ∧
        chunks.flatten = records.flatten ∧
        recordStats chunks = (records.length, longestFrom 0 records,
          longestFrom 0 (emitted g strips navarroOrdinary)) ∧
        ∀ blocks x y, stripExtent (colourStrip g blocks x y) =
          (x.toNat, y.toNat, (colourStrip g blocks x y).length) := by
  obtain ⟨cut, hrecords, rfl, hcut, hall⟩ := exists_cut hstrips hframe
  refine ⟨framedStripExtents_emitted hstrips hframe, _, hrecords, ?_, ?_,
    stripExtent_colourStrip g⟩
  · simp only [List.map_flatten, List.flatten_flatten, List.map_map]
    rfl
  · rw [recordStats, foldl_chunkStats _ hall, foldl_see, hcut, List.length_map, Nat.zero_add]

/-- A strip of nothing but zeros. -/
def flatStrip (x y : UInt16) : List UInt8 :=
  colourStrip (Geometry.new 8 false true 0 8 2) (List.replicate 16 ⟨0, 0, 0, 0, 0, 0⟩) x y

theorem produced_flatStrip (x y : UInt16) : Produced (flatStrip x y) := ⟨_, _, x, y, rfl⟩

/-- Two bands on a Ridge dock. -/
theorem readers_agree_bands :
    ∃ chunks, frameRecordsWithBoundary (Geometry.new 8 false true 0 8 2)
        [flatStrip 64 0, flatStrip 0 16] 1 none = .ok chunks ∧
      framedStripExtents chunks = (emitted (Geometry.new 8 false true 0 8 2)
        [flatStrip 64 0, flatStrip 0 16] none).map stripExtent := by
  have hshort : ¬∃ s ∈ [flatStrip 64 0, flatStrip 0 16], 4062 < s.length := by decide +kernel
  rcases frameRecordsWithBoundary_spec (Geometry.new 8 false true 0 8 2)
    [flatStrip 64 0, flatStrip 0 16] 1 none with ⟨hlong, -⟩ | ⟨cut, -, hchunks, -, -⟩
  · exact absurd hlong hshort
  have hproduced : ∀ s ∈ [flatStrip 64 0, flatStrip 0 16], Produced s := by
    simp only [List.forall_mem_cons, List.not_mem_nil, false_imp_iff, implies_true, and_true]
    exact ⟨produced_flatStrip 64 0, produced_flatStrip 0 16⟩
  exact ⟨_, hchunks, (readers_agree _ _ 1 none _ hproduced hchunks).1⟩

end Vino.Haar.Extents
