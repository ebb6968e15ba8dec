import Mathlib
import Vino.Haar.Records
import Vino.Lib.Reader

/-!
# Framing Loses, Duplicates and Corrupts Nothing

What a dock walking the framed stream finds.  Whatever order the strips are sent in, it is a
permutation of the list (`sendOrder_perm`); a record carries a nonempty run of them in that
order, byte for byte, behind a header that states its length and its padding
(`reads_finishRecord`); and the chunks are cut between records.

The measured orders of a full surface are checked run by run: sorted by row they are the
rows in order, some of them cut in two or three.
-/

namespace Vino.Haar.Framing

open Vino.Haar.Transform Vino.Haar.Strip Vino.Haar.Records Vino.Lib.Bits Vino.Lib.Buffer
  Vino.Lib.Reader

/-! ### The order is a permutation -/

theorem sinkDown_perm (le : ℕ → ℕ → Bool) (x : ℕ) (p : List ℕ) :
    (sinkDown le x p).Perm (x :: p) := by
  induction p with
  | nil => exact List.Perm.refl _
  | cons l p ih =>
      unfold sinkDown
      split_ifs
      · exact List.Perm.refl _
      · exact (ih.cons l).trans (List.Perm.swap x l p)

theorem insertionSort_perm (le : ℕ → ℕ → Bool) (idx : List ℕ) :
    (Records.insertionSort le idx).Perm idx := by
  have hfold : ∀ (l p : List ℕ), (l.foldl (fun p x => sinkDown le x p) p).Perm (l ++ p) := by
    intro l
    induction l with
    | nil => exact fun p => List.Perm.refl p
    | cons x l ih =>
        intro p
        refine (ih (sinkDown le x p)).trans ?_
        exact (List.Perm.append_left l (sinkDown_perm le x p)).trans List.perm_middle
  refine (List.reverse_perm _).trans ?_
  simpa using hfold idx []

/-- The runs of the prologue, sorted: whole rows but for row 100, cut at column 4. -/
def prologueSorted : List (ℕ × ℕ × ℕ) :=
  (List.range 100).map (fun y => (y, 0, 20)) ++ [(100, 0, 4), (100, 4, 20)] ++
    (List.range' 101 79).map fun y => (y, 0, 20)

/-- The runs of the ordinary order, sorted: rows 99, 101 and 102 are cut. -/
def ordinarySorted : List (ℕ × ℕ × ℕ) :=
  (List.range 99).map (fun y => (y, 0, 20)) ++
    [(99, 0, 8), (99, 8, 20), (100, 0, 20), (101, 0, 4), (101, 4, 20), (102, 0, 8),
      (102, 8, 20)] ++
    (List.range' 103 77).map fun y => (y, 0, 20)

theorem prologue_perm :
    (runOrder 20 (runs prologueColumns navarroPrologueRows)).Perm (List.range 3600) := by
  have hruns : (runs prologueColumns navarroPrologueRows).Perm prologueSorted := by
    decide +kernel
  have hsorted : runOrder 20 prologueSorted = List.range 3600 := by decide +kernel
  exact hsorted ▸ hruns.flatMap_right _

theorem ordinary_perm :
    (runOrder 20 (runs ordinaryColumns navarroOrdinaryRows)).Perm (List.range 3600) := by
  have hruns : (runs ordinaryColumns navarroOrdinaryRows).Perm ordinarySorted := by
    decide +kernel
  have hsorted : runOrder 20 ordinarySorted = List.range 3600 := by decide +kernel
  exact hsorted ▸ hruns.flatMap_right _

theorem and_one_eq (v : UInt16) : v &&& 1 = 0 ∨ v &&& 1 = 1 := by
  have h : (v &&& 1).toNat = v.toNat % 2 := by
    rw [UInt16.toNat_and]
    exact Nat.and_one_is_mod _
  rcases Nat.mod_two_eq_zero_or_one v.toNat with h0 | h1
  · exact .inl (UInt16.toNat_inj.1 (h.trans h0))
  · exact .inr (UInt16.toNat_inj.1 (h.trans h1))

theorem bandParity_cases (g : Geometry) (s : List UInt8) :
    bandParity g s = 0 ∨ bandParity g s = 1 := and_one_eq _

theorem interlaced_perm (g : Geometry) (strips : List (List UInt8)) (l : List ℕ) :
    ((l.filter fun n => bandParity g (stripAt strips n) == 0) ++
      l.filter fun n => bandParity g (stripAt strips n) == 1).Perm l := by
  have hodd : ∀ n, (bandParity g (stripAt strips n) == 1) =
      !(bandParity g (stripAt strips n) == 0) := by
    intro n
    rcases bandParity_cases g (stripAt strips n) with h | h <;> rw [h] <;> rfl
  simp only [hodd]
  exact List.filter_append_perm _ l

/-- A surface in the 128×8 layout is not in the 64×16 one. -/
theorem navarroLayout_spec {g : Geometry} {strips : List (List UInt8)}
    (h : navarroLayout g strips = true) : ellaLayout g = false ∧ strips.length = 3600 := by
  simp only [navarroLayout, Bool.and_eq_true, beq_iff_eq] at h
  obtain ⟨⟨-, hw⟩, hlen⟩ := h
  refine ⟨?_, hlen⟩
  simp only [ellaLayout, hw]
  exact Bool.and_false _

/-- **Every order is a permutation of the strips.** -/
theorem sendOrder_perm (g : Geometry) (strips : List (List UInt8)) (o : Option Bool) :
    (sendOrder g strips o).Perm (List.range strips.length) := by
  unfold sendOrder
  dsimp only
  by_cases h1 : (navarroLayout g strips && o == some false) = true
  · obtain ⟨hn, hlen⟩ := navarroLayout_spec (Bool.and_eq_true_iff.1 h1).1
    rw [if_pos h1, hn, hlen]
    exact prologue_perm
  rw [if_neg h1]
  by_cases h2 : (navarroLayout g strips && o == some true) = true
  · obtain ⟨hn, hlen⟩ := navarroLayout_spec (Bool.and_eq_true_iff.1 h2).1
    rw [if_pos h2, hn, hlen]
    exact ordinary_perm
  rw [if_neg h2]
  split_ifs
  · exact insertionSort_perm _ _
  · exact interlaced_perm g strips _
  · exact List.Perm.refl _

/-- The strips as they are sent are the strips, permuted. -/
theorem ordered_perm (g : Geometry) (strips : List (List UInt8)) (o : Option Bool) :
    ((sendOrder g strips o).map (stripAt strips)).Perm strips := by
  have hall : (List.range strips.length).map (stripAt strips) = strips := by
    refine List.ext_getElem (by simp) fun i h1 h2 => ?_
    simp [stripAt, List.getD_eq_getElem?_getD, List.getElem?_eq_getElem h2]
  exact ((sendOrder_perm g strips o).map _).trans (List.Perm.of_eq hall)

/-! ### Filling a record -/

/-- A strip behind its length. -/
def stripWord (s : List UInt8) : List UInt8 := u16Bytes (UInt16.ofNat s.length) ++ s

/-- What `fill` has done when it returns: taken a run off the front of the strips, appended it
to the record, and stayed below the cap and inside the band. -/
structure Filled (g : Geometry) (y0 : UInt16) (record : List UInt8) (rest : List (List UInt8))
    (record' : List UInt8) (rest' taken : List (List UInt8)) : Prop where
  split : rest = taken ++ rest'
  bytes : record' = record ++ taken.flatMap stripWord
  cap : taken ≠ [] → record'.length ≤ 4080
  short : ∀ s ∈ taken, s.length ≤ 4062
  band : g.bandParityBit = true → ∀ s ∈ taken, stripY s = y0

theorem filled_nil (g : Geometry) (y0 : UInt16) (record : List UInt8)
    (rest : List (List UInt8)) : Filled g y0 record rest record rest [] where
  split := rfl
  bytes := by simp
  cap := fun h => absurd rfl h
  short := by simp
  band := by simp

theorem Filled.cons {g : Geometry} {y0 : UInt16} {record s record' : List UInt8}
    {rest rest' taken : List (List UInt8)} (hcap : record.length + 2 + s.length ≤ 4080)
    (hlen : 16 ≤ record.length) (hband : g.bandParityBit = true → stripY s = y0)
    (h : Filled g y0 (record ++ u16Bytes (UInt16.ofNat s.length) ++ s) rest record' rest' taken) :
    Filled g y0 record (s :: rest) record' rest' (s :: taken) where
  split := by rw [h.split, List.cons_append]
  bytes := by rw [h.bytes, List.flatMap_cons, stripWord]; simp only [List.append_assoc]
  cap := fun _ => by
    by_cases ht : taken = []
    · rw [h.bytes, ht]
      simp only [List.flatMap_nil, List.append_nil, List.length_append, length_u16Bytes]
      omega
    · exact h.cap ht
  short := fun t ht => by
    rcases List.mem_cons.1 ht with rfl | ht
    · omega
    · exact h.short t ht
  band := fun hp t ht => by
    rcases List.mem_cons.1 ht with rfl | ht
    · exact hband hp
    · exact h.band hp t ht

theorem fill_cons (g : Geometry) (o : Option Bool) (y0 : UInt16) (i n : ℕ)
    (record s : List UInt8) (rest : List (List UInt8)) :
    fill g o y0 i n record (s :: rest) =
      if (g.bandParityBit && stripY s != y0) = true then .ok (record, i, s :: rest)
      else if (g.interlacedBands && n > 0 && producerBoundary o i) = true then
        .ok (record, i, s :: rest)
      else if (record.length + 2 + s.length + 15) / 16 * 16 > strideCap then
        if n > 0 then .ok (record, i, s :: rest) else .error .EOVERFLOW
      else
        fill g o y0 (i + 1) (n + 1) (record ++ u16Bytes (UInt16.ofNat s.length) ++ s) rest :=
  rfl

/-- **What `fill` returns** from a record that already holds a strip: never an error. -/
theorem fill_spec (g : Geometry) (o : Option Bool) (y0 : UInt16) (rest : List (List UInt8)) :
    ∀ (i n : ℕ) (record : List UInt8), 0 < n → 16 ≤ record.length →
      ∃ record' rest' taken, fill g o y0 i n record rest = .ok (record', i + taken.length, rest') ∧
        Filled g y0 record rest record' rest' taken := by
  induction rest with
  | nil =>
      intro i n record _ _
      exact ⟨record, [], [], rfl, filled_nil g y0 record []⟩
  | cons s rest ih =>
      intro i n record hn hlen
      have hstop := filled_nil g y0 record (s :: rest)
      rw [fill_cons]
      by_cases hband : (g.bandParityBit && stripY s != y0) = true
      · rw [if_pos hband]
        exact ⟨record, s :: rest, [], rfl, hstop⟩
      rw [if_neg hband]
      by_cases hflush : (g.interlacedBands && n > 0 && producerBoundary o i) = true
      · rw [if_pos hflush]
        exact ⟨record, s :: rest, [], rfl, hstop⟩
      rw [if_neg hflush]
      by_cases hcap : (record.length + 2 + s.length + 15) / 16 * 16 > strideCap
      · rw [if_pos hcap, if_pos hn]
        exact ⟨record, s :: rest, [], rfl, hstop⟩
      rw [if_neg hcap]
      obtain ⟨record', rest', taken, hfill, hf⟩ := ih (i + 1) (n + 1)
        (record ++ u16Bytes (UInt16.ofNat s.length) ++ s) (by omega)
        (by simp only [List.length_append]; omega)
      have hbound : record.length + 2 + s.length ≤ 4080 := by
        unfold strideCap at hcap
        omega
      have hy : g.bandParityBit = true → stripY s = y0 := by
        intro hp
        simpa [hp] using hband
      refine ⟨record', rest', s :: taken, ?_, hf.cons hbound hlen hy⟩
      rw [hfill, List.length_cons, Nat.add_assoc, Nat.add_comm 1]

/-- The first strip of a record is refused exactly when no record can carry it. -/
theorem fill_first (g : Geometry) (o : Option Bool) (i : ℕ) (s : List UInt8)
    (rest : List (List UInt8)) :
    (4062 < s.length ∧
      fill g o (stripY s) i 0 (List.replicate 16 0) (s :: rest) = .error .EOVERFLOW) ∨
    ∃ record' rest' taken, taken ≠ [] ∧
      fill g o (stripY s) i 0 (List.replicate 16 0) (s :: rest) =
        .ok (record', i + taken.length, rest') ∧
      Filled g (stripY s) (List.replicate 16 0) (s :: rest) record' rest' taken := by
  have hband : ¬(g.bandParityBit && stripY s != stripY s) = true := by simp
  have hflush : ¬(g.interlacedBands && decide (0 > 0) && producerBoundary o i) = true := by simp
  have hzeros : (List.replicate 16 (0 : UInt8)).length = 16 := List.length_replicate
  rw [fill_cons, if_neg hband, if_neg hflush]
  by_cases hcap : ((List.replicate 16 (0 : UInt8)).length + 2 + s.length + 15) / 16 * 16 > strideCap
  · rw [if_pos hcap, if_neg (lt_irrefl 0)]
    unfold strideCap at hcap
    exact .inl ⟨by omega, rfl⟩
  · rw [if_neg hcap]
    obtain ⟨record', rest', taken, hfill, hf⟩ := fill_spec g o (stripY s) rest (i + 1) 1
      (List.replicate 16 0 ++ u16Bytes (UInt16.ofNat s.length) ++ s) Nat.one_pos
      (by simp only [List.length_append, hzeros]; omega)
    unfold strideCap at hcap
    refine .inr ⟨record', rest', s :: taken, List.cons_ne_nil _ _, ?_,
      hf.cons (by omega) (by omega) fun _ => rfl⟩
    rw [hfill, List.length_cons, Nat.add_assoc, Nat.add_comm 1]

/-! ### Walking the stream -/

/-- A record as a dock reads it. -/
structure Record where
  stride : ℕ
  sub : UInt16
  aux : UInt16
  body : List UInt8
  deriving DecidableEq, Repr

def readU16 : StreamReader UInt8 UInt16 := do
  let l ← take 2
  ofOption (u16At 0 l)

/-- A record ends `size + 4` bytes behind its start. -/
def readRecord : StreamReader UInt8 Record := do
  let _ ← take 2
  let size ← readU16
  let _ ← take 4
  let sub ← readU16
  let aux ← readU16
  let _ ← take 4
  let body ← take (size.toNat - 12)
  return { stride := size.toNat + 4, sub, aux, body }

/-- A strip behind its length. -/
def readStrip : StreamReader UInt8 (List UInt8) := do
  let len ← readU16
  take len.toNat

/-- The records of a stream. -/
def walkRecords (l : List UInt8) : Option (List Record) := readAll readRecord l.length l

/-- The strips of a record: its body less the `aux` trailing bytes. -/
def Record.strips (r : Record) : Option (List (List UInt8)) :=
  let payload := r.body.take (r.body.length - r.aux.toNat)
  readAll readStrip payload.length payload

theorem toNat_ofNat_u16 {n : ℕ} (h : n < 65536) : (UInt16.ofNat n).toNat = n :=
  UInt16.toNat_ofNat_of_lt' h

theorem reads_take {σ : Type} {l : List σ} {n : ℕ} (h : l.length = n) : Reads (take n) l l :=
  h ▸ Reads.take l

theorem reads_u16 (w : UInt16) : Reads readU16 (u16Bytes w) w := by
  have hat : u16At 0 (u16Bytes w) = some w := u16At_eq (m := []) (by simp)
  rw [← List.append_nil (u16Bytes w)]
  exact (reads_take (length_u16Bytes w)).bind (Reads.ofOption hat)

theorem stripWord_ne_nil (s : List UInt8) : stripWord s ≠ [] := by
  intro h
  have := congrArg List.length h
  rw [stripWord, List.length_append, length_u16Bytes] at this
  simp at this

theorem reads_strip {s : List UInt8} (h : s.length < 65536) :
    Reads readStrip (stripWord s) s := by
  refine (reads_u16 _).bind (reads_take ?_)
  rw [toNat_ofNat_u16 h]

/-- A front part of known length. -/
theorem exists_split {σ : Type} {l : List σ} {m n : ℕ} (h : l.length = m + n) :
    ∃ a b, l = a ++ b ∧ a.length = m ∧ b.length = n :=
  ⟨l.take m, l.drop m, (List.take_append_drop m l).symm, by rw [List.length_take]; omega,
    by rw [List.length_drop]; omega⟩

/-- **The header stands in front of the body.** -/
theorem recordHeader_eq {a body : List UInt8} (ha : a.length = 16) (kind : UInt32)
    (sub aux : UInt16) (seq : UInt32) :
    recordHeader (a ++ body) kind sub aux seq =
      [0, 0] ++ (u16Bytes (UInt16.ofNat (12 + body.length)) ++ (leBytes 4 kind.toNat ++
        (u16Bytes sub ++ (u16Bytes aux ++ (leBytes 4 seq.toNat ++ body))))) := by
  have hsize : (a ++ body).length - 4 = 12 + body.length := by
    rw [List.length_append]
    omega
  obtain ⟨p1, a1, rfl, h1, ha1⟩ := exists_split (show a.length = 2 + 14 by omega)
  obtain ⟨p2, a2, rfl, h2, ha2⟩ := exists_split (show a1.length = 2 + 12 by omega)
  obtain ⟨p3, a3, rfl, h3, ha3⟩ := exists_split (show a2.length = 4 + 8 by omega)
  obtain ⟨p4, a4, rfl, h4, ha4⟩ := exists_split (show a3.length = 2 + 6 by omega)
  obtain ⟨p5, p6, rfl, h5, h6⟩ := exists_split (show a4.length = 2 + 4 by omega)
  unfold recordHeader
  rw [hsize]
  dsimp only
  simp only [List.append_assoc]
  have h1' : p1.length = ([0, 0] : List UInt8).length := h1
  rw [← List.nil_append (p1 ++ _), copyAt_append ?_ h1',
    copyAt_append ?_ (h2.trans (length_u16Bytes _).symm),
    copyAt_append ?_ (h3.trans (length_leBytes 4 _).symm),
    copyAt_append ?_ (h4.trans (length_u16Bytes _).symm),
    copyAt_append ?_ (h5.trans (length_u16Bytes _).symm),
    copyAt_append ?_ (h6.trans (length_leBytes 4 _).symm)]
  · simp only [List.append_assoc, List.nil_append]
  all_goals simp

/-- The record a run of strips is framed into. -/
def recordOf (g : Geometry) (connector : UInt8) (group : List (List UInt8)) : List UInt8 :=
  finishRecord (imageSub g connector (stripY (group.headD [])))
    (List.replicate 16 0 ++ group.flatMap stripWord)

/-- The bytes a run of strips takes in a record. -/
def payload (group : List (List UInt8)) : List UInt8 := group.flatMap stripWord

/-- The zeros that complete a record. -/
def padding (group : List (List UInt8)) : ℕ := (16 - (16 + (payload group).length) % 16) % 16

/-- The record a dock reads back from a run of strips. -/
def viewOf (g : Geometry) (connector : UInt8) (group : List (List UInt8)) : Record where
  stride := 16 + (payload group).length + padding group
  sub := imageSub g connector (stripY (group.headD []))
  aux := UInt16.ofNat (padding group)
  body := payload group ++ List.replicate (padding group) 0

/-- A run of strips that fits a record. -/
structure Group (g : Geometry) (group : List (List UInt8)) : Prop where
  ne_nil : group ≠ []
  cap : 16 + (payload group).length ≤ 4080
  short : ∀ s ∈ group, s.length ≤ 4062
  band : g.bandParityBit = true → ∀ s ∈ group, stripY s = stripY (group.headD [])

/-- **The bytes of a record.** -/
theorem recordOf_eq (g : Geometry) (connector : UInt8) (group : List (List UInt8)) :
    recordOf g connector group =
      [0, 0] ++ (u16Bytes (UInt16.ofNat (12 + ((payload group).length + padding group))) ++
        (leBytes 4 4 ++ (u16Bytes (imageSub g connector (stripY (group.headD []))) ++
          (u16Bytes (UInt16.ofNat (padding group)) ++ (leBytes 4 0 ++
            (payload group ++ List.replicate (padding group) 0)))))) := by
  have hlen : (List.replicate 16 (0 : UInt8) ++ payload group).length =
      16 + (payload group).length := by rw [List.length_append, List.length_replicate]
  have hbody : (payload group ++ List.replicate (padding group) (0 : UInt8)).length =
      (payload group).length + padding group := by simp
  have hrec : recordOf g connector group = recordHeader (List.replicate 16 0 ++
      (payload group ++ List.replicate (padding group) 0)) 4
      (imageSub g connector (stripY (group.headD []))) (UInt16.ofNat (padding group)) 0 := by
    unfold recordOf finishRecord padding
    rw [← payload, hlen]
    dsimp only
    rw [List.append_assoc]
  rw [hrec, recordHeader_eq List.length_replicate, hbody]
  rfl

theorem length_recordOf (g : Geometry) (connector : UInt8) (group : List (List UInt8)) :
    (recordOf g connector group).length = 16 + (payload group).length + padding group := by
  rw [recordOf_eq]
  simp only [List.length_append, length_u16Bytes, length_leBytes, List.length_replicate,
    List.length_cons, List.length_nil]
  omega

/-- A record behind its header is read back. -/
theorem reads_record (sub aux : UInt16) {body : List UInt8} (h : 12 + body.length < 65536) :
    Reads readRecord ([0, 0] ++ (u16Bytes (UInt16.ofNat (12 + body.length)) ++ (leBytes 4 4 ++
      (u16Bytes sub ++ (u16Bytes aux ++ (leBytes 4 0 ++ body))))))
      { stride := 16 + body.length, sub, aux, body } := by
  have hsize : (UInt16.ofNat (12 + body.length)).toNat = 12 + body.length := toNat_ofNat_u16 h
  have hzero : Reads (take 2) [(0 : UInt8), 0] [0, 0] := reads_take rfl
  refine hzero.bind ((reads_u16 _).bind ((reads_take (length_leBytes 4 _)).bind
    ((reads_u16 _).bind ((reads_u16 _).bind ((reads_take (length_leBytes 4 _)).bind
      ((reads_take ?_).map ?_))))))
  · rw [hsize]
    omega
  · rw [hsize]
    congr 2
    omega

/-- **A record is read back**: its length, `sub`, padding and body. -/
theorem reads_recordOf {g : Geometry} (connector : UInt8) {group : List (List UInt8)}
    (h : Group g group) : Reads readRecord (recordOf g connector group) (viewOf g connector group) := by
  have hcap := h.cap
  have hpad : padding group ≤ 15 := by unfold padding; omega
  have hbody : (payload group ++ List.replicate (padding group) (0 : UInt8)).length =
      (payload group).length + padding group := by simp
  have hlen : 12 + (payload group ++ List.replicate (padding group) (0 : UInt8)).length < 65536 := by
    omega
  have hreads := reads_record (imageSub g connector (stripY (group.headD [])))
    (UInt16.ofNat (padding group)) hlen
  rw [hbody, ← Nat.add_assoc 16, ← recordOf_eq] at hreads
  exact hreads

/-- **The strips of a record are read back**, byte for byte. -/
theorem strips_viewOf {g : Geometry} (connector : UInt8) {group : List (List UInt8)}
    (h : Group g group) : (viewOf g connector group).strips = some group := by
  have hpad : padding group ≤ 15 := by unfold padding; omega
  have haux : (UInt16.ofNat (padding group)).toNat = padding group :=
    toNat_ofNat_u16 (by omega)
  have htake : (viewOf g connector group).body.take
      ((viewOf g connector group).body.length - (viewOf g connector group).aux.toNat) =
      payload group := by
    simp only [viewOf, haux, List.length_append, List.length_replicate, Nat.add_sub_cancel,
      List.take_left]
  have hwalk : readAll readStrip (payload group).length (payload group) = some (group.map id) := by
    refine readAll_flatMap (fun s _ => stripWord_ne_nil s) fun s hs => reads_strip ?_
    exact lt_of_le_of_lt (h.short s hs) (by omega)
  unfold Record.strips
  dsimp only
  rw [htake, hwalk, List.map_id]

/-! ### The records of a frame -/

/-- **Framing a list of strips**: refused exactly when one of them fits no record, otherwise cut
into consecutive runs, one record each. -/
theorem imageRecords_spec (g : Geometry) (connector : UInt8) (o : Option Bool) :
    ∀ (fuel i : ℕ) (rest : List (List UInt8)), rest.length ≤ fuel →
      ((∃ s ∈ rest, 4062 < s.length) ∧
        imageRecords g connector o fuel i rest = .error .EOVERFLOW) ∨
      ∃ groups : List (List (List UInt8)), (∀ s ∈ rest, s.length ≤ 4062) ∧
        imageRecords g connector o fuel i rest = .ok (groups.map (recordOf g connector)) ∧
        groups.flatten = rest ∧ ∀ group ∈ groups, Group g group := by
  intro fuel
  induction fuel with
  | zero =>
      intro i rest hlen
      obtain rfl : rest = [] := List.length_eq_zero_iff.1 (by omega)
      exact .inr ⟨[], by simp, rfl, rfl, by simp⟩
  | succ fuel ih =>
      intro i rest hlen
      cases rest with
      | nil => exact .inr ⟨[], by simp, rfl, rfl, by simp⟩
      | cons s rest =>
          rcases fill_first g o i s rest with ⟨hlong, hfill⟩ | ⟨record', rest', taken, hne, hfill, hf⟩
          · refine .inl ⟨⟨s, List.mem_cons_self, hlong⟩, ?_⟩
            simp only [imageRecords, hfill]
            rfl
          · obtain ⟨t, taken', rfl⟩ := List.exists_cons_of_ne_nil hne
            have hsplit := hf.split
            rw [List.cons_append, List.cons.injEq] at hsplit
            obtain ⟨rfl, rfl⟩ := hsplit
            have hgroup : Group g (s :: taken') := by
              refine ⟨hne, ?_, hf.short, hf.band⟩
              have := hf.cap hne
              rw [hf.bytes, List.length_append, List.length_replicate] at this
              exact this
            have hrec : finishRecord (imageSub g connector (stripY s)) record' =
                recordOf g connector (s :: taken') := by
              rw [hf.bytes]
              rfl
            have hlen' : rest'.length ≤ fuel := by
              simp only [List.length_cons, List.length_append] at hlen
              omega
            rcases ih (i + (s :: taken').length) rest' hlen' with
              ⟨⟨u, hu, hlong⟩, herr⟩ | ⟨groups, hshort, hok, hflat, hall⟩
            · refine .inl ⟨⟨u, List.mem_cons_of_mem _ (List.mem_append_right _ hu), hlong⟩, ?_⟩
              simp only [imageRecords, hfill]
              simp only [bind, Except.bind, herr]
            · refine .inr ⟨(s :: taken') :: groups, fun u hu => ?_, ?_, ?_, ?_⟩
              · rw [← List.cons_append, List.mem_append] at hu
                rcases hu with hu | hu
                · exact hf.short u hu
                · exact hshort u hu
              · simp only [imageRecords, hfill]
                simp only [bind, Except.bind, hok, hrec, List.map_cons]
                rfl
              · rw [List.flatten_cons, hflat, List.cons_append]
              · intro group hgr
                rcases List.mem_cons.1 hgr with rfl | hgr
                · exact hgroup
                · exact hall group hgr

/-- **Chunks are cut between records.** -/
theorem packChunks_spec (records : List (List UInt8)) (hne : ∀ r ∈ records, r ≠ []) :
    ∀ before : List (List UInt8), (∀ r ∈ before, r ≠ []) →
      ∃ parts : List (List (List UInt8)),
        packChunks before.flatten records = parts.map List.flatten ∧
          parts.flatten = before ++ records := by
  induction records with
  | nil =>
      intro before hb
      unfold packChunks
      split_ifs with hempty
      · refine ⟨[], rfl, ?_⟩
        cases before with
        | nil => rfl
        | cons r before =>
            have := hb r List.mem_cons_self
            simp_all
      · exact ⟨[before], rfl, by simp⟩
  | cons r records ih =>
      intro before hb
      have hr := hne r List.mem_cons_self
      have htail := ih fun r' hr' => hne r' (List.mem_cons_of_mem r hr')
      unfold packChunks
      split_ifs
      · obtain ⟨parts, hparts, hflat⟩ := htail [r] (by simpa using hr)
        refine ⟨before :: parts, ?_, ?_⟩
        · rw [List.map_cons, ← hparts]
          simp
        · rw [List.flatten_cons, hflat]
          simp
      · obtain ⟨parts, hparts, hflat⟩ := htail (before ++ [r]) (by
          intro r' hr'
          rcases List.mem_append.1 hr' with h | h
          · exact hb r' h
          · rw [List.mem_singleton.1 h]
            exact hr)
        refine ⟨parts, ?_, ?_⟩
        · rw [← hparts]
          simp
        · rw [hflat]
          simp

/-! ### What a dock finds in a frame -/

/-- The parity of the band a strip with top edge `y` lies in. -/
def oddBand (g : Geometry) (y : UInt16) : Bool :=
  (y >>> UInt16.ofNat g.stripHShift) &&& 1 == 1

/-- Bit 4 the connector and the steady-state marking put into `sub` themselves. -/
def selectorBit4 (g : Geometry) (connector : UInt8) : Bool :=
  (g.connectorSelector connector).toNat.testBit 4 || g.steadySubBit.toNat.testBit 4

/-- **Bit 4 of `sub`** is the band's parity, or'ed with what the selector has there. -/
theorem imageSub_testBit {g : Geometry} (hp : g.bandParityBit = true) (connector : UInt8)
    (y : UInt16) :
    (imageSub g connector y).toNat.testBit 4 = (oddBand g y || selectorBit4 g connector) := by
  unfold imageSub oddBand selectorBit4
  rw [hp]
  rcases and_one_eq (y >>> UInt16.ofNat g.stripHShift) with h | h <;> rw [h]
  · simp
  · have hbit : ((if True then (1 : UInt16) else 0) &&& 1) <<< 4 = 16 := by decide
    simp only [if_true, UInt16.toNat_or, Nat.testBit_or, UInt8.toNat_toUInt16]
    simp only [if_true] at hbit
    have htest : Nat.testBit (16 : UInt16).toNat 4 = true := by decide
    rw [hbit, htest]
    simp

/-- A record as the dock requires it, with the strips it carries. -/
structure RecordOk (g : Geometry) (connector : UInt8) (r : Record)
    (strips : List (List UInt8)) : Prop where
  aligned : r.stride % 16 = 0
  cap : r.stride ≤ 4080
  stride : r.stride = 16 + r.body.length
  ne_nil : strips ≠ []
  pad : r.aux.toNat ≤ 15
  zeros : ∃ payload, r.body = payload ++ List.replicate r.aux.toNat 0
  band : g.bandParityBit = true → ∃ y, (∀ s ∈ strips, stripY s = y) ∧
    r.sub.toNat.testBit 4 = (oddBand g y || selectorBit4 g connector)

theorem recordOk_viewOf {g : Geometry} (connector : UInt8) {group : List (List UInt8)}
    (h : Group g group) : RecordOk g connector (viewOf g connector group) group := by
  have hcap := h.cap
  have hpad : padding group ≤ 15 := by unfold padding; omega
  have halign : (16 + (payload group).length + padding group) % 16 = 0 := by
    unfold padding
    omega
  have haux : (UInt16.ofNat (padding group)).toNat = padding group :=
    toNat_ofNat_u16 (by omega)
  refine ⟨halign, ?_, ?_, h.ne_nil, ?_, ?_, fun hp => ⟨_, h.band hp, imageSub_testBit hp _ _⟩⟩
  · show 16 + (payload group).length + padding group ≤ 4080
    omega
  · simp only [viewOf, List.length_append, List.length_replicate]
    omega
  · simpa only [viewOf, haux] using hpad
  · exact ⟨payload group, by simp only [viewOf, haux]⟩

theorem recordOf_ne_nil {g : Geometry} (connector : UInt8) {group : List (List UInt8)}
    (h : Group g group) : recordOf g connector group ≠ [] := by
  intro h0
  have hread := reads_recordOf connector h []
  rw [h0] at hread
  cases hread

theorem walkRecords_groups {g : Geometry} (connector : UInt8) {groups : List (List (List UInt8))}
    (h : ∀ group ∈ groups, Group g group) :
    walkRecords (groups.map (recordOf g connector)).flatten =
      some (groups.map (viewOf g connector)) := by
  rw [← List.flatMap_def]
  exact readAll_flatMap (fun k hk => recordOf_ne_nil connector (h k hk))
    fun k hk => reads_recordOf connector (h k hk)

/-- The chunks are cut between the records of consecutive runs. -/
theorem exists_parts {g : Geometry} (connector : UInt8) :
    ∀ (parts : List (List (List UInt8))) (groups : List (List (List UInt8))),
      parts.flatten = groups.map (recordOf g connector) →
      ∃ cut : List (List (List (List UInt8))), cut.flatten = groups ∧
        parts = cut.map fun gs => gs.map (recordOf g connector)
  | [], groups, h => by
      obtain rfl : groups = [] := by simpa using h.symm
      exact ⟨[], rfl, rfl⟩
  | p :: parts, groups, h => by
      rw [List.flatten_cons] at h
      obtain ⟨l1, l2, rfl, h1, h2⟩ := List.append_eq_map_iff.1 h
      obtain ⟨cut, hcut, hparts⟩ := exists_parts connector parts l2 h2.symm
      exact ⟨l1 :: cut, by rw [List.flatten_cons, hcut], by rw [List.map_cons, h1, ← hparts]⟩

theorem mapM_eq_some {α β : Type} {f : α → Option β} {g : α → β} :
    ∀ l : List α, (∀ a ∈ l, f a = some (g a)) → l.mapM f = some (l.map g)
  | [], _ => rfl
  | a :: l, h => by
      rw [List.mapM_cons, h a List.mem_cons_self,
        mapM_eq_some l fun b hb => h b (List.mem_cons_of_mem a hb)]
      rfl

/-- The strips in the order they are sent. -/
def emitted (g : Geometry) (strips : List (List UInt8)) (navarroOrdinary : Option Bool) :
    List (List UInt8) :=
  (sendOrder g strips navarroOrdinary).map (stripAt strips)

/-- The records of the strips, in the order they are sent. -/
def emittedRecords (g : Geometry) (strips : List (List UInt8)) (connector : UInt8)
    (navarroOrdinary : Option Bool) : Except Errno (List (List UInt8)) :=
  imageRecords g connector navarroOrdinary (emitted g strips navarroOrdinary).length 0
    (emitted g strips navarroOrdinary)

/-- A frame is refused, or it is cut into chunks of records of runs of the strips. -/
theorem emittedRecords_spec (g : Geometry) (strips : List (List UInt8)) (connector : UInt8)
    (o : Option Bool) :
    ((∃ s ∈ strips, 4062 < s.length) ∧
      frameRecordsWithBoundary g strips connector o = .error .EOVERFLOW) ∨
    ∃ cut : List (List (List (List UInt8))), (∀ s ∈ strips, s.length ≤ 4062) ∧
      emittedRecords g strips connector o = .ok (cut.flatten.map (recordOf g connector)) ∧
      frameRecordsWithBoundary g strips connector o =
        .ok (cut.map fun gs => (gs.map (recordOf g connector)).flatten) ∧
      cut.flatten.flatten = emitted g strips o ∧ ∀ group ∈ cut.flatten, Group g group := by
  have hperm : (emitted g strips o).Perm strips := ordered_perm g strips o
  unfold frameRecordsWithBoundary emittedRecords
  rw [← emitted]
  rcases imageRecords_spec g connector o (emitted g strips o).length 0 (emitted g strips o) le_rfl
    with ⟨⟨s, hs, hlong⟩, herr⟩ | ⟨groups, hshort, hok, hflat, hall⟩
  · exact .inl ⟨⟨s, hperm.mem_iff.1 hs, hlong⟩, by simp only [bind, Except.bind, herr]⟩
  · have hne : ∀ r ∈ groups.map (recordOf g connector), r ≠ [] := by
      intro r hr
      obtain ⟨group, hgr, rfl⟩ := List.mem_map.1 hr
      exact recordOf_ne_nil connector (hall group hgr)
    obtain ⟨parts, hparts, hpflat⟩ := packChunks_spec _ hne [] (by simp)
    obtain ⟨cut, rfl, rfl⟩ := exists_parts connector parts groups hpflat
    refine .inr ⟨cut, fun s hs => hshort s (hperm.mem_iff.2 hs), hok, ?_, hflat, hall⟩
    rw [List.flatten_nil, List.map_map] at hparts
    simp only [bind, Except.bind, hok, hparts]
    rfl

/-- The chunks of a frame carry the strips, permuted. -/
theorem frameRecordsWithBoundary_spec (g : Geometry) (strips : List (List UInt8))
    (connector : UInt8) (o : Option Bool) :
    ((∃ s ∈ strips, 4062 < s.length) ∧
      frameRecordsWithBoundary g strips connector o = .error .EOVERFLOW) ∨
    ∃ cut : List (List (List (List UInt8))), (∀ s ∈ strips, s.length ≤ 4062) ∧
      frameRecordsWithBoundary g strips connector o =
        .ok (cut.map fun gs => (gs.map (recordOf g connector)).flatten) ∧
      cut.flatten.flatten.Perm strips ∧ ∀ group ∈ cut.flatten, Group g group := by
  rcases emittedRecords_spec g strips connector o with hrefused | ⟨cut, hshort, -, hok, hcut, hall⟩
  · exact .inl hrefused
  · exact .inr ⟨cut, hshort, hok, hcut ▸ ordered_perm g strips o, hall⟩

/-- **Framing loses, duplicates and corrupts nothing.**  A frame is refused exactly when a strip
is longer than a record can carry.  Otherwise walking the chunks record by record consumes
them exactly, every chunk ends between records, and the strips found in the records are a
permutation of the strips given; every record is as the dock requires it. -/
theorem frameRecords_walk (g : Geometry) (strips : List (List UInt8)) (connector : UInt8)
    (navarroOrdinary : Option Bool) (_hlen : ∀ s ∈ strips, 6 ≤ s.length) :
    ((∃ e, frameRecordsWithBoundary g strips connector navarroOrdinary = .error e) ↔
      ∃ s ∈ strips, 4062 < s.length) ∧
    ∀ chunks, frameRecordsWithBoundary g strips connector navarroOrdinary = .ok chunks →
      ∃ records perChunk bodies, walkRecords chunks.flatten = some records ∧
        chunks.mapM walkRecords = some perChunk ∧ perChunk.flatten = records ∧
        records.mapM Record.strips = some bodies ∧ bodies.flatten.Perm strips ∧
        List.Forall₂ (RecordOk g connector) records bodies := by
  rcases frameRecordsWithBoundary_spec g strips connector navarroOrdinary with
    ⟨hlong, herr⟩ | ⟨cut, hshort, hok, hperm, hall⟩
  · refine ⟨⟨fun _ => hlong, fun _ => ⟨_, herr⟩⟩, fun chunks hc => ?_⟩
    rw [herr] at hc
    cases hc
  · refine ⟨⟨fun ⟨e, he⟩ => ?_, fun ⟨s, hs, hlong⟩ => ?_⟩, fun chunks hc => ?_⟩
    · rw [hok] at he
      cases he
    · have := hshort s hs
      omega
    rw [hok, Except.ok.injEq] at hc
    subst hc
    refine ⟨cut.flatten.map (viewOf g connector), cut.map fun gs => gs.map (viewOf g connector),
      cut.flatten, ?_, ?_, List.map_flatten.symm, ?_, hperm, ?_⟩
    · have hflat : (cut.map fun gs => (gs.map (recordOf g connector)).flatten).flatten =
          (cut.flatten.map (recordOf g connector)).flatten := by
        simp only [List.map_flatten, List.flatten_flatten, List.map_map]
        rfl
      rw [hflat]
      exact walkRecords_groups connector hall
    · rw [List.mapM_map]
      exact mapM_eq_some cut fun gs hgs => walkRecords_groups connector fun k hk =>
        hall k (List.mem_flatten.2 ⟨gs, hgs, hk⟩)
    · rw [List.mapM_map]
      have := mapM_eq_some (g := id) cut.flatten fun k hk => strips_viewOf connector (hall k hk)
      rwa [List.map_id] at this
    · rw [List.forall₂_map_left_iff, List.forall₂_same]
      exact fun k hk => recordOk_viewOf connector (hall k hk)

/-- Two bands on a Ridge dock. -/
theorem frameRecords_walk_sample :
    let strips : List (List UInt8) := [[1, 0x28, 0, 0, 0, 0, 9], [1, 0x28, 0, 0, 16, 0]]
    ∀ chunks, frameRecordsWithBoundary (Geometry.new 8 false true 0 8 2) strips 1 none =
        .ok chunks →
      ∃ records bodies, walkRecords chunks.flatten = some records ∧
        records.mapM Record.strips = some bodies ∧ bodies.flatten.Perm strips := by
  intro strips chunks hc
  obtain ⟨records, -, bodies, hwalk, -, -, hbodies, hperm, -⟩ :=
    (frameRecords_walk (Geometry.new 8 false true 0 8 2) strips 1 none (by decide)).2 chunks hc
  exact ⟨records, bodies, hwalk, hbodies, hperm⟩

/-- On the Ridge layout, connector 16 sets bit 4 of `sub` on a record of band 0. -/
theorem sub_bit4_not_parity :
    ¬∀ (g : Geometry) (strips : List (List UInt8)) (connector : UInt8)
      (navarroOrdinary : Option Bool), (∀ s ∈ strips, 6 ≤ s.length) →
      ∀ chunks, frameRecordsWithBoundary g strips connector navarroOrdinary = .ok chunks →
      ∀ records, walkRecords chunks.flatten = some records → g.bandParityBit = true →
      ∀ r ∈ records, ∀ body, r.strips = some body → ∀ s ∈ body,
        r.sub.toNat.testBit 4 = oddBand g (stripY s) := by
  intro h
  have hframe : frameRecordsWithBoundary (Geometry.new 8 false true 0 8 2) [[1, 0x28, 0, 0, 0, 0]]
      16 none = .ok [[0, 0, 28, 0, 4, 0, 0, 0, 16, 0, 8, 0, 0, 0, 0, 0, 6, 0, 1, 0x28, 0, 0, 0, 0,
        0, 0, 0, 0, 0, 0, 0, 0]] := by decide +kernel
  have hbad := h (Geometry.new 8 false true 0 8 2) [[1, 0x28, 0, 0, 0, 0]] 16 none (by decide) _
    hframe [⟨32, 16, 8, [6, 0, 1, 0x28, 0, 0, 0, 0, 0, 0, 0, 0, 0, 0, 0, 0]⟩] (by decide +kernel)
    rfl _ List.mem_cons_self [[1, 0x28, 0, 0, 0, 0]] (by decide +kernel) [1, 0x28, 0, 0, 0, 0]
    List.mem_cons_self
  revert hbad
  decide +kernel

end Vino.Haar.Framing
