import Vino.Haar.Framing
import Vino.Profile

/-!
# The Order on a DL-3x00

The strips are sent by the place of their band in the producer table, then by column; strips the
sort cannot tell apart stay in the order given.  The place is looked up with the band number as an
eight-bit value, and every band that is not found has the same place, behind the table.

* `ella_order_iff`: every band is sent in one piece, its columns ascend, and the bands of the table
  come first, in its order, exactly when no strip of another band of the same place stands between
  two strips of a band, and no strip of a band that is taken for one of the table stands before a
  strip of the table; so it is if all bands are bands of the table.
* `bands_interleave`: two bands below the table are sent column by column.
-/

namespace Vino.Haar.EllaOrder

open Vino.Haar.Transform Vino.Haar.Strip Vino.Haar.Records Vino.Haar.Framing

/-! ### A stable sort -/

section Stable

variable {le : ℕ → ℕ → Bool}

/-- `i` is sorted before `j`: it is smaller, or stood before it. -/
def Before (le : ℕ → ℕ → Bool) (i j : ℕ) : Prop := le i j = true ∧ (le j i = true → i < j)

variable (htotal : ∀ i j, le i j = true ∨ le j i = true)
  (htrans : ∀ i j k, le i j = true → le j k = true → le i k = true)
include htotal htrans

theorem sinkDown_sorted {x : ℕ} {p : List ℕ} (hp : p.Pairwise fun a b => Before le b a)
    (hx : ∀ a ∈ p, a < x) : (sinkDown le x p).Pairwise fun a b => Before le b a := by
  induction p with
  | nil => exact List.pairwise_singleton _ x
  | cons l p ih =>
      obtain ⟨hl, hp'⟩ := List.pairwise_cons.1 hp
      rw [sinkDown]
      split_ifs with hle
      · refine List.pairwise_cons.2 ⟨fun a ha => ?_, hp⟩
        refine ⟨?_, fun _ => hx a ha⟩
        rcases List.mem_cons.1 ha with rfl | ha
        · exact hle
        · exact htrans _ _ _ (hl a ha).1 hle
      · refine List.pairwise_cons.2
          ⟨fun a ha => ?_, ih hp' fun a ha => hx a (List.mem_cons_of_mem l ha)⟩
        rcases List.mem_cons.1 ((sinkDown_perm le x p).mem_iff.1 ha) with rfl | ha
        · exact ⟨(htotal l a).resolve_left hle, fun h => absurd h hle⟩
        · exact hl a ha

/-- **The sort is stable.** -/
theorem insertionSort_sorted {l : List ℕ} (hl : l.Pairwise (· < ·)) :
    (insertionSort le l).Pairwise (Before le) := by
  have hfold : ∀ (l p : List ℕ), l.Pairwise (· < ·) → (∀ a ∈ p, ∀ x ∈ l, a < x) →
      p.Pairwise (fun a b => Before le b a) →
      (l.foldl (fun p x => sinkDown le x p) p).Pairwise fun a b => Before le b a := by
    intro l
    induction l with
    | nil => exact fun p _ _ hp => hp
    | cons x l ih =>
        intro p hl hpl hp
        obtain ⟨hx, hl⟩ := List.pairwise_cons.1 hl
        refine ih _ hl (fun a ha y hy => ?_) (sinkDown_sorted htotal htrans hp fun a ha =>
          hpl a ha x List.mem_cons_self)
        rcases List.mem_cons.1 ((sinkDown_perm le x p).mem_iff.1 ha) with rfl | ha
        · exact hx y hy
        · exact hpl a ha y (List.mem_cons_of_mem x hy)
  exact List.pairwise_reverse.2 (hfold l [] hl (fun _ h => by cases h) List.Pairwise.nil)

end Stable

/-! ### What the dock expects -/

section Order

variable (g : Geometry)

/-- The number of a strip's band. -/
def band (s : List UInt8) : ℕ := (stripY s >>> UInt16.ofNat g.stripHShift).toNat

def column (s : List UInt8) : ℕ := (stripX s).toNat

/-- The place of a band in the producer table. -/
def place (s : List UInt8) : Option ℕ := ellaRows1080p.findIdx? (· == band g s)

/-- **The order of sending**: no strip of another band stands between two strips of a band, columns
ascend within a band, and the bands of the table come first and in its order. -/
structure Ordered (l : List (List UInt8)) : Prop where
  contiguous : ∀ s t u, [s, t, u].Sublist l → band g s = band g u → band g t = band g s
  ascending : l.Pairwise fun s t => band g s = band g t →
    column s ≤ column t ∧ (stripY s = stripY t → column s < column t)
  table : l.Pairwise fun s t => ∀ j, place g t = some j → ∃ i, place g s = some i ∧ i ≤ j

variable (strips : List (List UInt8))

/-- Strip `i` of a list stands before strip `j` in their columns, or else in the list. -/
def ColumnBefore (i j : ℕ) : Prop :=
  column (stripAt strips i) < column (stripAt strips j) ∨
    column (stripAt strips i) = column (stripAt strips j) ∧ i < j

/-- Bands the sort takes for one another keep apart. -/
structure Apart : Prop where
  /-- Between two strips of a band stands none of another band of the same rank. -/
  bands : ∀ i < strips.length, ∀ j < strips.length, ∀ k < strips.length,
    ellaRank g (stripAt strips i) = ellaRank g (stripAt strips j) →
    band g (stripAt strips i) = band g (stripAt strips k) →
    ColumnBefore strips i j → ColumnBefore strips j k →
    band g (stripAt strips j) = band g (stripAt strips i)
  /-- A strip that is not of the table has a greater rank than one that is, or stands behind it. -/
  table : ∀ i < strips.length, ∀ j < strips.length, place g (stripAt strips i) = none →
    place g (stripAt strips j) ≠ none →
    ellaRank g (stripAt strips j) < ellaRank g (stripAt strips i) ∨
      ellaRank g (stripAt strips j) = ellaRank g (stripAt strips i) ∧ ColumnBefore strips j i

/-! ### Rank and place -/

variable {g} {strips}

theorem ellaRank_eq (s : List UInt8) : ellaRank g s =
    (ellaRows1080p.findIdx? (· == band g s % 256)).getD (2 ^ 64 - 1) := by
  rw [ellaRank, band, UInt16.toNat_toUInt8]

theorem rank_of_band {s t : List UInt8} (h : band g s = band g t) :
    ellaRank g s = ellaRank g t := by
  rw [ellaRank_eq, ellaRank_eq, h]

theorem rows_le : ∀ b ∈ ellaRows1080p, b ≤ 67 := by decide

theorem band_of_place {s : List UInt8} {i : ℕ} (h : place g s = some i) : band g s ≤ 67 := by
  obtain ⟨hi, hb, -⟩ := List.findIdx?_eq_some_iff_getElem.1 h
  rw [beq_iff_eq] at hb
  rw [← hb]
  exact rows_le _ (List.getElem_mem hi)

/-- The rank of a band of the table is its place. -/
theorem rank_of_place {s : List UInt8} {i : ℕ} (h : place g s = some i) : ellaRank g s = i := by
  have hle := band_of_place h
  rw [ellaRank_eq, Nat.mod_eq_of_lt (by omega), ← place, h]
  rfl

theorem place_of_band {s : List UInt8} (h : band g s ≤ 67) : place g s ≠ none := by
  have hall : ∀ b ≤ 67, ellaRows1080p.findIdx? (· == b) ≠ none := by decide
  exact hall _ h

/-! ### The order of sending -/

/-- Strip `i` is sorted before strip `j`. -/
def SortedBefore (g : Geometry) (strips : List (List UInt8)) (i j : ℕ) : Prop :=
  ellaRank g (stripAt strips i) < ellaRank g (stripAt strips j) ∨
    ellaRank g (stripAt strips i) = ellaRank g (stripAt strips j) ∧ ColumnBefore strips i j

theorem sortedBefore_asymm {i j : ℕ} (h : SortedBefore g strips i j)
    (h' : SortedBefore g strips j i) : False := by
  unfold SortedBefore ColumnBefore at h h'
  omega

theorem sortedBefore_trans {i j k : ℕ} (h : SortedBefore g strips i j)
    (h' : SortedBefore g strips j k) : SortedBefore g strips i k := by
  unfold SortedBefore ColumnBefore at *
  omega

theorem sortedBefore_total {i j : ℕ} (h : i ≠ j) :
    SortedBefore g strips i j ∨ SortedBefore g strips j i := by
  unfold SortedBefore ColumnBefore
  omega

theorem keyLe_iff {i j : ℕ} :
    keyLe (ellaKey g (stripAt strips i)) (ellaKey g (stripAt strips j)) = true ↔
      ellaRank g (stripAt strips i) < ellaRank g (stripAt strips j) ∨
        ellaRank g (stripAt strips i) = ellaRank g (stripAt strips j) ∧
          column (stripAt strips i) ≤ column (stripAt strips j) := by
  rw [keyLe, Bool.or_eq_true, Bool.and_eq_true, decide_eq_true_iff, decide_eq_true_iff, beq_iff_eq,
    UInt16.le_iff_toNat_le]
  exact Iff.rfl

/-- The indices of the strips in the order of sending. -/
def sorted (g : Geometry) (strips : List (List UInt8)) : List ℕ :=
  insertionSort (fun l r => keyLe (ellaKey g (stripAt strips l)) (ellaKey g (stripAt strips r)))
    (List.range strips.length)

theorem sorted_pairwise (g : Geometry) (strips : List (List UInt8)) :
    (sorted g strips).Pairwise (SortedBefore g strips) := by
  refine (insertionSort_sorted (fun i j => ?_) (fun i j k hij hjk => ?_)
    List.pairwise_lt_range).imp fun hbefore => ?_
  · rw [keyLe_iff, keyLe_iff]
    omega
  · rw [keyLe_iff] at *
    omega
  · obtain ⟨hle, hlt⟩ := hbefore
    rw [keyLe_iff] at hle hlt
    unfold SortedBefore ColumnBefore
    omega

theorem mem_sorted {i : ℕ} : i ∈ sorted g strips ↔ i < strips.length := by
  rw [sorted, (insertionSort_perm _ _).mem_iff, List.mem_range]

theorem emitted_ella (hg : ellaLayout g = true) (strips : List (List UInt8)) :
    emitted g strips none = (sorted g strips).map (stripAt strips) := by
  have hfalse : (none == some false) = false := rfl
  have htrue : (none == some true) = false := rfl
  simp only [emitted, sendOrder, hfalse, htrue, Bool.and_false, Bool.false_eq_true, if_false, hg,
    if_true]
  rfl

/-- Strips in the order of the sort are sent in that order. -/
theorem sublist_sorted {l : List ℕ} (hl : l.Pairwise (SortedBefore g strips))
    (hmem : ∀ i ∈ l, i < strips.length) : l.Sublist (sorted g strips) := by
  have hanti : Std.Antisymm (SortedBefore g strips) :=
    ⟨fun _ _ h h' => (sortedBefore_asymm h h').elim⟩
  have hirrefl : Std.Irrefl (SortedBefore g strips) := ⟨fun _ h => sortedBefore_asymm h h⟩
  exact List.sublist_of_subperm_of_pairwise
    (List.subperm_of_subset hl.nodup fun i hi => mem_sorted.2 (hmem i hi)) hl
    (sorted_pairwise g strips)

theorem SortedBefore.rank_le {i j : ℕ} (h : SortedBefore g strips i j) :
    ellaRank g (stripAt strips i) ≤ ellaRank g (stripAt strips j) := by
  unfold SortedBefore at h
  omega

theorem SortedBefore.columns {i j : ℕ} (h : SortedBefore g strips i j)
    (hrank : ellaRank g (stripAt strips i) = ellaRank g (stripAt strips j)) :
    ColumnBefore strips i j :=
  (h.resolve_left (by omega)).2

theorem stripAt_eq_getElem {i : ℕ} (hi : i < strips.length) : stripAt strips i = strips[i] :=
  List.getD_eq_getElem _ _ hi

/-- Strips of one row differ in their columns. -/
theorem columns_ne (hd : strips.Pairwise fun s t => (stripX s, stripY s) ≠ (stripX t, stripY t))
    {i j : ℕ} (hi : i < strips.length) (hj : j < strips.length) (hij : i ≠ j)
    (hy : stripY (stripAt strips i) = stripY (stripAt strips j)) :
    column (stripAt strips i) ≠ column (stripAt strips j) := by
  intro hx
  have hx' := UInt16.toNat_inj.1 hx
  rw [stripAt_eq_getElem hi, stripAt_eq_getElem hj] at hx' hy
  rcases Nat.lt_or_gt_of_ne hij with hlt | hlt
  · exact List.pairwise_iff_getElem.1 hd i j hi hj hlt (Prod.ext hx' hy)
  · exact List.pairwise_iff_getElem.1 hd j i hj hi hlt (Prod.ext hx'.symm hy.symm)

theorem ordered_of_apart (hg : ellaLayout g = true)
    (hd : strips.Pairwise fun s t => (stripX s, stripY s) ≠ (stripX t, stripY t))
    (h : Apart g strips) : Ordered g (emitted g strips none) := by
  rw [emitted_ella hg]
  have hpairs : ∀ {R : List UInt8 → List UInt8 → Prop},
      (∀ i < strips.length, ∀ j < strips.length, SortedBefore g strips i j →
        R (stripAt strips i) (stripAt strips j)) →
      ((sorted g strips).map (stripAt strips)).Pairwise R := by
    intro R hR
    refine List.pairwise_map.2 ((sorted_pairwise g strips).imp_of_mem fun hi hj hij => ?_)
    exact hR _ (mem_sorted.1 hi) _ (mem_sorted.1 hj) hij
  refine ⟨fun s t u hsub hband => ?_, hpairs fun i hi j hj hij hband => ?_,
    hpairs fun i hi j hj hij p hp => ?_⟩
  · obtain ⟨l, hl, hl₀⟩ := List.sublist_map_iff.1 hsub
    obtain ⟨i, l₁, rfl, rfl, hl₁⟩ := List.map_eq_cons_iff.1 hl₀.symm
    obtain ⟨j, l₂, rfl, rfl, hl₂⟩ := List.map_eq_cons_iff.1 hl₁
    obtain ⟨k, l₃, rfl, rfl, hl₃⟩ := List.map_eq_cons_iff.1 hl₂
    rw [List.map_eq_nil_iff.1 hl₃] at hl
    have hsorted := (sorted_pairwise g strips).sublist hl
    rw [List.pairwise_cons, List.pairwise_cons] at hsorted
    have hij := hsorted.1 j List.mem_cons_self
    have hjk := hsorted.2.1 k List.mem_cons_self
    have hmem : ∀ m ∈ [i, j, k], m < strips.length := fun m hm => mem_sorted.1 (hl.subset hm)
    have hrank := rank_of_band hband
    have hle := hij.rank_le
    have hle' := hjk.rank_le
    exact h.bands i (hmem i (by simp)) j (hmem j (by simp)) k (hmem k (by simp)) (by omega) hband
      (hij.columns (by omega)) (hjk.columns (by omega))
  · have hcolumns := hij.columns (rank_of_band hband)
    refine ⟨?_, fun hy => ?_⟩
    · unfold ColumnBefore at hcolumns
      omega
    · have hne : i ≠ j := by
        rintro rfl
        exact sortedBefore_asymm hij hij
      have := columns_ne hd hi hj hne hy
      unfold ColumnBefore at hcolumns
      omega
  · have hle := hij.rank_le
    cases hplace : place g (stripAt strips i) with
    | some q =>
        rw [rank_of_place hplace, rank_of_place hp] at hle
        exact ⟨q, rfl, hle⟩
    | none =>
        have hback : SortedBefore g strips j i := h.table i hi j hj hplace (by rw [hp]; nofun)
        exact (sortedBefore_asymm hij hback).elim

theorem apart_of_ordered (hg : ellaLayout g = true) (h : Ordered g (emitted g strips none)) :
    Apart g strips := by
  rw [emitted_ella hg] at h
  constructor
  · intro i hi j hj k hk hrank hband hij hjk
    have hrank' := rank_of_band hband
    have hij' : SortedBefore g strips i j := .inr ⟨hrank, hij⟩
    have hjk' : SortedBefore g strips j k := .inr ⟨by omega, hjk⟩
    have hsub : [i, j, k].Sublist (sorted g strips) := by
      refine sublist_sorted ?_ (by simp [hi, hj, hk])
      simp [hij', hjk', sortedBefore_trans hij' hjk']
    exact h.contiguous _ _ _ (hsub.map (stripAt strips)) hband
  · intro i hi j hj hnone hsome
    by_contra hnot
    have hne : i ≠ j := by
      rintro rfl
      exact hsome hnone
    have hij : SortedBefore g strips i j := (sortedBefore_total hne).resolve_right hnot
    have hsub : [i, j].Sublist (sorted g strips) :=
      sublist_sorted (by simp [hij]) (by simp [hi, hj])
    obtain ⟨p, hp⟩ := Option.ne_none_iff_exists'.1 hsome
    have hpair := h.table.sublist (hsub.map (stripAt strips))
    obtain ⟨q, hq, -⟩ := (List.pairwise_cons.1 hpair).1 _ List.mem_cons_self p hp
    rw [hnone] at hq
    cases hq

/-- Bands of the table are not taken for one another. -/
theorem apart_of_table (h : ∀ s ∈ strips, band g s < ellaRows1080p.length) : Apart g strips := by
  have hplace : ∀ i < strips.length, ∃ p, place g (stripAt strips i) = some p := by
    intro i hi
    have hlt : band g (stripAt strips i) < 68 := by
      rw [stripAt_eq_getElem hi]
      exact h _ (List.getElem_mem hi)
    exact Option.ne_none_iff_exists'.1 (place_of_band (by omega))
  constructor
  · intro i hi j hj k _ hrank _ _ _
    obtain ⟨p, hp⟩ := hplace i hi
    obtain ⟨q, hq⟩ := hplace j hj
    rw [rank_of_place hp, rank_of_place hq] at hrank
    subst hrank
    obtain ⟨_, hb, -⟩ := List.findIdx?_eq_some_iff_getElem.1 hp
    obtain ⟨_, hb', -⟩ := List.findIdx?_eq_some_iff_getElem.1 hq
    rw [beq_iff_eq] at hb hb'
    rw [← hb, ← hb']
  · intro i hi j _ hnone _
    obtain ⟨p, hp⟩ := hplace i hi
    rw [hp] at hnone
    cases hnone

end Order

/-! ### What is sent -/

/-- The frame of the strips carries the strips `l`, in that order. -/
def Sends (g : Geometry) (strips : List (List UInt8)) (connector : UInt8)
    (l : List (List UInt8)) : Prop :=
  ∃ chunks records bodies, frameRecords g strips connector = .ok chunks ∧
    walkRecords chunks.flatten = some records ∧ records.mapM Record.strips = some bodies ∧
    bodies.flatten = l

theorem sends_iff (g : Geometry) (strips : List (List UInt8)) (c : UInt8)
    {l : List (List UInt8)} :
    Sends g strips c l ↔ (∀ s ∈ strips, s.length ≤ 4062) ∧ l = emitted g strips none := by
  rcases emittedRecords_spec g strips c none with
    ⟨⟨s, hs, hlong⟩, herr⟩ | ⟨cut, hshort, -, hok, hcut, hall⟩
  · constructor
    · rintro ⟨chunks, -, -, hchunks, -⟩
      rw [frameRecords, herr] at hchunks
      cases hchunks
    · rintro ⟨hshort, -⟩
      have := hshort s hs
      omega
  · have hflat : (cut.map fun gs => (gs.map (recordOf g c)).flatten).flatten =
        (cut.flatten.map (recordOf g c)).flatten := by
      simp only [List.map_flatten, List.flatten_flatten, List.map_map]
      rfl
    have hwalk := walkRecords_groups c hall
    have hbodies : (cut.flatten.map (viewOf g c)).mapM Record.strips = some cut.flatten := by
      rw [List.mapM_map]
      have := mapM_eq_some (g := id) cut.flatten fun k hk => strips_viewOf c (hall k hk)
      rwa [List.map_id] at this
    rw [and_iff_right hshort, ← hcut]
    constructor
    · rintro ⟨chunks, records, bodies, hchunks, hrecords, hread, rfl⟩
      rw [frameRecords, hok, Except.ok.injEq] at hchunks
      subst hchunks
      rw [hflat, hwalk, Option.some_inj] at hrecords
      subst hrecords
      rw [hbodies, Option.some_inj] at hread
      rw [hread]
    · rintro rfl
      exact ⟨_, _, _, hok, by rw [hflat, hwalk], hbodies, rfl⟩

/-- **The order on a DL-3x00.**  The frame of strips with distinct corners sends every band in one
piece, with ascending columns, and the bands of the table first and in its order, exactly when the
bands that the sort takes for one another keep apart; the bands of the table do. -/
theorem ella_order_iff (g : Geometry) (hg : ellaLayout g = true) (strips : List (List UInt8))
    (hd : strips.Pairwise fun s t => (stripX s, stripY s) ≠ (stripX t, stripY t)) (c : UInt8) :
    ((∀ s ∈ strips, s.length ≤ 4062) → ∃ l, Sends g strips c l) ∧
      (∀ l, Sends g strips c l → l.Perm strips ∧ (Ordered g l ↔ Apart g strips)) ∧
      ((∀ s ∈ strips, band g s < ellaRows1080p.length) → Apart g strips) := by
  refine ⟨fun hshort => ⟨_, (sends_iff g strips c).2 ⟨hshort, rfl⟩⟩, fun l hl => ?_,
    apart_of_table⟩
  obtain ⟨-, rfl⟩ := (sends_iff g strips c).1 hl
  exact ⟨ordered_perm g strips none, apart_of_ordered hg, ordered_of_apart hg hd⟩

/-- The corner of a surface, its second band first. -/
theorem corner_ordered :
    ∃ l, Sends Profile.profileElla.geometry
        [[1, 0x28, 64, 0, 0, 0], [1, 0x28, 0, 0, 16, 0], [1, 0x28, 0, 0, 0, 0]] 0 l ∧
      Ordered Profile.profileElla.geometry l := by
  obtain ⟨hsends, hordered, htable⟩ := ella_order_iff Profile.profileElla.geometry (by decide)
    [[1, 0x28, 64, 0, 0, 0], [1, 0x28, 0, 0, 16, 0], [1, 0x28, 0, 0, 0, 0]] (by decide) 0
  obtain ⟨l, hl⟩ := hsends (by decide)
  exact ⟨l, hl, (hordered l hl).2.2 (htable (by decide))⟩

/-- Three strips of the bands 68 and 69, below the table. -/
def belowTable : List (List UInt8) :=
  [[1, 0x28, 0, 0, 0x40, 4], [1, 0x28, 0, 0, 0x50, 4], [1, 0x28, 64, 0, 0x40, 4]]

/-- The bands below the table are sent column by column. -/
theorem bands_interleave :
    ¬ ∀ (g : Geometry) (strips : List (List UInt8)) (c : UInt8), ellaLayout g = true →
      strips.Pairwise (fun s t => (stripX s, stripY s) ≠ (stripX t, stripY t)) →
      ∀ l, Sends g strips c l → Ordered g l := by
  intro h
  have hemitted : emitted Profile.profileElla.geometry belowTable none = belowTable := by
    decide +kernel
  have hordered := h Profile.profileElla.geometry belowTable 0 (by decide) (by decide) belowTable
    ((sends_iff _ _ _).2 ⟨by decide, hemitted.symm⟩)
  exact absurd (hordered.contiguous _ _ _ (List.Sublist.refl _) (by decide)) (by decide)

end Vino.Haar.EllaOrder
