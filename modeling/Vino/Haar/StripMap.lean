import Vino.Haar.Extents
import Vino.Profile

/-!
# The Strip Map of the DL7400

One byte for every strip of the surface, sent ahead of the image records: the strip's length in
units of 512 bytes.  A band takes 32 bytes, eight bands make a sub-record, and the sub-records go
into two records, fifteen into the first and all others into the second.  The map is carried from
frame to frame, since a frame carries only the strips that changed.

* `Kept.call`: what the caller's buffer says after every frame,
* `paramRecords_walk`: what a dock walking the records finds,
* `strip_map_iff`: up to 243 bands and 32 strips across, the map describes what the dock holds;
  beyond that, it does not.
-/

namespace Vino.Haar.StripMap

open Vino.Haar.Strip Vino.Haar.Decode Vino.Haar.Records Vino.Haar.Framing Vino.Haar.Extents
open Vino.Lib.Bits Vino.Lib.Buffer Vino.Lib.Reader Vino.Profile

/-! ### Building the map -/

/-- Bands described by one sub-record. -/
def paramBandsPerTlv : ℕ := 8

/-- Bytes of a band, whatever the strips it has. -/
def paramBandStride : ℕ := 32

/-- Sub-records of the first record. -/
def paramTlvsPerRecord : ℕ := 15

/-- A strip's size class: its length in units of 512 bytes. -/
def stripSizeClass (len : ℕ) : UInt8 := UInt8.ofNat (len >>> 9)

/-- Put one strip's class on the map; a strip off the map is passed over. -/
def describe (g : Geometry) (across bands : ℕ) (values : List UInt8) (e : ℕ × ℕ × ℕ) :
    List UInt8 :=
  if across ≤ e.1 / g.stripW ∨ bands ≤ e.2.1 / g.stripH then values
  else values.set (e.2.1 / g.stripH * paramBandStride + e.1 / g.stripW) (stripSizeClass e.2.2)

/-- A sub-record: `count` bands from `band` on. -/
def subRecord (values : List UInt8) (band count : ℕ) : List UInt8 :=
  u16Bytes (UInt16.ofNat (6 + count * paramBandStride)) ++ (u16Bytes 0x200f ++
    (u16Bytes (UInt16.ofNat band) ++ (u16Bytes (UInt16.ofNat count) ++
      (values.drop (band * paramBandStride)).take (count * paramBandStride))))

/-- Up to so many sub-records from `band` on, and the band behind them. -/
def subRecords (values : List UInt8) (bands : ℕ) : ℕ → ℕ → List UInt8 × ℕ
  | 0, band => ([], band)
  | n + 1, band =>
      if bands ≤ band then ([], band)
      else
        let count := min paramBandsPerTlv (bands - band)
        let rest := subRecords values bands n (band + count)
        (subRecord values band count ++ rest.1, rest.2)

/-- The first record's body is padded, the second left exact. -/
def padded (record : ℕ) (body : List UInt8) : List UInt8 :=
  if record = 0 then body ++ List.replicate (3968 - body.length) 0 else body

/-- One record of the map. -/
def paramRecord (sub : UInt16) (record : ℕ) (body : List UInt8) : List UInt8 :=
  let aux : UInt16 := if record = 0 then 8 else 0
  [0, 0] ++ (u16Bytes (UInt16.ofNat (12 + (padded record body).length)) ++ (leBytes 4 4 ++
    (u16Bytes sub ++ (u16Bytes aux ++ (leBytes 4 0 ++ padded record body)))))

/-- The records from `band` on. -/
def paramRecords (sub : UInt16) (values : List UInt8) (bands : ℕ) : ℕ → ℕ → ℕ → List (List UInt8)
  | 0, _, _ => []
  | fuel + 1, band, record =>
      if bands ≤ band then []
      else
        -- The first record takes up to fifteen sub-records, the second the rest.
        let takeTlvs := if record = 0 then paramTlvsPerRecord
          else (bands + paramBandsPerTlv - 1) / paramBandsPerTlv
        let body := subRecords values bands takeTlvs band
        paramRecord sub record body.1 :: paramRecords sub values bands fuel body.2 (record + 1)

/-- The bands of a surface. -/
def bandsOf (g : Geometry) (height : ℕ) : ℕ := (height + g.stripH - 1) / g.stripH

/-- The strips of a band that the map has room for. -/
def acrossOf (g : Geometry) (width : ℕ) : ℕ :=
  min ((width + g.stripW - 1) / g.stripW) paramBandStride

/-- The caller's buffer, started anew when its size is not the map's. -/
def carried (bands : ℕ) (remembered : List UInt8) : List UInt8 :=
  if remembered.length = bands * paramBandStride then remembered
  else List.replicate (bands * paramBandStride) 0

/-- The map after a frame: what was carried, with the strips of the frame put on it. -/
def mapValues (g : Geometry) (width height : ℕ) (frames : List (List UInt8))
    (remembered : List UInt8) : List UInt8 :=
  (framedStripExtents frames).foldl (describe g (acrossOf g width) (bandsOf g height))
    (carried (bandsOf g height) remembered)

/-- The records of the map of one frame. -/
def mapRecords (g : Geometry) (connector : UInt8) (width height : ℕ) (frames : List (List UInt8))
    (remembered : List UInt8) : List (List UInt8) :=
  let bands := bandsOf g height
  paramRecords (g.connectorSelector connector).toUInt16 (mapValues g width height frames remembered)
    bands bands 0 0

/-- The bytes of the map of one frame, and the buffer for the next. -/
def navarroStripParams (g : Geometry) (connector : UInt8) (width height : ℕ)
    (frames : List (List UInt8)) (remembered : List UInt8) : List UInt8 × List UInt8 :=
  ((mapRecords g connector width height frames remembered).flatten,
    mapValues g width height frames remembered)

/-! ### What the map has to say -/

/-- The column and the band a strip lies in. -/
def slot (g : Geometry) (s : List UInt8) : ℕ × ℕ :=
  ((stripX s).toNat / g.stripW, (stripY s).toNat / g.stripH)

/-- The size class of the last strip sent to a position, zero where none was. -/
def lastClass (g : Geometry) (sent : List (List UInt8)) (column band : ℕ) : UInt8 :=
  match sent.reverse.find? fun s => slot g s = (column, band) with
  | some s => stripSizeClass s.length
  | none => 0

/-- A map that says what was sent. -/
structure Kept (g : Geometry) (bands : ℕ) (sent : List (List UInt8)) (values : List UInt8) :
    Prop where
  length : values.length = bands * 32
  entry : ∀ band < bands, ∀ column < 32,
    values.getD (band * 32 + column) 0 = lastClass g sent column band

/-- A frame of a surface: strips on its grid, framed for its connector. -/
structure Frame (g : Geometry) (connector : UInt8) (width height : ℕ) where
  strips : List (List UInt8)
  boundary : Option Bool
  chunks : List (List UInt8)
  placed : ∀ s ∈ strips, ∃ blocks column band, column * g.stripW < width ∧
    band * g.stripH < height ∧ s = colourStrip g blocks (UInt16.ofNat (column * g.stripW))
      (UInt16.ofNat (band * g.stripH))
  framed : frameRecordsWithBoundary g strips connector boundary = .ok chunks

/-- A sub-record as a dock reads it. -/
structure SubRecord where
  kind : ℕ
  first : ℕ
  count : ℕ
  payload : List UInt8

/-- The sub-records of a record, each ending where its length says. -/
def walkSubRecords : ℕ → List UInt8 → List SubRecord
  | 0, _ => []
  | fuel + 1, body =>
      if body.length < 8 ∨ word 0 body < 6 ∨ body.length < 2 + word 0 body then []
      else
        { kind := word 2 body, first := word 4 body, count := word 6 body,
          payload := (body.take (2 + word 0 body)).drop 8 } ::
          walkSubRecords fuel (body.drop (2 + word 0 body))

/-- The sub-records of kind 0x200f of a record. -/
def mapSubRecords (r : Record) : List SubRecord :=
  (walkSubRecords (r.body.length + 1) r.body).filter fun t => t.kind == 0x200f

/-- Sub-records cover the bands from `a` to `b` exactly once, in order. -/
def Covers : ℕ → ℕ → List SubRecord → Prop
  | a, b, [] => a = b
  | a, b, t :: ts => t.first = a ∧ 0 < t.count ∧ t.payload.length = t.count * 32 ∧
      Covers (a + t.count) b ts

/-- **The records of a map describe what was sent**: every record is as long as it says and no
longer than the dock takes, walking them gives every band once, and the bytes of the bands say what
was sent to every position. -/
structure Described (g : Geometry) (bands : ℕ) (out : List UInt8) (records : List (List UInt8))
    (sent : List (List UInt8)) : Prop where
  bytes : out = records.flatten
  wellFormed : ∀ r ∈ records, r.length ≤ 4080 ∧ word 2 r + 4 = r.length
  walked : ∃ rs, walkRecords out = some rs ∧ Covers 0 bands (rs.flatMap mapSubRecords) ∧
    Kept g bands sent ((rs.flatMap mapSubRecords).flatMap SubRecord.payload)
  held : ∀ s ∈ sent, (slot g s).1 < 32 ∧ (slot g s).2 < bands

/-! ### The caller's buffer -/

theorem lastClass_snoc (g : Geometry) (sent : List (List UInt8)) (s : List UInt8)
    (column band : ℕ) : lastClass g (sent ++ [s]) column band =
      if slot g s = (column, band) then stripSizeClass s.length
      else lastClass g sent column band := by
  unfold lastClass
  rw [List.reverse_append, List.reverse_singleton, List.singleton_append, List.find?_cons]
  by_cases h : slot g s = (column, band)
  · simp [h]
  · simp [h]

/-- A strip is put where it stands. -/
theorem Kept.describe {g : Geometry} {across bands : ℕ} {sent : List (List UInt8)}
    {values s : List UInt8} (h : Kept g bands sent values) (hband : (slot g s).2 < bands)
    (hcolumn : (slot g s).1 < across ↔ (slot g s).1 < 32) :
    Kept g bands (sent ++ [s]) (describe g across bands values (stripExtent s)) := by
  have hdescribe : StripMap.describe g across bands values (stripExtent s) =
      if across ≤ (slot g s).1 ∨ bands ≤ (slot g s).2 then values
      else values.set ((slot g s).2 * 32 + (slot g s).1) (stripSizeClass s.length) := rfl
  rw [hdescribe]
  by_cases hon : (slot g s).1 < 32
  · have hacross := hcolumn.2 hon
    rw [if_neg (by omega)]
    refine ⟨by rw [List.length_set, h.length], fun band hb column hc => ?_⟩
    rw [lastClass_snoc, ← h.entry band hb column hc, List.getD_eq_getElem?_getD,
      List.getElem?_set, List.getD_eq_getElem?_getD]
    have hlen := h.length
    by_cases hslot : slot g s = (column, band)
    · rw [if_pos hslot, hslot, if_pos rfl, if_pos (by dsimp only; omega)]
      rfl
    · rw [if_neg hslot, if_neg ?_]
      intro heq
      refine hslot (Prod.ext ?_ ?_)
      · dsimp only
        omega
      · dsimp only
        omega
  · have hacross : across ≤ (slot g s).1 := by
      by_contra hlt
      exact hon (hcolumn.1 (by omega))
    rw [if_pos (.inl hacross)]
    refine ⟨h.length, fun band hb column hc => ?_⟩
    rw [lastClass_snoc, if_neg ?_, h.entry band hb column hc]
    intro heq
    rw [heq] at hon
    exact hon hc

section Frames

variable {g : Geometry} {connector : UInt8} {width height : ℕ}

/-- The strips of a frame in the order they are sent. -/
def Frame.sent (f : Frame g connector width height) : List (List UInt8) :=
  emitted g f.strips f.boundary

/-- The strips of frames sent one after another. -/
def sentBy (frames : List (Frame g connector width height)) : List (List UInt8) :=
  frames.flatMap Frame.sent

theorem Frame.mem_sent {f : Frame g connector width height} {s : List UInt8} :
    s ∈ f.sent ↔ s ∈ f.strips :=
  (ordered_perm g f.strips f.boundary).mem_iff

theorem Frame.extents (f : Frame g connector width height) :
    framedStripExtents f.chunks = f.sent.map stripExtent := by
  refine framedStripExtents_emitted (fun s hs => ?_) f.framed
  obtain ⟨blocks, column, band, -, -, rfl⟩ := f.placed s hs
  exact ⟨g, blocks, _, _, rfl⟩

theorem stripW_pos (g : Geometry) : 0 < g.stripW := Nat.two_pow_pos _

theorem stripH_pos (g : Geometry) : 0 < g.stripH := Nat.two_pow_pos _

/-- The strips of a frame lie on the surface. -/
theorem Frame.slot_lt (hw : width ≤ 65535) (hh : height ≤ 65535)
    (f : Frame g connector width height) {s : List UInt8} (hs : s ∈ f.sent) :
    (slot g s).1 < (width + g.stripW - 1) / g.stripW ∧ (slot g s).2 < bandsOf g height := by
  obtain ⟨blocks, column, band, hc, hb, rfl⟩ := f.placed s (Frame.mem_sent.1 hs)
  obtain ⟨hx, hy, -⟩ := colourStrip_holds g blocks (UInt16.ofNat (column * g.stripW))
    (UInt16.ofNat (band * g.stripH))
  have hxs : stripX (colourStrip g blocks (UInt16.ofNat (column * g.stripW))
      (UInt16.ofNat (band * g.stripH))) = UInt16.ofNat (column * g.stripW) := by
    rw [stripX, u16At_of_holds hx]
    rfl
  have hys : stripY (colourStrip g blocks (UInt16.ofNat (column * g.stripW))
      (UInt16.ofNat (band * g.stripH))) = UInt16.ofNat (band * g.stripH) := by
    rw [stripY, u16At_of_holds hy]
    rfl
  unfold slot
  rw [hxs, hys, toNat_ofNat_u16 (by omega), toNat_ofNat_u16 (by omega),
    Nat.mul_div_cancel _ (stripW_pos g), Nat.mul_div_cancel _ (stripH_pos g)]
  have hcount : ∀ {k d n : ℕ}, 0 < d → k * d < n → k < (n + d - 1) / d := by
    intro k d n hd hlt
    rw [Nat.lt_iff_add_one_le, Nat.le_div_iff_mul_le hd, Nat.add_mul]
    omega
  exact ⟨hcount (stripW_pos g) hc, hcount (stripH_pos g) hb⟩

/-- Strips put on the map one after another. -/
theorem Kept.foldl {across bands : ℕ} : ∀ {strips sent : List (List UInt8)} {values : List UInt8},
    Kept g bands sent values →
    (∀ s ∈ strips, (slot g s).2 < bands ∧ ((slot g s).1 < across ↔ (slot g s).1 < 32)) →
    Kept g bands (sent ++ strips)
      ((strips.map stripExtent).foldl (StripMap.describe g across bands) values)
  | [], sent, values, h, _ => by rwa [List.append_nil]
  | s :: strips, sent, values, h, hslots => by
      obtain ⟨hband, hcolumn⟩ := hslots s List.mem_cons_self
      have hnext := (h.describe hband hcolumn).foldl
        fun t ht => hslots t (List.mem_cons_of_mem s ht)
      rwa [List.append_assoc, List.singleton_append] at hnext

/-- **One frame**: its strips are put on the map. -/
theorem Kept.call (hw : width ≤ 65535) (hh : height ≤ 65535) {sent : List (List UInt8)}
    {remembered : List UInt8} (h : Kept g (bandsOf g height) sent
      (carried (bandsOf g height) remembered)) (f : Frame g connector width height) :
    Kept g (bandsOf g height) (sent ++ f.sent) (mapValues g width height f.chunks remembered) := by
  unfold mapValues
  rw [f.extents]
  refine h.foldl fun s hs => ?_
  obtain ⟨hcolumn, hband⟩ := f.slot_lt hw hh hs
  refine ⟨hband, ?_⟩
  unfold acrossOf paramBandStride
  omega

theorem Kept.carried_eq {bands : ℕ} {sent : List (List UInt8)} {values : List UInt8}
    (h : Kept g bands sent values) : carried bands values = values := if_pos h.length

/-- A buffer that says nothing yet: of another size, or zero. -/
def Fresh (bands : ℕ) (remembered : List UInt8) : Prop :=
  remembered.length = bands * 32 → ∀ b ∈ remembered, b = 0

theorem Fresh.kept {bands : ℕ} {remembered : List UInt8} (h : Fresh bands remembered) :
    Kept g bands [] (carried bands remembered) := by
  have hzero : carried bands remembered = List.replicate (bands * 32) 0 := by
    unfold carried paramBandStride
    split_ifs with hlen
    · exact List.eq_replicate_iff.2 ⟨hlen, h hlen⟩
    · rfl
  rw [hzero]
  refine ⟨List.length_replicate, fun band hb column hc => ?_⟩
  rw [List.getD_eq_getElem?_getD, List.getElem?_replicate, if_pos (by omega)]
  rfl

/-- The caller's buffer after some frames. -/
def remember (connector : UInt8) (width height : ℕ) (remembered : List UInt8)
    (frames : List (Frame g connector width height)) : List UInt8 :=
  frames.foldl (fun m f => (navarroStripParams g connector width height f.chunks m).2) remembered

/-- **The buffer after every frame** says what the frames sent. -/
theorem Kept.run (hw : width ≤ 65535) (hh : height ≤ 65535) :
    ∀ {frames : List (Frame g connector width height)} {sent : List (List UInt8)}
      {remembered : List UInt8}, Kept g (bandsOf g height) sent
        (carried (bandsOf g height) remembered) →
      Kept g (bandsOf g height) (sent ++ sentBy frames)
        (carried (bandsOf g height) (remember connector width height remembered frames))
  | [], sent, remembered, h => by
      rw [sentBy, List.flatMap_nil, List.append_nil]
      exact h
  | f :: frames, sent, remembered, h => by
      have hcall := h.call hw hh f
      have hnext : Kept g (bandsOf g height) (sent ++ f.sent) (carried (bandsOf g height)
          (navarroStripParams g connector width height f.chunks remembered).2) := by
        rw [navarroStripParams, hcall.carried_eq]
        exact hcall
      have hsent : sent ++ sentBy (f :: frames) = sent ++ f.sent ++ sentBy frames := by
        rw [sentBy, List.flatMap_cons, ← List.append_assoc]
        rfl
      rw [hsent]
      exact Kept.run hw hh hnext

end Frames

/-! ### The records -/

section Walk

variable {values : List UInt8} {bands : ℕ}

theorem subRecords_snd : ∀ (n : ℕ) {band : ℕ}, band ≤ bands →
    (subRecords values bands n band).2 = min bands (band + 8 * n)
  | 0, band, h => by
      show band = _
      omega
  | n + 1, band, h => by
      unfold subRecords paramBandsPerTlv
      split_ifs with hend
      · show band = _
        omega
      · dsimp only
        rw [subRecords_snd n (by omega)]
        omega

theorem length_subRecord {band count : ℕ} (hlen : values.length = bands * 32)
    (h : band + count ≤ bands) : (subRecord values band count).length = 8 + count * 32 := by
  unfold subRecord paramBandStride
  simp only [List.length_append, length_u16Bytes, List.length_take, List.length_drop]
  omega

/-- The bytes of the sub-records of so many bands. -/
theorem length_subRecords (hlen : values.length = bands * 32) : ∀ (n : ℕ) {band : ℕ}, band ≤ bands →
    (subRecords values bands n band).1.length =
      (min bands (band + 8 * n) - band) * 32 + 8 * ((min bands (band + 8 * n) - band + 7) / 8)
  | 0, band, h => by
      show 0 = _
      omega
  | n + 1, band, h => by
      unfold subRecords paramBandsPerTlv
      split_ifs with hend
      · show 0 = _
        omega
      · dsimp only
        rw [List.length_append, length_subRecord hlen (by omega),
          length_subRecords hlen n (by omega)]
        omega

theorem Covers.append : ∀ {ts us : List SubRecord} {a b c : ℕ}, Covers a b ts → Covers b c us →
    Covers a c (ts ++ us)
  | [], us, a, b, c, h, hu => by
      have hab : a = b := h
      rwa [hab]
  | t :: ts, us, a, b, c, ⟨hfirst, hcount, hlen, hrest⟩, hu =>
      ⟨hfirst, hcount, hlen, hrest.append hu⟩

/-- The sub-records of some bands: what a walk over a record gives. -/
structure Walked (values : List UInt8) (a b : ℕ) (ts : List SubRecord) : Prop where
  covers : Covers a b ts
  bytes : ts.flatMap SubRecord.payload = (values.drop (a * 32)).take ((b - a) * 32)
  kind : ∀ t ∈ ts, t.kind = 0x200f
  le : a ≤ b

/-- The zeros behind the sub-records are not one. -/
theorem walkSubRecords_zeros (fuel pad : ℕ) :
    walkSubRecords fuel (List.replicate pad 0) = [] := by
  cases fuel with
  | zero => rfl
  | succ fuel =>
      unfold walkSubRecords
      refine if_pos ?_
      by_cases hpad : pad < 8
      · exact .inl (by rwa [List.length_replicate])
      · obtain ⟨k, rfl⟩ : ∃ k, pad = k + 2 := ⟨pad - 2, by omega⟩
        have hzero : (List.replicate (k + 2) (0 : UInt8)).drop 0 =
            u16Bytes 0 ++ List.replicate k 0 := rfl
        rw [word_eq hzero]
        exact .inr (.inl (by decide))

/-- One sub-record is found. -/
theorem walkSubRecords_cons {band count : ℕ} (hlen : values.length = bands * 32)
    (hband : band + count ≤ bands) (hbands : bands < 65536) (hcount : count ≤ 8) (fuel : ℕ)
    (rest : List UInt8) :
    walkSubRecords (fuel + 1) (subRecord values band count ++ rest) =
      { kind := 0x200f, first := band, count := count,
        payload := (values.drop (band * 32)).take (count * 32) } :: walkSubRecords fuel rest := by
  have hsub := length_subRecord hlen hband
  have h0 : (subRecord values band count ++ rest).drop 0 =
      u16Bytes (UInt16.ofNat (6 + count * 32)) ++ (u16Bytes 0x200f ++
        (u16Bytes (UInt16.ofNat band) ++ (u16Bytes (UInt16.ofNat count) ++
          ((values.drop (band * 32)).take (count * 32) ++ rest)))) := by
    simp only [List.drop_zero, subRecord, paramBandStride, List.append_assoc]
  have h2 := drop_add h0 (length_u16Bytes _)
  have h4 := drop_add h2 (length_u16Bytes _)
  have h6 := drop_add h4 (length_u16Bytes _)
  have hword : word 0 (subRecord values band count ++ rest) = 6 + count * 32 := by
    rw [word_eq h0, toNat_ofNat_u16 (by omega)]
  have hkind : word 2 (subRecord values band count ++ rest) = 0x200f := word_eq h2
  have hfirst : word 4 (subRecord values band count ++ rest) = band :=
    (word_eq h4).trans (toNat_ofNat_u16 (by omega))
  have hcnt : word 6 (subRecord values band count ++ rest) = count :=
    (word_eq h6).trans (toNat_ofNat_u16 (by omega))
  have hend : 2 + (6 + count * 32) = (subRecord values band count).length := by omega
  have hpayload : (subRecord values band count).drop 8 =
      (values.drop (band * 32)).take (count * 32) := by
    have hown : (subRecord values band count).drop 0 = u16Bytes (UInt16.ofNat (6 + count * 32)) ++
        (u16Bytes 0x200f ++ (u16Bytes (UInt16.ofNat band) ++ (u16Bytes (UInt16.ofNat count) ++
          (values.drop (band * 32)).take (count * 32)))) := rfl
    exact drop_add (drop_add (drop_add (drop_add hown (length_u16Bytes _)) (length_u16Bytes _))
      (length_u16Bytes _)) (length_u16Bytes _)
  rw [walkSubRecords, hword, if_neg ?_, hkind, hfirst, hcnt, hend, List.take_left, List.drop_left,
    hpayload]
  rw [List.length_append]
  omega

/-- **The sub-records are found**, and the padding behind them is not one. -/
theorem walkSubRecords_subRecords (hlen : values.length = bands * 32) (hbands : bands < 65536)
    (pad : ℕ) : ∀ (n : ℕ) {band fuel : ℕ}, band ≤ bands →
      (subRecords values bands n band).1.length < fuel →
      Walked values band (min bands (band + 8 * n))
        (walkSubRecords fuel ((subRecords values bands n band).1 ++ List.replicate pad 0))
  | 0, band, fuel, h, _ => by
      have hend : min bands (band + 8 * 0) = band := by omega
      rw [hend]
      show Walked values band band (walkSubRecords fuel (List.replicate pad 0))
      rw [walkSubRecords_zeros]
      exact ⟨rfl, by simp, by simp, le_rfl⟩
  | n + 1, band, fuel, h, hfuel => by
      unfold subRecords paramBandsPerTlv at hfuel ⊢
      split_ifs at hfuel ⊢ with hend
      · have hmin : min bands (band + 8 * (n + 1)) = band := by omega
        rw [hmin]
        show Walked values band band (walkSubRecords fuel (List.replicate pad 0))
        rw [walkSubRecords_zeros]
        exact ⟨rfl, by simp, by simp, le_rfl⟩
      · dsimp only at hfuel ⊢
        set count := min 8 (bands - band) with hcount
        have hsub := length_subRecord hlen (show band + count ≤ bands by omega)
        rw [List.length_append, hsub] at hfuel
        obtain ⟨fuel, rfl⟩ : ∃ k, fuel = k + 1 := ⟨fuel - 1, by omega⟩
        have hih := walkSubRecords_subRecords hlen hbands pad n
          (show band + count ≤ bands by omega)
          (show (subRecords values bands n (band + count)).1.length < fuel by omega)
        have hmin : min bands (band + count + 8 * n) = min bands (band + 8 * (n + 1)) := by omega
        rw [hmin] at hih
        set rest := (subRecords values bands n (band + count)).1 ++ List.replicate pad 0 with hrest
        have hbody : subRecord values band count ++ (subRecords values bands n (band + count)).1 ++
            List.replicate pad 0 = subRecord values band count ++ rest := List.append_assoc _ _ _
        have hwalk := walkSubRecords_cons hlen (show band + count ≤ bands by omega) hbands
          (show count ≤ 8 by omega) fuel rest
        have hslice : ((values.drop (band * 32)).take (count * 32)).length = count * 32 := by
          rw [List.length_take, List.length_drop]
          omega
        rw [hbody, hwalk]
        refine ⟨⟨rfl, by dsimp only; omega, hslice, hih.covers⟩, ?_, ?_, by omega⟩
        · have hle := hih.le
          have hsplit : (min bands (band + 8 * (n + 1)) - band) * 32 =
              count * 32 + (min bands (band + 8 * (n + 1)) - (band + count)) * 32 := by omega
          rw [List.flatMap_cons, hih.bytes, hsplit, List.take_add, List.drop_drop, Nat.add_mul]
        · intro t ht
          rcases List.mem_cons.1 ht with rfl | ht
          · rfl
          · exact hih.kind t ht

/-- A record of the map as a dock reads it. -/
def paramView (sub : UInt16) (p : ℕ × List UInt8) : Record where
  stride := 16 + (padded p.1 p.2).length
  sub := sub
  aux := if p.1 = 0 then 8 else 0
  body := padded p.1 p.2

theorem length_paramRecord (sub : UInt16) (p : ℕ × List UInt8) :
    (paramRecord sub p.1 p.2).length = 16 + (padded p.1 p.2).length := by
  unfold paramRecord
  simp only [List.length_append, length_u16Bytes, length_leBytes, List.length_cons, List.length_nil]
  omega

theorem word_paramRecord (sub : UInt16) {p : ℕ × List UInt8}
    (h : 12 + (padded p.1 p.2).length < 65536) :
    word 2 (paramRecord sub p.1 p.2) = 12 + (padded p.1 p.2).length :=
  (word_eq rfl).trans (toNat_ofNat_u16 h)

/-- The records of the map and what is in them. -/
def paramParts (values : List UInt8) (bands : ℕ) : List (ℕ × List UInt8) :=
  if bands = 0 then []
  else if bands ≤ 120 then [(0, (subRecords values bands 15 0).1)]
  else [(0, (subRecords values bands 15 0).1),
    (1, (subRecords values bands ((bands + 8 - 1) / 8) 120).1)]

theorem paramRecords_done (sub : UInt16) (fuel record : ℕ) :
    paramRecords sub values bands fuel bands record = [] := by
  cases fuel with
  | zero => rfl
  | succ fuel => exact if_pos le_rfl

/-- **There are at most two records.** -/
theorem paramRecords_eq (sub : UInt16) :
    paramRecords sub values bands bands 0 0 =
      (paramParts values bands).map fun p => paramRecord sub p.1 p.2 := by
  unfold paramParts
  by_cases h0 : bands = 0
  · rw [if_pos h0, h0]
    rfl
  obtain ⟨fuel, hfuel⟩ : ∃ k, bands = k + 1 := ⟨bands - 1, by omega⟩
  have hunfold : paramRecords sub values bands bands 0 0 =
      paramRecord sub 0 (subRecords values bands 15 0).1 ::
        paramRecords sub values bands fuel (min bands 120) 1 := by
    have hnext : (subRecords values bands 15 0).2 = min bands 120 :=
      subRecords_snd 15 (Nat.zero_le bands)
    conv_lhs => rw [hfuel, paramRecords, ← hfuel]
    rw [if_neg (by omega)]
    dsimp only [paramTlvsPerRecord]
    rw [if_pos rfl, hnext]
  rw [hunfold, if_neg h0]
  by_cases h1 : bands ≤ 120
  · rw [if_pos h1, min_eq_left h1, paramRecords_done]
    rfl
  · obtain ⟨k, rfl⟩ : ∃ k, fuel = k + 1 := ⟨fuel - 1, by omega⟩
    have hnext : (subRecords values bands ((bands + 8 - 1) / 8) 120).2 =
        min bands (120 + 8 * ((bands + 8 - 1) / 8)) := subRecords_snd _ (by omega)
    have hend : min bands (120 + 8 * ((bands + 8 - 1) / 8)) = bands := by omega
    rw [if_neg h1, min_eq_right (by omega), paramRecords, if_neg (by omega)]
    dsimp only [paramBandsPerTlv]
    rw [if_neg Nat.one_ne_zero, hnext, hend, paramRecords_done]
    rfl

theorem length_padded_zero (body : List UInt8) (h : body.length ≤ 3968) :
    (padded 0 body).length = 3968 := by
  rw [padded, if_pos rfl, List.length_append, List.length_replicate]
  omega

/-- The bytes of the first body. -/
theorem length_first (hlen : values.length = bands * 32) :
    (padded 0 (subRecords values bands 15 0).1).length = 3968 := by
  refine length_padded_zero _ ?_
  rw [length_subRecords hlen 15 (Nat.zero_le bands)]
  omega

/-- The bytes of the second body. -/
theorem length_second (hlen : values.length = bands * 32) (h : 120 < bands) :
    (padded 1 (subRecords values bands ((bands + 8 - 1) / 8) 120).1).length =
      (bands - 120) * 32 + 8 * ((bands - 120 + 7) / 8) := by
  rw [padded, if_neg Nat.one_ne_zero, length_subRecords hlen _ (by omega)]
  omega

/-- **Both records fit**, up to 243 bands. -/
theorem length_part_le (hlen : values.length = bands * 32) (hbands : bands ≤ 243)
    {p : ℕ × List UInt8} (hp : p ∈ paramParts values bands) : (padded p.1 p.2).length ≤ 4064 := by
  have hfirst := length_first hlen
  unfold paramParts at hp
  split_ifs at hp with h0 h1
  · simp at hp
  · rw [List.mem_singleton.1 hp]
    dsimp only
    omega
  · have hsecond := length_second hlen (by omega)
    rcases List.mem_cons.1 hp with rfl | hp
    · dsimp only
      omega
    · rw [List.mem_singleton.1 hp]
      dsimp only
      omega

theorem walkRecords_parts (sub : UInt16) (hlen : values.length = bands * 32)
    (hbands : bands ≤ 243) :
    walkRecords (paramRecords sub values bands bands 0 0).flatten =
      some ((paramParts values bands).map (paramView sub)) := by
  rw [paramRecords_eq, ← List.flatMap_def]
  refine readAll_flatMap (fun p _ => List.cons_ne_nil _ _) fun p hp => ?_
  have hle := length_part_le hlen hbands hp
  exact reads_record sub _ (by omega)

theorem Walked.mapSubRecords {a b : ℕ} {r : Record}
    (h : Walked values a b (walkSubRecords (r.body.length + 1) r.body)) :
    Walked values a b (mapSubRecords r) := by
  have hall : StripMap.mapSubRecords r = walkSubRecords (r.body.length + 1) r.body := by
    refine List.filter_eq_self.2 fun t ht => ?_
    rw [h.kind t ht]
    rfl
  rwa [hall]

theorem walked_first (sub : UInt16) (hlen : values.length = bands * 32) (hbands : bands < 65536) :
    Walked values 0 (min bands 120)
      (mapSubRecords (paramView sub (0, (subRecords values bands 15 0).1))) := by
  refine Walked.mapSubRecords ?_
  have hwalk := walkSubRecords_subRecords hlen hbands
    (3968 - (subRecords values bands 15 0).1.length) 15 (Nat.zero_le bands)
    (show (subRecords values bands 15 0).1.length <
      (padded 0 (subRecords values bands 15 0).1).length + 1 by
        rw [padded, if_pos rfl, List.length_append]; omega)
  exact hwalk

theorem walked_second (sub : UInt16) (hlen : values.length = bands * 32) (hbands : bands < 65536)
    (h : 120 < bands) : Walked values 120 bands
      (mapSubRecords (paramView sub (1, (subRecords values bands ((bands + 8 - 1) / 8) 120).1))) := by
  refine Walked.mapSubRecords ?_
  have hend : min bands (120 + 8 * ((bands + 8 - 1) / 8)) = bands := by omega
  have hwalk := walkSubRecords_subRecords hlen hbands 0 ((bands + 8 - 1) / 8)
    (show 120 ≤ bands by omega) (Nat.lt_succ_self _)
  rw [hend, List.replicate_zero, List.append_nil] at hwalk
  exact hwalk

/-- **What a dock walking the records finds**: every band once, with the bytes of the map. -/
theorem paramRecords_walk (sub : UInt16) (hlen : values.length = bands * 32)
    (hbands : bands ≤ 243) :
    ∃ rs, walkRecords (paramRecords sub values bands bands 0 0).flatten = some rs ∧
      Covers 0 bands (rs.flatMap mapSubRecords) ∧
      (rs.flatMap mapSubRecords).flatMap SubRecord.payload = values := by
  refine ⟨_, walkRecords_parts sub hlen hbands, ?_⟩
  have hfirst := walked_first sub hlen (by omega)
  unfold paramParts
  by_cases h0 : bands = 0
  · obtain rfl : values = [] := List.length_eq_zero_iff.1 (by omega)
    rw [if_pos h0]
    exact ⟨h0.symm, rfl⟩
  rw [if_neg h0]
  by_cases h1 : bands ≤ 120
  · rw [min_eq_left h1] at hfirst
    rw [if_pos h1]
    simp only [List.map_cons, List.map_nil, List.flatMap_cons, List.flatMap_nil, List.append_nil]
    refine ⟨hfirst.covers, hfirst.bytes.trans ?_⟩
    exact List.take_of_length_le (by rw [List.length_drop]; omega)
  · have hsecond := walked_second sub hlen (by omega) (by omega)
    rw [min_eq_right (by omega)] at hfirst
    rw [if_neg h1]
    simp only [List.map_cons, List.map_nil, List.flatMap_cons, List.flatMap_nil, List.append_nil,
      List.flatMap_append]
    refine ⟨hfirst.covers.append hsecond.covers, ?_⟩
    have hrest : (values.drop (120 * 32)).take ((bands - 120) * 32) = values.drop (120 * 32) :=
      List.take_of_length_le (by rw [List.length_drop]; omega)
    rw [hfirst.bytes, hsecond.bytes, hrest]
    exact List.take_append_drop (120 * 32) values

/-- A map of more than 243 bands has a record that does not fit. -/
theorem exists_long_record (sub : UInt16) (hlen : values.length = bands * 32) (h : 243 < bands) :
    ∃ r ∈ paramRecords sub values bands bands 0 0, 4080 < r.length := by
  refine ⟨paramRecord sub 1 (subRecords values bands ((bands + 8 - 1) / 8) 120).1, ?_, ?_⟩
  · rw [paramRecords_eq, paramParts, if_neg (by omega), if_neg (by omega)]
    exact List.mem_cons_of_mem _ List.mem_cons_self
  · rw [length_paramRecord sub (1, (subRecords values bands ((bands + 8 - 1) / 8) 120).1),
      length_second hlen (by omega)]
    omega

/-- **When the records of a map describe what was sent.** -/
theorem described_iff {g : Geometry} (sub : UInt16) {sent : List (List UInt8)}
    (hkept : Kept g bands sent values) (hband : ∀ s ∈ sent, (slot g s).2 < bands) :
    Described g bands (paramRecords sub values bands bands 0 0).flatten
      (paramRecords sub values bands bands 0 0) sent ↔
        bands ≤ 243 ∧ ∀ s ∈ sent, (slot g s).1 < 32 := by
  constructor
  · intro h
    refine ⟨?_, fun s hs => (h.held s hs).1⟩
    by_contra hlong
    obtain ⟨r, hr, hcap⟩ := exists_long_record sub hkept.length (by omega)
    have := (h.wellFormed r hr).1
    omega
  · rintro ⟨hbands, hcolumn⟩
    obtain ⟨rs, hrs, hcovers, hbytes⟩ := paramRecords_walk sub hkept.length hbands
    refine ⟨rfl, fun r hr => ?_, ⟨rs, hrs, hcovers, hbytes.symm ▸ hkept⟩,
      fun s hs => ⟨hcolumn s hs, hband s hs⟩⟩
    rw [paramRecords_eq] at hr
    obtain ⟨p, hp, rfl⟩ := List.mem_map.1 hr
    have hle := length_part_le hkept.length hbands hp
    rw [length_paramRecord, word_paramRecord sub (by omega)]
    omega

end Walk

/-! ### Runs -/

section Runs

variable {g : Geometry} {connector : UInt8} {width height : ℕ}

theorem slot_of_mem_sentBy (hw : width ≤ 65535) (hh : height ≤ 65535)
    {frames : List (Frame g connector width height)} {s : List UInt8} (hs : s ∈ sentBy frames) :
    (slot g s).2 < bandsOf g height := by
  obtain ⟨f, -, hs⟩ := List.mem_flatMap.1 hs
  exact (f.slot_lt hw hh hs).2

/-- The map of one frame of a run. -/
theorem described_call (hw : width ≤ 65535) (hh : height ≤ 65535) {remembered : List UInt8}
    (hfresh : Fresh (bandsOf g height) remembered) (before : List (Frame g connector width height))
    (f : Frame g connector width height) :
    Described g (bandsOf g height)
      (navarroStripParams g connector width height f.chunks
        (remember connector width height remembered before)).1
      (mapRecords g connector width height f.chunks
        (remember connector width height remembered before)) (sentBy (before ++ [f])) ↔
      bandsOf g height ≤ 243 ∧ ∀ s ∈ sentBy (before ++ [f]), (slot g s).1 < 32 := by
  have hrun : Kept g (bandsOf g height) ([] ++ sentBy before)
      (carried (bandsOf g height) (remember connector width height remembered before)) :=
    Kept.run hw hh hfresh.kept
  have hkept := hrun.call hw hh f
  have hsent : sentBy (before ++ [f]) = [] ++ sentBy before ++ f.sent := by
    simp [sentBy]
  rw [← hsent] at hkept
  exact described_iff _ hkept fun s hs => slot_of_mem_sentBy hw hh hs

/-- **The strip map describes what the dock holds** exactly when the surface has at most 243 bands
and nothing was sent to the right of column 4096.  A taller surface makes the second record longer
than the dock takes, and strips beyond the 32nd of a band have no entry. -/
theorem strip_map_iff (g : Geometry) (hg : g.stripWShift = 7) (connector : UInt8)
    (width height : ℕ) (hw : width ≤ 65535) (hh : height ≤ 65535) (remembered : List UInt8)
    (hfresh : Fresh ((height + 7) / 8) remembered)
    (frames : List (Frame g connector width height)) (hne : frames ≠ []) :
    (∀ before f after, frames = before ++ f :: after →
      Described g ((height + 7) / 8)
        (navarroStripParams g connector width height f.chunks
          (remember connector width height remembered before)).1
        (mapRecords g connector width height f.chunks
          (remember connector width height remembered before)) (sentBy (before ++ [f]))) ↔
      height ≤ 1944 ∧ ∀ f ∈ frames, ∀ s ∈ f.strips, (stripX s).toNat < 4096 := by
  have hW : g.stripW = 128 := by rw [Geometry.stripW, hg]; rfl
  have hH : g.stripHShift = 3 := by
    rcases g.layout with ⟨h, -⟩ | ⟨-, h⟩
    · omega
    · exact h
  have hbands : bandsOf g height = (height + 7) / 8 := by
    rw [bandsOf, Geometry.stripH, hH]
    rfl
  have hslot : ∀ s, (slot g s).1 < 32 ↔ (stripX s).toNat < 4096 := by
    intro s
    show (stripX s).toNat / g.stripW < 32 ↔ _
    rw [hW]
    omega
  have hcall := fun before f => described_call hw hh (hbands.symm ▸ hfresh) before
    (f : Frame g connector width height)
  rw [hbands] at hcall
  simp only [hcall, hslot]
  constructor
  · intro h
    obtain ⟨last, rest, hrest⟩ : ∃ last rest, frames = rest ++ [last] :=
      ⟨frames.getLast hne, frames.dropLast, (List.dropLast_append_getLast hne).symm⟩
    obtain ⟨hheight, hcolumn⟩ := h rest last [] hrest
    refine ⟨by omega, fun f hf s hs => hcolumn s ?_⟩
    rw [← hrest]
    exact List.mem_flatMap.2 ⟨f, hf, Frame.mem_sent.2 hs⟩
  · rintro ⟨hheight, hcolumn⟩ before f after rfl
    refine ⟨by omega, fun s hs => ?_⟩
    obtain ⟨f', hf', hs⟩ := List.mem_flatMap.1 hs
    refine hcolumn f' ?_ s (Frame.mem_sent.1 hs)
    rcases List.mem_append.1 hf' with h | h
    · exact List.mem_append_left _ h
    · exact List.mem_append_right _ (List.mem_cons.2 (.inl (List.mem_singleton.1 h)))

end Runs

/-- A strip of nothing but zeros in the corner of a surface. -/
def cornerStrip : List UInt8 :=
  colourStrip profileNavarro.geometry (List.replicate 16 ⟨0, 0, 0, 0, 0, 0⟩) 0 0

theorem exists_cornerFrame {width height : ℕ} (hw : 0 < width) (hh : 0 < height) :
    ∃ f : Frame profileNavarro.geometry 0 width height, f.strips = [cornerStrip] := by
  have hshort : ¬∃ s ∈ [cornerStrip], 4062 < s.length := by decide +kernel
  rcases frameRecordsWithBoundary_spec profileNavarro.geometry [cornerStrip] 0 none with
    ⟨hlong, -⟩ | ⟨cut, -, hok, -, -⟩
  · exact absurd hlong hshort
  · refine ⟨⟨[cornerStrip], none, _, fun s hs => ?_, hok⟩, rfl⟩
    rw [List.mem_singleton.1 hs]
    refine ⟨List.replicate 16 ⟨0, 0, 0, 0, 0, 0⟩, 0, 0, ?_, ?_, ?_⟩
    · rwa [Nat.zero_mul]
    · rwa [Nat.zero_mul]
    · rw [Nat.zero_mul, Nat.zero_mul]
      rfl

theorem fresh_nil (bands : ℕ) : Fresh bands [] := fun _ _ hb => absurd hb List.not_mem_nil

/-- A frame at 2560×1440. -/
theorem strip_map_iff_qhd :
    ∃ f : Frame profileNavarro.geometry 0 2560 1440, f.strips = [cornerStrip] ∧
      Described profileNavarro.geometry ((1440 + 7) / 8)
        (navarroStripParams profileNavarro.geometry 0 2560 1440 f.chunks []).1
        (mapRecords profileNavarro.geometry 0 2560 1440 f.chunks []) (sentBy [f]) := by
  obtain ⟨f, hf⟩ := exists_cornerFrame (show 0 < 2560 by omega) (show 0 < 1440 by omega)
  refine ⟨f, hf, ?_⟩
  refine (strip_map_iff profileNavarro.geometry rfl 0 2560 1440 (by omega) (by omega) []
    (fresh_nil _) [f] (List.cons_ne_nil _ _)).2 ⟨by omega, fun f' hf' s hs => ?_⟩ [] f [] rfl
  rw [List.mem_singleton.1 hf', hf] at hs
  rw [List.mem_singleton.1 hs]
  decide +kernel

/-- At 3840×2160 the second record is 4968 bytes long. -/
theorem strip_map_overflows_uhd :
    ∃ f : Frame profileNavarro.geometry 0 3840 2160, f.strips = [cornerStrip] ∧
      ¬Described profileNavarro.geometry (bandsOf profileNavarro.geometry 2160)
        (navarroStripParams profileNavarro.geometry 0 3840 2160 f.chunks []).1
        (mapRecords profileNavarro.geometry 0 3840 2160 f.chunks []) (sentBy [f]) := by
  obtain ⟨f, hf⟩ := exists_cornerFrame (show 0 < 3840 by omega) (show 0 < 2160 by omega)
  refine ⟨f, hf, fun h => ?_⟩
  have hcall := (described_call (by omega) (by omega) (fresh_nil _) [] f).1 h
  have hbands : ¬bandsOf profileNavarro.geometry 2160 ≤ 243 := by decide +kernel
  exact hbands hcall.1

end Vino.Haar.StripMap
