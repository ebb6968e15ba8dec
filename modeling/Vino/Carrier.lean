import Vino.FrameBuilders
import Vino.Haar.Framing
import Vino.Haar.Lengths
import Vino.Lib.Batches

/-!
# The Black Carrier

A black frame is framed without a look at pixels.  Its strips are those of a black surface, so it
differs from the full frame of black in the producer order it asks for only: the ordinary full frame
asks for it when the surface has 3600 strips, the ordinary carrier always.  Without 3600 strips the
order of the strips is the generic one for both, but the flushes of the ordinary order are made all
the same.

* `carrier_iff`: the ordinary carrier is the ordinary full frame of black exactly when the flushes
  fall where a record begins anyway; a dock without interlaced bands never flushes, and there either
  carrier is the full frame of black.
* `carrier_differs`: on a 3840×2160 surface of a Navarro dock the two differ.
-/

namespace Vino.Carrier

open Vino.Haar.Transform Vino.Haar.Strip Vino.Haar.Records Vino.Haar.Framing Vino.Haar.Lengths
open Vino.Haar.Range Vino.Scanout Vino.Damage Vino.Stream Vino.FrameBuilders Vino.Lib.Batches
open Vino.Lib.Bits

/-! ### The builders -/

/-- An all-black frame in the given producer order. -/
def blackFrameEp08Variant (g : Geometry) (width height : ℕ) (connector : UInt8)
    (navarroOrdinary : Option Bool) : Except Errno (List (List UInt8)) :=
  if width % g.stripW ≠ 0 ∨ height % g.stripH ≠ 0 then .error .EINVAL
  else
    let strips := (List.range (height / g.stripH)).flatMap fun ty =>
      (List.range (width / g.stripW)).map fun tx =>
        colourStrip g (List.replicate 16 blackBlock) (UInt16.ofNat (tx * g.stripW))
          (UInt16.ofNat (ty * g.stripH))
    frameRecordsWithBoundary g strips connector navarroOrdinary

theorem blackFrameEp08_eq (g : Geometry) (w h : ℕ) (c : UInt8) :
    blackFrameEp08 g w h c = blackFrameEp08Variant g w h c (some false) := rfl

/-- The ordinary carrier, which follows the prologue frame. -/
def blackFrameEp08Ordinary (g : Geometry) (width height : ℕ) (connector : UInt8) :
    Except Errno (List (List UInt8)) :=
  blackFrameEp08Variant g width height connector (some true)

def black : PixelSource := fun _ _ => (0, 0, 0)

/-! ### Black strips -/

variable (g : Geometry) (w h : ℕ)

def blackStrip (p : ℕ × ℕ) : List UInt8 :=
  colourStrip g (List.replicate 16 blackBlock) (UInt16.ofNat p.1) (UInt16.ofNat p.2)

/-- The strips of a black surface. -/
def blackStrips : List (List UInt8) := (allStripCoords g w h).map (blackStrip g)

theorem greyBlock_zero : greyBlock 0 = blackBlock := by
  have hzero : (fun i : Fin 64 => if i = 0 then 4 * ((0 : ℕ) : ℤ) else 0) = fun _ => 0 := by
    funext i
    simp
  simp only [greyBlock, blackBlock, hzero]
  rfl

theorem colourStripAt_black (p : ℕ × ℕ) :
    colourStripAt g p.1 p.2 black = some (blackStrip g p) := by
  have hblocks : colourStripBlocks g p.1 p.2 black = some (List.replicate 16 blackBlock) := by
    rw [← greyBlock_zero]
    exact colourStripBlocks_grey (v := 0) (by decide) (fun _ _ => rfl) p.1 p.2
  rw [colourStripAt, hblocks]
  rfl

theorem length_blackStrip (p : ℕ × ℕ) : (blackStrip g p).length = 54 := by
  rw [blackStrip, length_colourStrip_eq]
  cases g.depth <;> decide +kernel

variable {g w h}

theorem allStripCoords_aligned (hw : g.stripW ∣ w) (hh : g.stripH ∣ h) :
    allStripCoords g w h = (List.range (h / g.stripH)).flatMap fun ty =>
      (List.range (w / g.stripW)).map fun tx => (tx * g.stripW, ty * g.stripH) := by
  have hround : ∀ d n : ℕ, 0 < d → d ∣ n → (n + d - 1) / d = n / d := by
    rintro d _ hd ⟨m, rfl⟩
    rw [Nat.add_sub_assoc hd, Nat.mul_add_div hd, Nat.div_eq_of_lt (by omega),
      Nat.mul_div_cancel_left m hd, Nat.add_zero]
  rw [allStripCoords, hround _ _ (stripW_pos g) hw, hround _ _ (stripH_pos g) hh]

theorem length_blackStrips (hw : g.stripW ∣ w) (hh : g.stripH ∣ h) :
    (blackStrips g w h).length = h / g.stripH * (w / g.stripW) := by
  rw [blackStrips, List.length_map, allStripCoords_aligned hw hh, length_grid]

/-- **Both builders frame the same strips.** -/
theorem blackFrame_eq (hw : g.stripW ∣ w) (hh : g.stripH ∣ h) (c : UInt8) (o : Option Bool) :
    blackFrameEp08Variant g w h c o = frameRecordsWithBoundary g (blackStrips g w h) c o := by
  have haligned : ¬(w % g.stripW ≠ 0 ∨ h % g.stripH ≠ 0) := by
    rw [not_or, not_not, not_not]
    exact ⟨Nat.mod_eq_zero_of_dvd hw, Nat.mod_eq_zero_of_dvd hh⟩
  rw [blackFrameEp08Variant, if_neg haligned, blackStrips, allStripCoords_aligned hw hh]
  simp only [List.map_flatMap, List.map_map]
  rfl

theorem colourFrame_black (hw : g.stripW ∣ w) (hh : g.stripH ∣ h) (c : UInt8) (o : Option Bool) :
    colourFrameEp08Variant g w h c o black =
      some (frameRecordsWithBoundary g (blackStrips g w h) c
        (o.filter fun _ => (blackStrips g w h).length = 3600)) := by
  have haligned : misaligned g w h = false := by
    simp only [misaligned, Nat.mod_eq_zero_of_dvd hw, Nat.mod_eq_zero_of_dvd hh]
    rfl
  have hstrips : ((allStripCoords g w h).mapM fun p => colourStripAt g p.1 p.2 black) =
      some (blackStrips g w h) :=
    mapM_eq_some _ fun p _ => colourStripAt_black g p
  rw [colourFrameEp08Variant, haligned, hstrips]
  rfl

/-! ### Records of black strips -/

/-- What the strips of a record have in common. -/
def recordKey (g : Geometry) (s : List UInt8) : UInt16 := if g.bandParityBit then stripY s else 0

/-- Whether a record ends before strip `i`. -/
def flush (g : Geometry) (o : Option Bool) (i : ℕ) : Bool :=
  g.interlacedBands && producerBoundary o i

/-- The black strips a record carries. -/
def recordStrips : ℕ := 72

theorem fill_black (g : Geometry) (o : Option Bool) (s0 : List UInt8) (l : List (List UInt8)) :
    ∀ (i n : ℕ) (record : List UInt8), 0 < n → record.length = 16 + 56 * n →
      (∀ s ∈ l, s.length = 54) →
      let m := more (recordKey g) recordStrips (flush g o) (recordKey g s0) i n l
      fill g o (stripY s0) i n record l =
        .ok (record ++ (l.take m).flatMap stripWord, i + m, l.drop m) := by
  induction l with
  | nil =>
      intro i n record _ _ _
      simp [fill, more]
  | cons s l ih =>
      intro i n record hn hrec hlen m
      have hs := hlen s List.mem_cons_self
      have hband : (g.bandParityBit && stripY s != stripY s0) = true ↔
          recordKey g s ≠ recordKey g s0 := by
        unfold recordKey
        cases g.bandParityBit <;> simp
      have hflush : (g.interlacedBands && decide (n > 0) && producerBoundary o i) =
          flush g o i := by
        rw [decide_eq_true hn, Bool.and_true]
        rfl
      have hcap : (record.length + 2 + s.length + 15) / 16 * 16 > strideCap ↔ recordStrips ≤ n := by
        unfold strideCap recordStrips
        omega
      rw [fill_cons, hflush]
      by_cases hstop : recordKey g s ≠ recordKey g s0 ∨ flush g o i = true ∨ recordStrips ≤ n
      · have hm : m = 0 := if_pos hstop
        rw [hm, List.take_zero, List.drop_zero, List.flatMap_nil, List.append_nil, Nat.add_zero i]
        by_cases h1 : (g.bandParityBit && stripY s != stripY s0) = true
        · rw [if_pos h1]
        by_cases h2 : flush g o i = true
        · rw [if_neg h1, if_pos h2]
        have h3 := (hstop.resolve_left fun h => h1 (hband.2 h)).resolve_left h2
        rw [if_neg h1, if_neg h2, if_pos (hcap.2 h3), if_pos hn]
      · have hm : m = more (recordKey g) recordStrips (flush g o) (recordKey g s0) (i + 1) (n + 1) l
            + 1 := if_neg hstop
        rw [not_or, not_or] at hstop
        obtain ⟨h1, h2, h3⟩ := hstop
        rw [if_neg (fun h => h1 (hband.1 h)), if_neg h2, if_neg (fun h => h3 (hcap.1 h)),
          ih (i + 1) (n + 1) _ (Nat.succ_pos n) ?_
            fun s' hs' => hlen s' (List.mem_cons_of_mem s hs'), hm]
        · rw [List.take_succ_cons, List.drop_succ_cons, List.flatMap_cons, stripWord,
            Nat.add_assoc i 1, Nat.add_comm 1]
          simp only [List.append_assoc]
        · simp only [List.length_append, length_u16Bytes, hrec, hs]
          omega

/-- The runs the strips are framed in. -/
def runsOf (g : Geometry) (o : Option Bool) (l : List (List UInt8)) : List (List (List UInt8)) :=
  batches (recordKey g) recordStrips (flush g o) l.length 0 l

theorem imageRecords_black (g : Geometry) (c : UInt8) (o : Option Bool) :
    ∀ (fuel i : ℕ) (l : List (List UInt8)), l.length ≤ fuel → (∀ s ∈ l, s.length = 54) →
      imageRecords g c o fuel i l =
        .ok ((batches (recordKey g) recordStrips (flush g o) fuel i l).map (recordOf g c)) := by
  intro fuel
  induction fuel with
  | zero =>
      intro i l hl _
      rw [List.length_eq_zero_iff.1 (Nat.le_zero.1 hl)]
      rfl
  | succ fuel ih =>
      intro i l hl hlen
      rcases l with _ | ⟨s, l⟩
      · rfl
      have hs := hlen s List.mem_cons_self
      have hfirst : fill g o (stripY s) i 0 (List.replicate 16 0) (s :: l) =
          fill g o (stripY s) (i + 1) 1
            (List.replicate 16 0 ++ u16Bytes (UInt16.ofNat s.length) ++ s) l := by
        rw [fill_cons, if_neg (by simp), if_neg (by simp), if_neg]
        rw [List.length_replicate, hs]
        decide
      have hmore := fill_black g o s l (i + 1) 1
        (List.replicate 16 0 ++ u16Bytes (UInt16.ofNat s.length) ++ s) Nat.one_pos
        (by simp only [List.length_append, List.length_replicate, length_u16Bytes, hs])
        fun s' hs' => hlen s' (List.mem_cons_of_mem s hs')
      have hml := more_le_length (recordKey g) recordStrips (flush g o) (recordKey g s) (i + 1) 1 l
      rw [batches]
      simp only [imageRecords, hfirst, hmore]
      generalize more (recordKey g) recordStrips (flush g o) (recordKey g s) (i + 1) 1 l = m
        at hml ⊢
      have hrest := ih (i + 1 + m) (l.drop m)
        (by rw [List.length_drop]; rw [List.length_cons] at hl; omega)
        fun s' hs' => hlen s' (List.mem_cons_of_mem s (List.drop_subset _ _ hs'))
      simp only [bind, Except.bind, hrest, List.map_cons]
      refine congrArg (fun r => Except.ok (r :: _)) ?_
      simp only [recordOf, List.headD_cons, List.flatMap_cons, stripWord, List.append_assoc]

theorem group_of_batch {g : Geometry} {o : Option Bool} {l : List (List UInt8)}
    (hlen : ∀ s ∈ l, s.length = 54) : ∀ group ∈ runsOf g o l, Group g group := by
  intro group hgroup
  obtain ⟨s, rest, rfl, hcount, hsub, hkey⟩ :=
    mem_batches (recordKey g) recordStrips (flush g o) (by decide) _ _ l group hgroup
  have hpay : (payload (s :: rest)).length = 56 * (s :: rest).length := by
    have hword : ∀ s' ∈ s :: rest, (stripWord s').length = 56 := by
      intro s' hs'
      rw [stripWord, List.length_append, length_u16Bytes, hlen s' (hsub hs')]
    rw [payload, List.length_flatMap, List.map_congr_left hword, List.map_const',
      List.sum_replicate, smul_eq_mul, Nat.mul_comm]
  refine ⟨List.cons_ne_nil _ _, ?_, fun s' hs' => ?_, fun hp s' hs' => ?_⟩
  · unfold recordStrips at hcount
    omega
  · rw [hlen s' (hsub hs')]
    omega
  · have := hkey s' hs'
    rwa [recordKey, recordKey, if_pos hp, if_pos hp] at this

/-! ### Frames of black strips -/

theorem packChunks_flatten (records : List (List UInt8)) (hne : ∀ r ∈ records, r ≠ []) :
    (packChunks [] records).flatten = records.flatten := by
  obtain ⟨parts, hparts, hflat⟩ := packChunks_spec records hne [] fun _ h => by cases h
  rw [List.flatten_nil] at hparts
  rw [hparts, ← List.flatten_flatten, hflat, List.nil_append]

/-- **The runs can be read off the chunks.** -/
theorem packed_inj {g : Geometry} {c : UInt8} {rs rs' : List (List (List UInt8))}
    (hrs : ∀ r ∈ rs, Group g r) (hrs' : ∀ r ∈ rs', Group g r)
    (h : packChunks [] (rs.map (recordOf g c)) = packChunks [] (rs'.map (recordOf g c))) :
    rs = rs' := by
  have hne : ∀ (l : List (List (List UInt8))), (∀ r ∈ l, Group g r) →
      ∀ record ∈ l.map (recordOf g c), record ≠ [] := by
    intro l hl record hrecord
    obtain ⟨r, hr, rfl⟩ := List.mem_map.1 hrecord
    exact recordOf_ne_nil c (hl r hr)
  have hbytes := congrArg List.flatten h
  rw [packChunks_flatten _ (hne rs hrs), packChunks_flatten _ (hne rs' hrs')] at hbytes
  have hviews := congrArg walkRecords hbytes
  rw [walkRecords_groups c hrs, walkRecords_groups c hrs', Option.some_inj] at hviews
  have hread : ∀ l : List (List (List UInt8)), (∀ r ∈ l, Group g r) →
      (l.map (viewOf g c)).map Record.strips = l.map some := by
    intro l hl
    rw [List.map_map]
    exact List.map_congr_left fun r hr => strips_viewOf c (hl r hr)
  have hsome := congrArg (List.map Record.strips) hviews
  rw [hread rs hrs, hread rs' hrs'] at hsome
  exact List.map_injective_iff.2 (Option.some_injective _) hsome

theorem frame_black (g : Geometry) (strips : List (List UInt8)) (c : UInt8) (o : Option Bool)
    (hlen : ∀ s ∈ strips, s.length = 54) :
    frameRecordsWithBoundary g strips c o =
      .ok (packChunks [] ((runsOf g o (emitted g strips o)).map (recordOf g c))) := by
  have hsent : ∀ s ∈ emitted g strips o, s.length = 54 := fun s hs =>
    hlen s ((ordered_perm g strips o).mem_iff.1 hs)
  have hrecords := imageRecords_black g c o (emitted g strips o).length 0 (emitted g strips o)
    le_rfl hsent
  unfold frameRecordsWithBoundary
  rw [← emitted]
  simp only [bind, Except.bind, hrecords]
  rfl

/-- Without 3600 strips the order is the generic one. -/
theorem emitted_generic (g : Geometry) {strips : List (List UInt8)} (hne : strips.length ≠ 3600)
    (o : Option Bool) : emitted g strips o = emitted g strips none := by
  have hlayout : navarroLayout g strips = false := by
    rw [navarroLayout, beq_false_of_ne hne, Bool.and_false]
  simp only [emitted, sendOrder, hlayout, Bool.false_and]

/-! ### The two carriers -/

/-- The strips of a surface. -/
def stripCount (g : Geometry) (w h : ℕ) : ℕ := h / g.stripH * (w / g.stripW)

/-- The bands of the strips of a surface, in the generic order of sending. -/
def bandsSent (g : Geometry) (w h : ℕ) : List UInt16 :=
  (emitted g (blackStrips g w h) none).map stripY

/-- The flushes of the ordinary order fall on a surface of 3600 strips, or nowhere, or where a
record begins anyway. -/
def Unflushed (g : Geometry) (w h : ℕ) : Prop :=
  g.interlacedBands = false ∨ stripCount g w h = 3600 ∨ stripCount g w h ≤ 2032 ∨
    g.bandParityBit = true ∧ ∀ b, b = 2032 ∨ b = 2048 ∨ b = 2804 → b < stripCount g w h →
      runBefore (bandsSent g w h) b % recordStrips = 0

theorem flush_ordinary (g : Geometry) (i : ℕ) :
    flush g (some true) i = true ↔
      g.interlacedBands = true ∧ (i = 2032 ∨ i = 2048 ∨ i = 2804) := by
  simp only [flush, producerBoundary, Bool.and_eq_true, Bool.or_eq_true, beq_iff_eq, or_assoc]

/-- The flushes change nothing exactly where a record begins anyway. -/
theorem runs_eq_iff (g : Geometry) (l : List (List UInt8)) :
    runsOf g (some true) l = runsOf g none l ↔
      g.interlacedBands = false ∨ ∀ b, b = 2032 ∨ b = 2048 ∨ b = 2804 → b < l.length →
        runBefore (l.map (recordKey g)) b % recordStrips = 0 := by
  have hplain : flush g none = fun _ => false := by
    funext i
    rw [flush, producerBoundary, Bool.and_false]
  rw [runsOf, runsOf, hplain, batches_eq_iff (recordKey g) recordStrips _ (by decide) _ 0 l le_rfl]
  simp only [Nat.zero_add, flush_ordinary]
  constructor
  · intro hall
    cases hi : g.interlacedBands with
    | false => exact .inl rfl
    | true => exact .inr fun b hb hlt => hall b hlt ⟨hi, hb⟩
  · rintro (hi | hall) b hlt ⟨hi', hb⟩
    · rw [hi] at hi'
      cases hi'
    · exact hall b hb hlt

/-- Without band parity a record is full before it ends. -/
theorem runBefore_const {l : List UInt16} {y : UInt16} (hl : ∀ z ∈ l, z = y) {b : ℕ}
    (hb : b < l.length) : runBefore l b = b := by
  refine runBefore_inside (y := y) ?_ (fun z hz => hl z (List.take_subset _ _ hz)) hb.le
  rw [List.getElem?_eq_getElem hb, hl _ (List.getElem_mem hb)]

theorem blackStrips_short (g : Geometry) (w h : ℕ) : ∀ s ∈ blackStrips g w h, s.length = 54 := by
  intro s hs
  obtain ⟨p, -, rfl⟩ := List.mem_map.1 hs
  exact length_blackStrip g p

section Aligned

variable {g : Geometry} {w h : ℕ} (hw : g.stripW ∣ w) (hh : g.stripH ∣ h)
include hw hh

/-- **The ordinary carrier against the ordinary full frame of black.** -/
theorem ordinary_iff (c : UInt8) :
    colourFrameEp08NavarroOrdinary g w h c black = some (blackFrameEp08Ordinary g w h c) ↔
      Unflushed g w h := by
  have hshort := blackStrips_short g w h
  have hcount : (blackStrips g w h).length = stripCount g w h := length_blackStrips hw hh
  rw [colourFrameEp08NavarroOrdinary, blackFrameEp08Ordinary, colourFrame_black hw hh,
    blackFrame_eq hw hh, Option.some_inj, hcount]
  by_cases hfull : stripCount g w h = 3600
  · rw [hfull]
    exact iff_of_true rfl (.inr (.inl hfull))
  have hfilter : ((some true).filter fun _ => decide (stripCount g w h = 3600)) = none := by
    rw [decide_eq_false hfull]
    rfl
  have hsent : emitted g (blackStrips g w h) (some true) = emitted g (blackStrips g w h) none :=
    emitted_generic g (by rwa [hcount]) _
  have hlen : (emitted g (blackStrips g w h) none).length = stripCount g w h :=
    (ordered_perm g _ none).length_eq.trans hcount
  have hall : ∀ s ∈ emitted g (blackStrips g w h) none, s.length = 54 := fun s hs =>
    hshort s ((ordered_perm g _ none).mem_iff.1 hs)
  have hframes : frameRecordsWithBoundary g (blackStrips g w h) c none =
      frameRecordsWithBoundary g (blackStrips g w h) c (some true) ↔
      runsOf g (some true) (emitted g (blackStrips g w h) none) =
        runsOf g none (emitted g (blackStrips g w h) none) := by
    rw [frame_black g _ c none hshort, frame_black g _ c (some true) hshort, hsent]
    constructor
    · intro heq
      exact (packed_inj (group_of_batch hall) (group_of_batch hall) (Except.ok.inj heq)).symm
    · intro heq
      rw [heq]
  rw [hfilter, hframes, runs_eq_iff, hlen, Unflushed, or_iff_right hfull]
  refine or_congr_right ?_
  cases hp : g.bandParityBit with
  | false =>
      have hkey : ∀ z ∈ (emitted g (blackStrips g w h) none).map (recordKey g), z = 0 := by
        intro z hz
        obtain ⟨s, -, rfl⟩ := List.mem_map.1 hz
        rw [recordKey, hp]
        rfl
      have hrun : ∀ b < stripCount g w h,
          runBefore ((emitted g (blackStrips g w h) none).map (recordKey g)) b = b := fun b hb =>
        runBefore_const hkey (by rwa [List.length_map, hlen])
      constructor
      · intro hflush
        by_contra hno
        rw [not_or, not_le] at hno
        have := hflush 2032 (.inl rfl) hno.1
        rw [hrun _ hno.1] at this
        exact absurd this (by decide)
      · rintro (hle | ⟨hfalse, -⟩) b hb hlt
        · omega
        · cases hfalse
  | true =>
      have hkey : (emitted g (blackStrips g w h) none).map (recordKey g) = bandsSent g w h := by
        refine List.map_congr_left fun s _ => ?_
        rw [recordKey, hp]
        rfl
      rw [hkey, and_iff_right rfl]
      refine ⟨.inr, ?_⟩
      rintro (hle | hflush)
      · intro b hb hlt
        omega
      · exact hflush

/-- A dock without interlaced bands has one order and no flushes. -/
theorem raster_black (hi : g.interlacedBands = false) (c : UInt8) :
    colourFrameEp08 g w h c black = some (blackFrameEp08 g w h c) := by
  have hshort := blackStrips_short g w h
  have hflush : ∀ o, flush g o = fun _ => false := by
    intro o
    funext i
    rw [flush, hi, Bool.false_and]
  have hsent : ∀ o, emitted g (blackStrips g w h) o = emitted g (blackStrips g w h) none := by
    intro o
    have hlayout : navarroLayout g (blackStrips g w h) = false := by
      rw [navarroLayout, hi, Bool.false_and, Bool.false_and]
    simp only [emitted, sendOrder, hlayout, Bool.false_and]
  rw [colourFrameEp08, colourFrame_black hw hh, blackFrameEp08_eq, blackFrame_eq hw hh,
    Option.filter_none, frame_black g _ c none hshort, frame_black g _ c (some false) hshort,
    hsent (some false), runsOf, runsOf, hflush none, hflush (some false)]

end Aligned

/-- **The black carrier.**  On a surface of whole strips the ordinary carrier is the ordinary full
frame of black, and on a dock without interlaced bands the prologue carrier is the full frame of
black, exactly when the flushes of the ordinary order change nothing. -/
theorem carrier_iff (g : Geometry) (w h : ℕ) (hw : g.stripW ∣ w) (hh : g.stripH ∣ h) (c : UInt8) :
    colourFrameEp08NavarroOrdinary g w h c black = some (blackFrameEp08Ordinary g w h c) ∧
        (g.interlacedBands = false →
          colourFrameEp08 g w h c black = some (blackFrameEp08 g w h c)) ↔
      Unflushed g w h := by
  rw [ordinary_iff hw hh c, and_iff_left fun hi => raster_black hw hh hi c]

/-- The ordinary order of a full 2560×1440 surface. -/
theorem carrier_of_captured_surface :
    colourFrameEp08NavarroOrdinary Profile.profileNavarro.geometry 2560 1440 0 black =
      some (blackFrameEp08Ordinary Profile.profileNavarro.geometry 2560 1440 0) :=
  ((carrier_iff Profile.profileNavarro.geometry 2560 1440 (by decide) (by decide) 0).2
    (.inr (.inl (by decide)))).1

/-- On a 3840×2160 surface the ordinary carrier is cut where no record of black ends. -/
theorem carrier_differs :
    ¬ ∀ (g : Geometry) (w h : ℕ), g.stripW ∣ w → g.stripH ∣ h → ∀ c : UInt8,
      colourFrameEp08NavarroOrdinary g w h c black = some (blackFrameEp08Ordinary g w h c) ∧
        (g.interlacedBands = false →
          colourFrameEp08 g w h c black = some (blackFrameEp08 g w h c)) := by
  intro hall
  have heq := (hall Profile.profileNavarro.geometry 3840 2160 (by decide) (by decide) 0).1
  rw [ordinary_iff (by decide) (by decide)] at heq
  rcases heq with h | h | h | ⟨h, -⟩
  · exact absurd h (by decide)
  · exact absurd h (by decide)
  · exact absurd h (by decide)
  · exact absurd h (by decide)

end Vino.Carrier
