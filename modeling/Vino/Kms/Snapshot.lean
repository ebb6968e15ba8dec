import Vino.Damage
import Vino.Lib.Buffer
import Vino.Lib.Guarded

/-!
# Snapshots of a Framebuffer

A commit copies the framebuffer into the shadow surface of a slot, band by band: the rows of the
band are read into a scratch buffer, each strip is hashed there, and copied on only if its hash is
not the stored one.  A surface that was just allocated is copied whole.  Every read of a row and
every allocation may fail, and what was done up to there stays.  The hash is a parameter, which is
injective at each position; the type of its values is one too, since sixty-four bits are too few for
that.

* `copyAll_spec`: what a copy does to every pixel and every stored hash,
* `snapshot_kept`: behind any calls, every strip has its hash stored, or was never written,
* `snapshot_exact_iff`: when a call that returns leaves an exact snapshot,
* `aborted_then_blank`: a first call fails, and the next one leaves a strip blank.
-/

namespace Vino.Kms.Snapshot

open Vino.Haar.Strip Vino.Damage Vino.Lib.Buffer Vino.Lib.Guarded

/-! ### Surfaces and calls -/

structure ShadowSurface (η : Type) where
  w : ℕ
  h : ℕ
  pixels : List UInt8
  /-- Per-strip content hashes. -/
  hashes : List η
  /-- Scratch holding one band of the source. -/
  band : List UInt8
  deriving DecidableEq

/-- The allocations of a call, in order. -/
inductive Alloc where
  | pixels
  | hashes
  | band
  | resizedHashes
  | resizedBand
  deriving DecidableEq

/-- One call: the size, the source, and what of it fails. -/
structure Call where
  w : ℕ
  h : ℕ
  pitch : ℕ
  bytes : List UInt8
  allocFails : Alloc → Bool
  rowFails : ℕ → Bool

inductive Errno where
  | inval
  | nomem
  | io
  deriving DecidableEq

namespace Call

/-- The byte `x` of row `y` of the source. -/
def src (c : Call) (y x : ℕ) : UInt8 := c.bytes.getD (y * c.pitch + x) 0

def row (c : Call) : ℕ := c.w * 4

/-- `try_copy_to_slice` of one row. -/
def readRow (c : Call) (y : ℕ) : Option (List UInt8) :=
  if c.rowFails y ∨ c.bytes.length < y * c.pitch + c.row then none
  else some ((c.bytes.drop (y * c.pitch)).take c.row)

end Call

section Model

variable {η : Type} [DecidableEq η] (hash : ℕ → ℕ → List UInt8 → η) (zero : η) (g : Geometry)

def paddedWidth (w : ℕ) : ℕ := (w + g.stripW - 1) / g.stripW * g.stripW

def paddedHeight (h : ℕ) : ℕ := (h + g.stripH - 1) / g.stripH * g.stripH

def tilesX (w : ℕ) : ℕ := paddedWidth g w / g.stripW

def tilesY (h : ℕ) : ℕ := paddedHeight g h / g.stripH

/-- The rows of a band; the last band may be short. -/
def rows (h ty : ℕ) : ℕ := min (ty * g.stripH + g.stripH) h - ty * g.stripH

/-- The bytes of a row of a strip; the last strip may be narrow. -/
def rowBytes (w tx : ℕ) : ℕ := (min (tx * g.stripW + g.stripW) w - tx * g.stripW) * 4

/-- A slice of a buffer, if it is in bounds. -/
def slice (l : List UInt8) (a n : ℕ) : Option (List UInt8) :=
  if a + n ≤ l.length then some ((l.drop a).take n) else none

/-- The bytes a strip is hashed over, row by row. -/
def stripBytes (c : Call) (band : List UInt8) (tx ty : ℕ) : Option (List UInt8) :=
  ((List.range (rows g c.h ty)).mapM fun dy =>
    slice band (dy * c.row + tx * g.stripW * 4) (rowBytes g c.w tx)).map List.flatten

/-- One row of a band, read from the source. -/
def loadRow (c : Call) (ty dy : ℕ) (s : ShadowSurface η) : Outcome Errno (ShadowSurface η) :=
  if dy * c.row + c.row ≤ s.band.length then
    match c.readRow (ty * g.stripH + dy) with
    | none => .failed .io s
    | some bytes => .done { s with band := copyAt (dy * c.row) bytes s.band }
  else .panicked

/-- One row of a strip, copied out of the band. -/
def copyRow (c : Call) (ty tx dy : ℕ) (s : ShadowSurface η) :
    Outcome Errno (ShadowSurface η) :=
  let dst := (ty * g.stripH + dy) * c.row + tx * g.stripW * 4
  match slice s.band (dy * c.row + tx * g.stripW * 4) (rowBytes g c.w tx) with
  | none => .panicked
  | some bytes =>
      if dst + rowBytes g c.w tx ≤ s.pixels.length then
        .done { s with pixels := copyAt dst bytes s.pixels }
      else .panicked

/-- One strip: hashed, copied if it is fresh or its hash moved, and its hash stored. -/
def copyStrip (c : Call) (fresh : Bool) (ty tx : ℕ) (s : ShadowSurface η) :
    Outcome Errno (ShadowSurface η) :=
  match stripBytes g c s.band tx ty with
  | none => .panicked
  | some bytes =>
      let digest := hash (tx * g.stripW) (ty * g.stripH) bytes
      let idx := ty * tilesX g c.w + tx
      if idx < s.hashes.length then
        (if tx * g.stripW < min (tx * g.stripW + g.stripW) c.w ∧
            (fresh ∨ s.hashes[idx]? ≠ some digest) then
          each (copyRow g c ty tx) (rows g c.h ty) s
        else .done s).bind fun s => .done { s with hashes := s.hashes.set idx digest }
      else .panicked

/-- One band. -/
def copyBand (c : Call) (fresh : Bool) (ty : ℕ) (s : ShadowSurface η) :
    Outcome Errno (ShadowSurface η) :=
  (each (loadRow g c ty) (rows g c.h ty) s).bind (each (copyStrip hash g c fresh ty) (tilesX g c.w))

def copyAll (c : Call) (fresh : Bool) (s : ShadowSurface η) : Outcome Errno (ShadowSurface η) :=
  each (copyBand hash g c fresh) (tilesY g c.h) s

/-- `resize` of a vector. -/
def resize {α : Type} (l : List α) (n : ℕ) (a : α) : List α :=
  l.take n ++ List.replicate (n - l.length) a

/-- A surface of the size of the call. -/
def newSurface (c : Call) : ShadowSurface η where
  w := c.w
  h := c.h
  pixels := List.replicate (c.row * c.h) 0
  hashes := List.replicate (tilesX g c.w * tilesY g c.h) zero
  band := List.replicate (g.stripH * c.row) 0

/-- The hashes are made to be one for each strip. -/
def fitHashes (c : Call) (s : ShadowSurface η) : Outcome Errno (ShadowSurface η) :=
  if s.hashes.length = tilesX g c.w * tilesY g c.h then .done s
  else if c.allocFails .resizedHashes then .failed .nomem s
  else .done { s with hashes := resize s.hashes (tilesX g c.w * tilesY g c.h) zero }

/-- The scratch buffer is made to hold one band. -/
def fitBand (c : Call) (s : ShadowSurface η) : Outcome Errno (ShadowSurface η) :=
  if s.band.length = g.stripH * c.row then .done s
  else if c.allocFails .resizedBand then .failed .nomem s
  else .done { s with band := resize s.band (g.stripH * c.row) 0 }

/-- The part of a call behind the allocation of the surface. -/
def refresh (c : Call) (fresh : Bool) (s : ShadowSurface η) : Outcome Errno (ShadowSurface η) :=
  ((fitHashes zero g c s).bind (fitBand g c)).bind (copyAll hash g c fresh)

def usizeEnd : ℕ := 2 ^ 64

/-- `snapshot_to_shadow`. -/
def snapshotToShadow (slot : Option (ShadowSurface η)) (c : Call) :
    Outcome Errno (Option (ShadowSurface η)) :=
  if c.w = 0 ∨ c.h = 0 ∨ usizeEnd ≤ c.row ∨ usizeEnd ≤ c.row * c.h ∨
      usizeEnd ≤ g.stripH * c.row then .failed .inval slot
  else
    match slot.filter fun s => s.w = c.w && s.h = c.h with
    | some s => (refresh hash zero g c false s).map some
    | none =>
        if c.allocFails .pixels ∨ c.allocFails .hashes ∨ c.allocFails .band then
          .failed .nomem slot
        else (refresh hash zero g c true (newSurface zero g c)).map some

/-- The slot behind a list of calls. -/
def snapshots (slot : Option (ShadowSurface η)) (calls : List Call) : Option (ShadowSurface η) :=
  calls.foldl (fun slot c => (snapshotToShadow hash zero g slot c).stateOr slot) slot

end Model

/-! ### Strips and pixels -/

section Grid

variable {g : Geometry} {w h tx ty x y : ℕ}

theorem tilesX_eq (g : Geometry) (w : ℕ) : tilesX g w = (w + g.stripW - 1) / g.stripW :=
  Nat.mul_div_cancel _ (stripW_pos g)

theorem tilesY_eq (g : Geometry) (h : ℕ) : tilesY g h = (h + g.stripH - 1) / g.stripH :=
  Nat.mul_div_cancel _ (stripH_pos g)

theorem lt_ceil_iff {n k i : ℕ} (hk : 0 < k) : i < (n + k - 1) / k ↔ i * k < n := by
  rw [Nat.lt_div_iff_mul_lt hk]
  omega

/-- A strip starts inside the surface. -/
theorem lt_tilesX : tx < tilesX g w ↔ tx * g.stripW < w := by
  rw [tilesX_eq, lt_ceil_iff (stripW_pos g)]

theorem lt_tilesY : ty < tilesY g h ↔ ty * g.stripH < h := by
  rw [tilesY_eq, lt_ceil_iff (stripH_pos g)]

/-- The byte of a row lies in a strip of the row. -/
theorem column_lt (hx : x < w * 4) : x / (g.stripW * 4) < tilesX g w := by
  rw [lt_tilesX]
  have hle := Nat.div_mul_le_self x (g.stripW * 4)
  rw [← Nat.mul_assoc] at hle
  omega

theorem band_lt (hy : y < h) : y / g.stripH < tilesY g h := by
  rw [lt_tilesY]
  exact (Nat.div_mul_le_self y g.stripH).trans_lt hy

/-- The rows of a band are the pixel rows in it. -/
theorem lt_rows_iff {dy : ℕ} :
    dy < rows g h ty ↔ ty * g.stripH + dy < h ∧ (ty * g.stripH + dy) / g.stripH = ty := by
  have hpos := stripH_pos g
  rw [rows, Nat.div_eq_iff hpos]
  omega

theorem lt_rowBytes_iff {k : ℕ} :
    k < rowBytes g w tx ↔
      tx * g.stripW * 4 + k < w * 4 ∧ (tx * g.stripW * 4 + k) / (g.stripW * 4) = tx := by
  have hpos := stripW_pos g
  rw [rowBytes, Nat.div_eq_iff (by omega), ← Nat.mul_assoc]
  omega

/-- A strip ends inside the row. -/
theorem rowBytes_le (hx : tx < tilesX g w) : tx * g.stripW * 4 + rowBytes g w tx ≤ w * 4 := by
  rw [lt_tilesX] at hx
  rw [rowBytes]
  omega

/-- Where a byte of a row stands in a flat buffer. -/
theorem flat_mem_iff {row y q a n : ℕ} (hx : x < row) (ha : a + n ≤ row) :
    q * row + a ≤ y * row + x ∧ y * row + x < q * row + a + n ↔ y = q ∧ a ≤ x ∧ x < a + n := by
  constructor
  · rintro ⟨hle, hlt⟩
    rcases Nat.lt_trichotomy y q with hyq | rfl | hyq
    · have hmul := Nat.mul_le_mul_right row hyq
      rw [Nat.succ_mul] at hmul
      omega
    · omega
    · have hmul := Nat.mul_le_mul_right row hyq
      rw [Nat.succ_mul] at hmul
      omega
  · rintro ⟨rfl, hle, hlt⟩
    omega

theorem flat_lt {row m : ℕ} (hx : x < row) (hy : y < m) : y * row + x < m * row := by
  have hmul := Nat.mul_le_mul_right row hy
  rw [Nat.succ_mul] at hmul
  omega

/-- The bytes of a strip, of an image that is given byte by byte. -/
def content (g : Geometry) (w h : ℕ) (f : ℕ → ℕ → UInt8) (tx ty : ℕ) : List UInt8 :=
  (List.range (rows g h ty)).flatMap fun dy => (List.range (rowBytes g w tx)).map fun k =>
    f (ty * g.stripH + dy) (tx * g.stripW * 4 + k)

/-- Two images agree on a strip. -/
def Agree (g : Geometry) (w h : ℕ) (f f' : ℕ → ℕ → UInt8) (tx ty : ℕ) : Prop :=
  ∀ y < h, ∀ x < w * 4, y / g.stripH = ty → x / (g.stripW * 4) = tx → f y x = f' y x

/-- **The bytes of a strip** are those of its pixels. -/
theorem content_eq_iff {f f' : ℕ → ℕ → UInt8} :
    content g w h f tx ty = content g w h f' tx ty ↔ Agree g w h f f' tx ty := by
  constructor
  · intro heq y hy x hx hty htx
    obtain ⟨dy, rfl⟩ : ∃ dy, y = ty * g.stripH + dy :=
      ⟨y - ty * g.stripH, by rw [← hty]; have := Nat.div_mul_le_self y g.stripH; omega⟩
    obtain ⟨k, rfl⟩ : ∃ k, x = tx * g.stripW * 4 + k := by
      refine ⟨x - tx * g.stripW * 4, ?_⟩
      have hle := Nat.div_mul_le_self x (g.stripW * 4)
      rw [htx, ← Nat.mul_assoc] at hle
      omega
    have hdy := lt_rows_iff.2 ⟨hy, hty⟩
    have hk := lt_rowBytes_iff.2 ⟨hx, htx⟩
    have hbyte := congrArg (fun l => l[dy * rowBytes g w tx + k]?) heq
    simp only [content, getElem?_grid _ _ hdy hk] at hbyte
    exact Option.some_inj.1 hbyte
  · intro h
    refine List.flatMap_congr fun dy hdy => List.map_congr_left fun k hk => ?_
    obtain ⟨hy, hty⟩ := lt_rows_iff.1 (List.mem_range.1 hdy)
    obtain ⟨hx, htx⟩ := lt_rowBytes_iff.1 (List.mem_range.1 hk)
    exact h _ hy _ hx hty htx

end Grid

/-! ### One band -/

section Steps

variable {η : Type} {hash : ℕ → ℕ → List UInt8 → η} {g : Geometry} {c : Call} {fresh : Bool}
  {s s₀ : ShadowSurface η}

/-- The row can be read whole. -/
def Call.Readable (c : Call) (y : ℕ) : Prop := y * c.pitch + c.row ≤ c.bytes.length

theorem readRow_eq_some {y : ℕ} {bytes : List UInt8} (h : c.readRow y = some bytes) :
    c.Readable y ∧ bytes.length = c.row ∧ ∀ x < c.row, bytes[x]? = some (c.src y x) := by
  unfold Call.readRow at h
  split_ifs at h with hfail
  obtain rfl := Option.some_inj.1 h
  have hin : c.Readable y := not_lt.1 fun hlt => hfail (.inr hlt)
  have hlen : y * c.pitch + c.row ≤ c.bytes.length := hin
  refine ⟨hin, by rw [List.length_take, List.length_drop]; omega, fun x hx => ?_⟩
  rw [List.getElem?_take_of_lt hx, List.getElem?_drop, Call.src, List.getD_eq_getElem?_getD,
    List.getElem?_eq_getElem (by omega), Option.getD_some]

/-- The first rows of a band are in the scratch buffer. -/
structure Loaded (g : Geometry) (c : Call) (ty n : ℕ) (band : List UInt8) : Prop where
  length : band.length = g.stripH * c.row
  bytes : ∀ dy < n, ∀ x < c.row, band[dy * c.row + x]? = some (c.src (ty * g.stripH + dy) x)
  readable : ∀ dy < n, c.Readable (ty * g.stripH + dy)

theorem Loaded.next {ty dy : ℕ} {band bytes : List UInt8} (h : Loaded g c ty dy band)
    (hdy : dy < g.stripH) (hread : c.readRow (ty * g.stripH + dy) = some bytes) :
    Loaded g c ty (dy + 1) (copyAt (dy * c.row) bytes band) := by
  obtain ⟨hin, hlen, hbytes⟩ := readRow_eq_some hread
  have hfit : dy * c.row + bytes.length ≤ band.length := by
    rw [h.length, hlen]
    exact (Nat.succ_mul dy c.row).symm.le.trans (Nat.mul_le_mul_right _ hdy)
  refine ⟨by rw [length_copyAt hfit, h.length], fun q hq x hx => ?_, fun q hq => ?_⟩
  · have hplace := flat_mem_iff (y := q) (q := dy) (a := 0) (n := c.row) hx (by omega)
    rw [getElem?_copyAt hfit, hlen]
    rcases Nat.lt_succ_iff_lt_or_eq.1 hq with hlt | rfl
    · rw [if_neg (by omega)]
      exact h.bytes q hlt x hx
    · rw [if_pos (by omega), Nat.add_sub_cancel_left]
      exact hbytes x hx
  · rcases Nat.lt_succ_iff_lt_or_eq.1 hq with hlt | rfl
    · exact h.readable q hlt
    · exact hin

/-- **A band is loaded**, or a read fails. -/
theorem loadBand_spec (ty : ℕ) (hband : s.band.length = g.stripH * c.row) :
    Ends (each (loadRow g c ty) (rows g c.h ty) s)
      (fun s' => ∃ band, s' = { s with band := band } ∧ Loaded g c ty (rows g c.h ty) band)
      fun s' => ∃ band, s' = { s with band := band } ∧ band.length = g.stripH * c.row := by
  refine Ends.each (I := fun n s' => ∃ band, s' = { s with band := band } ∧ Loaded g c ty n band)
    ⟨s.band, rfl, hband, by simp, by simp⟩ _ ?_
  rintro dy hdy _ ⟨band, rfl, hloaded⟩
  have hlt : dy < g.stripH := by
    rw [rows] at hdy
    omega
  have hfit : dy * c.row + c.row ≤ band.length := by
    rw [hloaded.length]
    exact (Nat.succ_mul dy c.row).symm.le.trans (Nat.mul_le_mul_right _ hlt)
  unfold loadRow
  rw [if_pos hfit]
  cases hread : c.readRow (ty * g.stripH + dy) with
  | none => exact ⟨band, rfl, hloaded.length⟩
  | some bytes => exact ⟨_, rfl, hloaded.next hlt hread⟩

theorem mapM_eq_some_map {α β : Type} {f : α → Option β} {f' : α → β} :
    ∀ l : List α, (∀ a ∈ l, f a = some (f' a)) → l.mapM f = some (l.map f')
  | [], _ => rfl
  | a :: l, h => by
      rw [List.mapM_cons, h a List.mem_cons_self,
        mapM_eq_some_map l fun b hb => h b (List.mem_cons_of_mem a hb)]
      rfl

/-- A slice of a loaded band. -/
theorem Loaded.slice {ty n dy a m : ℕ} {band : List UInt8} (h : Loaded g c ty n band)
    (hdy : dy < n) (hn : n ≤ g.stripH) (ha : a + m ≤ c.row) :
    Snapshot.slice band (dy * c.row + a) m =
      some ((List.range m).map fun k => c.src (ty * g.stripH + dy) (a + k)) := by
  have hrow : dy * c.row + c.row ≤ band.length := by
    rw [h.length]
    exact (Nat.succ_mul dy c.row).symm.le.trans (Nat.mul_le_mul_right _ (hdy.trans_le hn))
  rw [Snapshot.slice, if_pos (by omega)]
  refine congrArg some (List.ext_getElem? fun k => ?_)
  rcases Nat.lt_or_ge k m with hk | hk
  · rw [List.getElem?_take_of_lt hk, List.getElem?_drop, Nat.add_assoc,
      h.bytes dy hdy (a + k) (by omega), List.getElem?_map, List.getElem?_range hk, Option.map_some]
  · rw [List.getElem?_eq_none (by rw [List.length_take]; omega),
      List.getElem?_eq_none (by simpa using hk)]

theorem rows_le (g : Geometry) (h ty : ℕ) : rows g h ty ≤ g.stripH := by
  rw [rows]
  omega

/-- **What is hashed** are the visible pixels of the strip. -/
theorem stripBytes_loaded {tx ty : ℕ} {band : List UInt8} (htx : tx < tilesX g c.w)
    (h : Loaded g c ty (rows g c.h ty) band) :
    stripBytes g c band tx ty = some (content g c.w c.h c.src tx ty) := by
  have hslices := mapM_eq_some_map (List.range (rows g c.h ty)) fun dy hdy =>
    h.slice (List.mem_range.1 hdy) (rows_le g c.h ty) (rowBytes_le htx)
  rw [stripBytes, hslices, Option.map_some, content, List.flatMap_def]

/-! ### One strip -/

/-- The bytes of a strip are copied from the source, and no others are touched. -/
structure Copied (g : Geometry) (c : Call) (tx ty n : ℕ) (old px : List UInt8) : Prop where
  length : px.length = old.length
  inside : ∀ y < c.h, ∀ x < c.row, ty * g.stripH ≤ y → y < ty * g.stripH + n →
    x / (g.stripW * 4) = tx → px[y * c.row + x]? = some (c.src y x)
  outside : ∀ y < c.h, ∀ x < c.row,
    ¬(ty * g.stripH ≤ y ∧ y < ty * g.stripH + n ∧ x / (g.stripW * 4) = tx) →
      px[y * c.row + x]? = old[y * c.row + x]?

theorem mem_rowBytes_iff {tx x : ℕ} (hx : x < c.row) :
    tx * g.stripW * 4 ≤ x ∧ x < tx * g.stripW * 4 + rowBytes g c.w tx ↔
      x / (g.stripW * 4) = tx := by
  have hpos := stripW_pos g
  have hrow : c.row = c.w * 4 := rfl
  rw [rowBytes, Nat.div_eq_iff (by omega), ← Nat.mul_assoc]
  omega

theorem mem_rows_iff {ty y : ℕ} (hy : y < c.h) :
    ty * g.stripH ≤ y ∧ y < ty * g.stripH + rows g c.h ty ↔ y / g.stripH = ty := by
  have hpos := stripH_pos g
  rw [rows, Nat.div_eq_iff hpos]
  omega

theorem Copied.next {tx ty n : ℕ} {old px : List UInt8} (h : Copied g c tx ty n old px)
    (hold : old.length = c.row * c.h) (htx : tx < tilesX g c.w) (hn : ty * g.stripH + n < c.h) :
    Copied g c tx ty (n + 1) old (copyAt ((ty * g.stripH + n) * c.row + tx * g.stripW * 4)
      ((List.range (rowBytes g c.w tx)).map fun k =>
        c.src (ty * g.stripH + n) (tx * g.stripW * 4 + k)) px) := by
  obtain ⟨q, hq⟩ : ∃ q, q = ty * g.stripH + n := ⟨_, rfl⟩
  obtain ⟨bytes, hbytes⟩ : ∃ bytes, bytes = (List.range (rowBytes g c.w tx)).map fun k =>
    c.src q (tx * g.stripW * 4 + k) := ⟨_, rfl⟩
  have hlen : bytes.length = rowBytes g c.w tx := by rw [hbytes]; simp
  have hright : tx * g.stripW * 4 + rowBytes g c.w tx ≤ c.row := rowBytes_le htx
  have hfit : q * c.row + tx * g.stripW * 4 + bytes.length ≤ px.length := by
    have hmul := Nat.mul_le_mul_right c.row (show q + 1 ≤ c.h by omega)
    rw [Nat.succ_mul] at hmul
    rw [h.length, hold, hlen, Nat.mul_comm c.row]
    omega
  rw [← hq, ← hbytes]
  refine ⟨by rw [length_copyAt hfit, h.length], ?_, ?_⟩
  · intro y hy x hx hge hlt hcol
    obtain ⟨hleft, hlt'⟩ := (mem_rowBytes_iff hx).2 hcol
    have hplace := flat_mem_iff (y := y) (q := q) hx hright
    rw [getElem?_copyAt hfit, hlen]
    by_cases hyq : y = q
    · rw [if_pos (hplace.2 ⟨hyq, hleft, hlt'⟩), hbytes, hyq]
      have hk : q * c.row + x - (q * c.row + tx * g.stripW * 4) = x - tx * g.stripW * 4 := by omega
      rw [hk, List.getElem?_map, List.getElem?_range (by omega), Option.map_some,
        Nat.add_sub_cancel' hleft]
    · rw [if_neg fun hin => hyq (hplace.1 hin).1]
      exact h.inside y hy x hx hge (by omega) hcol
  · intro y hy x hx hout
    have hplace := flat_mem_iff (y := y) (q := q) hx hright
    rw [getElem?_copyAt hfit, hlen, if_neg]
    · refine h.outside y hy x hx fun hin => hout ⟨hin.1, by omega, hin.2.2⟩
    · intro hin
      obtain ⟨hyq, hleft, hlt⟩ := hplace.1 hin
      exact hout ⟨by omega, by omega, (mem_rowBytes_iff hx).1 ⟨hleft, hlt⟩⟩

/-- **The rows of a strip are copied.** -/
theorem copyRows_spec {tx ty : ℕ} (htx : tx < tilesX g c.w)
    (hpixels : s.pixels.length = c.row * c.h) (hband : Loaded g c ty (rows g c.h ty) s.band) :
    Ends (each (copyRow g c ty tx) (rows g c.h ty) s)
      (fun s' => ∃ px, s' = { s with pixels := px } ∧
        Copied g c tx ty (rows g c.h ty) s.pixels px)
      fun _ => False := by
  refine Ends.each (I := fun n s' => ∃ px, s' = { s with pixels := px } ∧
    Copied g c tx ty n s.pixels px) ?_ _ ?_
  · exact ⟨s.pixels, rfl, rfl, fun y _ x _ hge hlt => absurd hlt (by omega), fun _ _ _ _ _ => rfl⟩
  · rintro dy hdy _ ⟨px, rfl, hpx⟩
    have hy := (lt_rows_iff.1 hdy).1
    have hright : tx * g.stripW * 4 + rowBytes g c.w tx ≤ c.row := rowBytes_le htx
    have hmul := Nat.mul_le_mul_right c.row (show ty * g.stripH + dy + 1 ≤ c.h by omega)
    rw [Nat.succ_mul, Nat.mul_comm c.h] at hmul
    unfold copyRow
    simp only [hband.slice hdy (rows_le g c.h ty) hright]
    rw [if_pos (by rw [hpx.length, hpixels]; omega)]
    exact ⟨_, rfl, hpx.next hpixels htx hy⟩

/-! ### The whole surface -/

/-- The hash of a strip of the source. -/
def digest (hash : ℕ → ℕ → List UInt8 → η) (g : Geometry) (c : Call) (tx ty : ℕ) : η :=
  hash (tx * g.stripW) (ty * g.stripH) (content g c.w c.h c.src tx ty)

/-- The stored hash of a strip of a surface. -/
def stored (g : Geometry) (c : Call) (s : ShadowSurface η) (tx ty : ℕ) : Option η :=
  s.hashes[ty * tilesX g c.w + tx]?

/-- The strip is one that the call copies. -/
def Copies (hash : ℕ → ℕ → List UInt8 → η) (g : Geometry) (c : Call) (fresh : Bool)
    (s₀ : ShadowSurface η) (tx ty : ℕ) : Prop :=
  fresh = true ∨ stored g c s₀ tx ty ≠ some (digest hash g c tx ty)

/-- The strip is one of the first `m` bands, or one of the first `n` of the next band. -/
def Upto (m n tx ty : ℕ) : Prop := ty < m ∨ ty = m ∧ tx < n

/-- The buffers have the size of the call. -/
structure Sized (g : Geometry) (c : Call) (s : ShadowSurface η) : Prop where
  width : s.w = c.w
  height : s.h = c.h
  pixels : s.pixels.length = c.row * c.h
  hashes : s.hashes.length = tilesX g c.w * tilesY g c.h
  band : s.band.length = g.stripH * c.row

/-- **How far a copy has come**: what the strips up to a place hold, and that the others are as they
were. -/
structure Progress (hash : ℕ → ℕ → List UInt8 → η) (g : Geometry) (c : Call) (fresh : Bool)
    (s₀ : ShadowSurface η) (m n : ℕ) (s : ShadowSurface η) : Prop where
  sized : Sized g c s
  copied : ∀ y < c.h, ∀ x < c.row, Upto m n (x / (g.stripW * 4)) (y / g.stripH) →
    Copies hash g c fresh s₀ (x / (g.stripW * 4)) (y / g.stripH) →
      s.pixels[y * c.row + x]? = some (c.src y x)
  kept : ∀ y < c.h, ∀ x < c.row, ¬(Upto m n (x / (g.stripW * 4)) (y / g.stripH) ∧
    Copies hash g c fresh s₀ (x / (g.stripW * 4)) (y / g.stripH)) →
      s.pixels[y * c.row + x]? = s₀.pixels[y * c.row + x]?
  hashed : ∀ tx < tilesX g c.w, ∀ ty < tilesY g c.h, Upto m n tx ty →
    stored g c s tx ty = some (digest hash g c tx ty)
  unhashed : ∀ tx < tilesX g c.w, ∀ ty < tilesY g c.h, ¬ Upto m n tx ty →
    stored g c s tx ty = stored g c s₀ tx ty
  readable : ∀ y < c.h, y / g.stripH < m → c.Readable y

theorem index_inj {n tx ty tx' ty' : ℕ} (htx : tx < n) (htx' : tx' < n)
    (h : ty * n + tx = ty' * n + tx') : tx = tx' ∧ ty = ty' := by
  have hplace : ty' * n + tx' ≤ ty * n + tx ∧ ty * n + tx < ty' * n + tx' + 1 ↔
      ty = ty' ∧ tx' ≤ tx ∧ tx < tx' + 1 := flat_mem_iff htx (by omega)
  omega

theorem upto_succ {m n tx ty : ℕ} :
    Upto m (n + 1) tx ty ↔ Upto m n tx ty ∨ ty = m ∧ tx = n := by
  unfold Upto
  omega

/-- The hash of a strip is stored. -/
theorem Progress.store {m n : ℕ} {px : List UInt8} (h : Progress hash g c fresh s₀ m n s)
    (hn : n < tilesX g c.w) (hm : m < tilesY g c.h) (hlen : px.length = s.pixels.length)
    (hin : Copies hash g c fresh s₀ n m → ∀ y < c.h, ∀ x < c.row, y / g.stripH = m →
      x / (g.stripW * 4) = n → px[y * c.row + x]? = some (c.src y x))
    (hout : ∀ y < c.h, ∀ x < c.row, ¬(y / g.stripH = m ∧ x / (g.stripW * 4) = n ∧
      Copies hash g c fresh s₀ n m) → px[y * c.row + x]? = s.pixels[y * c.row + x]?) :
    Progress hash g c fresh s₀ m (n + 1)
      { s with
        pixels := px
        hashes := s.hashes.set (m * tilesX g c.w + n) (digest hash g c n m) } := by
  have hidx : m * tilesX g c.w + n < s.hashes.length := by
    rw [h.sized.hashes, Nat.mul_comm (tilesX g c.w)]
    exact flat_lt hn hm
  refine ⟨⟨h.sized.width, h.sized.height, hlen.trans h.sized.pixels, ?_, h.sized.band⟩, ?_, ?_, ?_,
    ?_, h.readable⟩
  · rw [List.length_set]
    exact h.sized.hashes
  · intro y hy x hx hupto hcopies
    rcases upto_succ.1 hupto with hold | ⟨hty, htx⟩
    · have hkeep : ¬(y / g.stripH = m ∧ x / (g.stripW * 4) = n ∧ Copies hash g c fresh s₀ n m) := by
        rintro ⟨hty, htx, -⟩
        unfold Upto at hold
        omega
      exact (hout y hy x hx hkeep).trans (h.copied y hy x hx hold hcopies)
    · rw [hty, htx] at hcopies
      exact hin hcopies y hy x hx hty htx
  · intro y hy x hx hnot
    refine (hout y hy x hx ?_).trans (h.kept y hy x hx ?_)
    · rintro ⟨hty, htx, hcopies⟩
      refine hnot ⟨upto_succ.2 (.inr ⟨hty, htx⟩), ?_⟩
      rwa [hty, htx]
    · rintro ⟨hupto, hcopies⟩
      exact hnot ⟨upto_succ.2 (.inl hupto), hcopies⟩
  · intro tx htx ty hty hupto
    unfold stored
    rcases upto_succ.1 hupto with hold | ⟨rfl, rfl⟩
    · rw [List.getElem?_set_ne]
      · exact h.hashed tx htx ty hty hold
      · intro heq
        obtain ⟨rfl, rfl⟩ := index_inj hn htx heq
        unfold Upto at hold
        omega
    · rw [List.getElem?_set_self hidx]
  · intro tx htx ty hty hnot
    unfold stored
    rw [List.getElem?_set_ne]
    · exact h.unhashed tx htx ty hty fun hupto => hnot (upto_succ.2 (.inl hupto))
    · intro heq
      obtain ⟨rfl, rfl⟩ := index_inj hn htx heq
      exact hnot (upto_succ.2 (.inr ⟨rfl, rfl⟩))

/-- **One strip.** -/
theorem copyStrip_spec [DecidableEq η] {m n : ℕ} (hn : n < tilesX g c.w) (hm : m < tilesY g c.h)
    (h : Progress hash g c fresh s₀ m n s) (hband : Loaded g c m (rows g c.h m) s.band) :
    Ends (copyStrip hash g c fresh m n s)
      (fun s' => Progress hash g c fresh s₀ m (n + 1) s' ∧ Loaded g c m (rows g c.h m) s'.band)
      fun _ => False := by
  have hidx : m * tilesX g c.w + n < s.hashes.length := by
    rw [h.sized.hashes, Nat.mul_comm (tilesX g c.w)]
    exact flat_lt hn hm
  have hsame : s.hashes[m * tilesX g c.w + n]? = stored g c s₀ n m :=
    h.unhashed n hn m hm fun hupto => by unfold Upto at hupto; omega
  have hstart : n * g.stripW < min (n * g.stripW + g.stripW) c.w :=
    lt_min (Nat.lt_add_of_pos_right (stripW_pos g)) (lt_tilesX.1 hn)
  have hdigest : hash (n * g.stripW) (m * g.stripH) (content g c.w c.h c.src n m) =
      digest hash g c n m := rfl
  unfold copyStrip
  simp only [stripBytes_loaded hn hband, hdigest]
  rw [if_pos hidx, hsame]
  by_cases hcopies : fresh = true ∨ stored g c s₀ n m ≠ some (digest hash g c n m)
  · rw [if_pos ⟨hstart, hcopies⟩]
    refine ((copyRows_spec hn h.sized.pixels hband).bind ?_)
    rintro _ ⟨px, rfl, hpx⟩
    refine ⟨h.store hn hm hpx.length ?_ ?_, hband⟩
    · intro _ y hy x hx hty htx
      obtain ⟨hge, hlt⟩ := (mem_rows_iff hy).2 hty
      exact hpx.inside y hy x hx hge hlt htx
    · intro y hy x hx hnot
      refine hpx.outside y hy x hx ?_
      rintro ⟨hge, hlt, htx⟩
      exact hnot ⟨(mem_rows_iff hy).1 ⟨hge, hlt⟩, htx, hcopies⟩
  · rw [if_neg fun hboth => hcopies hboth.2]
    refine ⟨h.store hn hm rfl (fun hyes => absurd hyes hcopies) fun _ _ _ _ _ => rfl, hband⟩

theorem upto_next {m n tx ty : ℕ} (htx : tx < n) : Upto m n tx ty ↔ Upto (m + 1) 0 tx ty := by
  unfold Upto
  omega

/-- All strips of a band make up the next band. -/
theorem Progress.nextBand {m : ℕ} (h : Progress hash g c fresh s₀ m (tilesX g c.w) s)
    (hreadable : ∀ dy < rows g c.h m, c.Readable (m * g.stripH + dy)) :
    Progress hash g c fresh s₀ (m + 1) 0 s := by
  refine ⟨h.sized, ?_, ?_, ?_, ?_, ?_⟩
  · intro y hy x hx hupto hcopies
    exact h.copied y hy x hx ((upto_next (column_lt hx)).2 hupto) hcopies
  · intro y hy x hx hnot
    exact h.kept y hy x hx fun hboth => hnot ⟨(upto_next (column_lt hx)).1 hboth.1, hboth.2⟩
  · intro tx htx ty hty hupto
    exact h.hashed tx htx ty hty ((upto_next htx).2 hupto)
  · intro tx htx ty hty hnot
    exact h.unhashed tx htx ty hty fun hupto => hnot ((upto_next htx).1 hupto)
  · intro y hy hlt
    rcases Nat.lt_succ_iff_lt_or_eq.1 hlt with hlt | heq
    · exact h.readable y hy hlt
    · obtain ⟨hge, hlt⟩ := (mem_rows_iff hy).2 heq
      have hrow := hreadable (y - m * g.stripH) (by omega)
      rwa [Nat.add_sub_cancel' hge] at hrow

theorem Progress.withBand {m n : ℕ} {band : List UInt8} (h : Progress hash g c fresh s₀ m n s)
    (hband : band.length = g.stripH * c.row) :
    Progress hash g c fresh s₀ m n { s with band := band } :=
  ⟨⟨h.sized.width, h.sized.height, h.sized.pixels, h.sized.hashes, hband⟩, h.copied, h.kept,
    h.hashed, h.unhashed, h.readable⟩

/-- A copy that was given up somewhere. -/
def Partial (hash : ℕ → ℕ → List UInt8 → η) (g : Geometry) (c : Call) (fresh : Bool)
    (s₀ s : ShadowSurface η) : Prop := ∃ m n, Progress hash g c fresh s₀ m n s

/-- **One band.** -/
theorem copyBand_spec [DecidableEq η] {m : ℕ} (hm : m < tilesY g c.h)
    (h : Progress hash g c fresh s₀ m 0 s) :
    Ends (copyBand hash g c fresh m s) (Progress hash g c fresh s₀ (m + 1) 0)
      (Partial hash g c fresh s₀) := by
  have hload : Ends (each (loadRow g c m) (rows g c.h m) s)
      (fun s' => ∃ band, s' = { s with band := band } ∧ Loaded g c m (rows g c.h m) band)
      (Partial hash g c fresh s₀) := by
    refine (loadBand_spec m h.sized.band).mono (fun _ hs' => hs') ?_
    rintro _ ⟨band, rfl, hband⟩
    exact ⟨m, 0, h.withBand hband⟩
  refine hload.bind ?_
  rintro _ ⟨band, rfl, hband⟩
  have hstart := h.withBand hband.length
  have hstrips := Ends.each (R := fun _ => False)
    (I := fun n s => Progress hash g c fresh s₀ m n s ∧ Loaded g c m (rows g c.h m) s.band)
    ⟨hstart, hband⟩ _ fun n hn s hs => copyStrip_spec hn hm hs.1 hs.2
  refine hstrips.mono (fun s' hs' => hs'.1.nextBand hband.readable) fun s' hs' => hs'.elim

/-- **A whole copy** does what it says to every strip, or is given up. -/
theorem copyAll_spec [DecidableEq η] (h : Sized g c s₀) :
    Ends (copyAll hash g c fresh s₀) (Progress hash g c fresh s₀ (tilesY g c.h) 0)
      (Partial hash g c fresh s₀) := by
  have hnone : ∀ tx ty, ¬ Upto 0 0 tx ty := by
    intro tx ty
    unfold Upto
    omega
  have hstart : Progress hash g c fresh s₀ 0 0 s₀ :=
    ⟨h, fun _ _ _ _ hupto => absurd hupto (hnone _ _), fun _ _ _ _ _ => rfl,
      fun _ _ _ _ hupto => absurd hupto (hnone _ _), fun _ _ _ _ _ => rfl,
      fun _ _ hlt => absurd hlt (Nat.not_lt_zero _)⟩
  exact Ends.each (I := fun m s => Progress hash g c fresh s₀ m 0 s) hstart _
    fun m hm s hs => copyBand_spec hm hs

end Steps

/-! ### Slots -/

section Slots

variable {η : Type} {hash : ℕ → ℕ → List UInt8 → η} {zero : η} {g : Geometry} {c : Call}
  {s s₀ : ShadowSurface η}

/-- The byte `x` of row `y` of a surface. -/
def ShadowSurface.pix (s : ShadowSurface η) (y x : ℕ) : UInt8 := s.pixels.getD (y * (s.w * 4) + x) 0

def blank : ℕ → ℕ → UInt8 := fun _ _ => 0

/-- A strip of a surface was written with its hash, or is as it was allocated. -/
def KeptStrip (hash : ℕ → ℕ → List UInt8 → η) (zero : η) (g : Geometry) (s : ShadowSurface η)
    (tx ty : ℕ) : Prop :=
  s.hashes[ty * tilesX g s.w + tx]? =
      some (hash (tx * g.stripW) (ty * g.stripH) (content g s.w s.h s.pix tx ty)) ∨
    s.hashes[ty * tilesX g s.w + tx]? = some zero ∧ Agree g s.w s.h s.pix blank tx ty

/-- **What a slot holds**: buffers of the right sizes, and strips that were written or not. -/
structure KeptSurface (hash : ℕ → ℕ → List UInt8 → η) (zero : η) (g : Geometry)
    (s : ShadowSurface η) : Prop where
  pixels : s.pixels.length = s.w * 4 * s.h
  hashes : s.hashes.length = tilesX g s.w * tilesY g s.h
  band : s.band.length = g.stripH * (s.w * 4)
  strips : ∀ tx < tilesX g s.w, ∀ ty < tilesY g s.h, KeptStrip hash zero g s tx ty

def Kept (hash : ℕ → ℕ → List UInt8 → η) (zero : η) (g : Geometry)
    (slot : Option (ShadowSurface η)) : Prop := ∀ s ∈ slot, KeptSurface hash zero g s

/-- **An exact snapshot**: the size that was asked for, the visible pixels of the source row by row,
and the hash of the visible pixels of every strip in raster order. -/
def Exact (hash : ℕ → ℕ → List UInt8 → η) (g : Geometry) (c : Call)
    (slot : Option (ShadowSurface η)) : Prop :=
  ∃ s, slot = some s ∧ s.w = c.w ∧ s.h = c.h ∧
    s.pixels = ((List.range c.h).flatMap fun y => (c.bytes.drop (y * c.pitch)).take (c.w * 4)) ∧
    s.hashes = (List.range (tilesY g c.h)).flatMap fun ty => (List.range (tilesX g c.w)).map
      fun tx => hash (tx * g.stripW) (ty * g.stripH) (content g c.w c.h c.src tx ty)

/-- No strip that is still as it was allocated is shown other pixels that hash to the initial
value. -/
def NoneBlank (hash : ℕ → ℕ → List UInt8 → η) (zero : η) (g : Geometry)
    (slot : Option (ShadowSurface η)) (c : Call) : Prop :=
  ∀ s ∈ slot, s.w = c.w → s.h = c.h → ∀ tx < tilesX g c.w, ∀ ty < tilesY g c.h,
    s.hashes[ty * tilesX g c.w + tx]? = some zero → Agree g c.w c.h s.pix blank tx ty →
      digest hash g c tx ty = zero → Agree g c.w c.h c.src blank tx ty

theorem KeptSurface.sized (h : KeptSurface hash zero g s) (hw : s.w = c.w) (hh : s.h = c.h) :
    Sized g c s := by
  refine ⟨hw, hh, ?_, ?_, ?_⟩
  · rw [h.pixels, hw, hh, Call.row]
  · rw [h.hashes, hw, hh]
  · rw [h.band, hw, Call.row]

theorem newSurface_kept (hash : ℕ → ℕ → List UInt8 → η) (zero : η) (g : Geometry) (c : Call) :
    KeptSurface hash zero g (newSurface zero g c) := by
  refine ⟨?_, ?_, ?_, fun tx htx ty hty => .inr ⟨?_, fun y _ x _ _ _ => ?_⟩⟩
  · simp [newSurface, Call.row]
  · simp [newSurface]
  · simp [newSurface, Call.row]
  · have hidx : ty * tilesX g c.w + tx < tilesX g c.w * tilesY g c.h := by
      rw [Nat.mul_comm (tilesX g c.w)]
      exact flat_lt htx hty
    show (List.replicate (tilesX g c.w * tilesY g c.h) zero)[ty * tilesX g c.w + tx]? = some zero
    rw [List.getElem?_replicate_of_lt hidx]
  · simp only [newSurface, ShadowSurface.pix, blank, List.getD_eq_getElem?_getD,
      List.getElem?_replicate]
    split_ifs <;> rfl

theorem pix_of_getElem? {y x : ℕ} {v : UInt8} (hw : s.w = c.w)
    (h : s.pixels[y * c.row + x]? = some v) : s.pix y x = v := by
  rw [ShadowSurface.pix, hw, List.getD_eq_getElem?_getD]
  exact congrArg (Option.getD · 0) h

theorem pix_congr {y x : ℕ} (hw : s.w = c.w) (hw₀ : s₀.w = c.w)
    (h : s.pixels[y * c.row + x]? = s₀.pixels[y * c.row + x]?) : s.pix y x = s₀.pix y x := by
  rw [ShadowSurface.pix, ShadowSurface.pix, hw, hw₀, List.getD_eq_getElem?_getD,
    List.getD_eq_getElem?_getD]
  exact congrArg (Option.getD · 0) h

theorem Agree.symm {w h tx ty : ℕ} {f f' : ℕ → ℕ → UInt8} (hag : Agree g w h f f' tx ty) :
    Agree g w h f' f tx ty := fun y hy x hx hty htx => (hag y hy x hx hty htx).symm

theorem Agree.trans {w h tx ty : ℕ} {f f' f'' : ℕ → ℕ → UInt8} (hag : Agree g w h f f' tx ty)
    (hag' : Agree g w h f' f'' tx ty) : Agree g w h f f'' tx ty := fun y hy x hx hty htx =>
  (hag y hy x hx hty htx).trans (hag' y hy x hx hty htx)

/-- A strip that is not copied keeps its pixels. -/
theorem Progress.agree_old {fresh : Bool} {m n tx ty : ℕ}
    (h : Progress hash g c fresh s₀ m n s) (hw₀ : s₀.w = c.w)
    (hnot : ¬(Upto m n tx ty ∧ Copies hash g c fresh s₀ tx ty)) :
    Agree g c.w c.h s.pix s₀.pix tx ty := by
  rintro y hy x hx rfl rfl
  exact pix_congr h.sized.width hw₀ (h.kept y hy x hx hnot)

/-- A strip that is copied has the pixels of the source. -/
theorem Progress.agree_src {fresh : Bool} {m n tx ty : ℕ}
    (h : Progress hash g c fresh s₀ m n s) (hupto : Upto m n tx ty)
    (hcopies : Copies hash g c fresh s₀ tx ty) : Agree g c.w c.h s.pix c.src tx ty := by
  rintro y hy x hx rfl rfl
  exact pix_of_getElem? h.sized.width (h.copied y hy x hx hupto hcopies)

/-- **No call spoils a strip**, wherever it is given up. -/
theorem Progress.kept_surface {fresh : Bool} {m n : ℕ} (h : Progress hash g c fresh s₀ m n s)
    (hs₀ : KeptSurface hash zero g s₀) (hw₀ : s₀.w = c.w) (hh₀ : s₀.h = c.h) :
    KeptSurface hash zero g s := by
  have hw := h.sized.width
  have hh := h.sized.height
  refine ⟨?_, ?_, ?_, fun tx htx ty hty => ?_⟩
  · rw [h.sized.pixels, hw, hh, Call.row]
  · rw [h.sized.hashes, hw, hh]
  · rw [h.sized.band, hw, Call.row]
  · rw [hw] at htx
    rw [hh] at hty
    have hold := hs₀.strips tx (by rw [hw₀]; exact htx) ty (by rw [hh₀]; exact hty)
    rw [KeptStrip, hw₀, hh₀] at hold
    rw [KeptStrip, hw, hh]
    by_cases hboth : Upto m n tx ty ∧ Copies hash g c fresh s₀ tx ty
    · left
      rw [content_eq_iff.2 (h.agree_src hboth.1 hboth.2)]
      exact h.hashed tx htx ty hty hboth.1
    · have hag := h.agree_old hw₀ hboth
      have hstored : s.hashes[ty * tilesX g c.w + tx]? = s₀.hashes[ty * tilesX g c.w + tx]? := by
        by_cases hupto : Upto m n tx ty
        · have hskip : ¬ Copies hash g c fresh s₀ tx ty := fun hcopies => hboth ⟨hupto, hcopies⟩
          rw [Copies, not_or, not_not] at hskip
          exact (h.hashed tx htx ty hty hupto).trans hskip.2.symm
        · exact h.unhashed tx htx ty hty hupto
      rw [hstored, content_eq_iff.2 hag]
      rcases hold with hold | ⟨hold, hblank⟩
      · exact .inl hold
      · exact .inr ⟨hold, hag.trans hblank⟩

/-- A list that is laid out band by band. -/
theorem eq_grid_iff {α : Type} {F : ℕ → ℕ → α} {m n : ℕ} {l : List α} (hlen : l.length = m * n) :
    (l = (List.range m).flatMap fun ty => (List.range n).map (F ty)) ↔
      ∀ ty < m, ∀ tx < n, l[ty * n + tx]? = some (F ty tx) := by
  constructor
  · rintro rfl ty hty tx htx
    exact getElem?_grid F n hty htx
  · intro h
    refine List.ext_getElem? fun i => ?_
    rcases Nat.lt_or_ge i (m * n) with hi | hi
    · have hn : 0 < n := Nat.pos_of_ne_zero fun h0 => by simp [h0] at hi
      have hty : i / n < m := (Nat.div_lt_iff_lt_mul hn).2 hi
      have hsplit : i / n * n + i % n = i := by
        rw [Nat.mul_comm]
        exact Nat.div_add_mod i n
      have hcell := h (i / n) hty (i % n) (Nat.mod_lt _ hn)
      have hgrid := getElem?_grid F n hty (Nat.mod_lt i hn)
      rw [hsplit] at hcell hgrid
      rw [hcell, hgrid]
    · rw [List.getElem?_eq_none (by omega), List.getElem?_eq_none (by rw [length_grid]; exact hi)]

theorem upto_all {tx ty : ℕ} (hty : ty < tilesY g c.h) : Upto (tilesY g c.h) 0 tx ty := .inl hty

/-- The visible rows of the source. -/
theorem visible_rows (hreadable : ∀ y < c.h, c.Readable y) :
    ((List.range c.h).flatMap fun y => (c.bytes.drop (y * c.pitch)).take (c.w * 4)) =
      (List.range c.h).flatMap fun y => (List.range c.row).map (c.src y) := by
  refine List.flatMap_congr fun y hy => ?_
  have hin : y * c.pitch + c.row ≤ c.bytes.length := hreadable y (List.mem_range.1 hy)
  have hrow : c.w * 4 = c.row := rfl
  rw [hrow]
  refine List.ext_getElem? fun x => ?_
  rcases Nat.lt_or_ge x c.row with hx | hx
  · rw [List.getElem?_take_of_lt hx, List.getElem?_drop, List.getElem?_map,
      List.getElem?_range hx, Option.map_some, Call.src, List.getD_eq_getElem?_getD,
      List.getElem?_eq_getElem (by omega), Option.getD_some]
  · rw [List.getElem?_eq_none (by rw [List.length_take]; exact (min_le_left _ _).trans hx),
      List.getElem?_eq_none (by simpa using hx)]

/-- **A whole copy is exact** when every strip that was not copied had the pixels already. -/
theorem Progress.exact_iff {fresh : Bool} (h : Progress hash g c fresh s₀ (tilesY g c.h) 0 s)
    (hw₀ : s₀.w = c.w) :
    Exact hash g c (some s) ↔ ∀ tx < tilesX g c.w, ∀ ty < tilesY g c.h,
      Copies hash g c fresh s₀ tx ty ∨ Agree g c.w c.h s₀.pix c.src tx ty := by
  have hreadable : ∀ y < c.h, c.Readable y := fun y hy => h.readable y hy (band_lt hy)
  have hlen : s.pixels.length = c.h * c.row := by rw [h.sized.pixels, Nat.mul_comm]
  have hpixels := eq_grid_iff (F := c.src) hlen
  constructor
  · rintro ⟨s', hs', -, -, hpix, -⟩ tx htx ty hty
    obtain rfl := Option.some_inj.1 hs'
    rw [visible_rows hreadable, hpixels] at hpix
    by_cases hcopies : Copies hash g c fresh s₀ tx ty
    · exact .inl hcopies
    · right
      have hag := h.agree_old hw₀ fun hboth => hcopies hboth.2
      refine hag.symm.trans fun y hy x hx _ _ => ?_
      exact pix_of_getElem? h.sized.width (hpix y hy x hx)
  · intro hall
    refine ⟨s, rfl, h.sized.width, h.sized.height, ?_, ?_⟩
    · rw [visible_rows hreadable, hpixels]
      intro y hy x hx
      have hlt : y * c.row + x < s.pixels.length := by
        rw [hlen]
        exact flat_lt hx hy
      have hag : Agree g c.w c.h s.pix c.src (x / (g.stripW * 4)) (y / g.stripH) := by
        by_cases hcopies : Copies hash g c fresh s₀ (x / (g.stripW * 4)) (y / g.stripH)
        · exact h.agree_src (upto_all (band_lt hy)) hcopies
        · have hold := (hall _ (column_lt hx) _ (band_lt hy)).resolve_left hcopies
          exact (h.agree_old hw₀ fun hboth => hcopies hboth.2).trans hold
      have hbyte := hag y hy x hx rfl rfl
      rw [ShadowSurface.pix, h.sized.width, List.getD_eq_getElem?_getD] at hbyte
      change (s.pixels[y * c.row + x]?).getD 0 = c.src y x at hbyte
      rw [List.getElem?_eq_getElem hlt, Option.getD_some] at hbyte
      rw [List.getElem?_eq_getElem hlt, hbyte]
    · have hcount : s.hashes.length = tilesY g c.h * tilesX g c.w := by
        rw [h.sized.hashes, Nat.mul_comm]
      rw [eq_grid_iff (F := fun ty tx => hash (tx * g.stripW) (ty * g.stripH)
        (content g c.w c.h c.src tx ty)) hcount]
      exact fun ty hty tx htx => h.hashed tx htx ty hty (upto_all hty)

/-- **A surface that was allocated now** is copied whole. -/
theorem Progress.exact_fresh (h : Progress hash g c true s₀ (tilesY g c.h) 0 s)
    (hw₀ : s₀.w = c.w) : Exact hash g c (some s) :=
  (h.exact_iff hw₀).2 fun _ _ _ _ => .inl (.inl rfl)

/-- **A surface that was there** ends exact unless a strip that was never written is taken for up to
date. -/
theorem Progress.exact_reused (hinj : ∀ x y, Function.Injective (hash x y))
    (h : Progress hash g c false s₀ (tilesY g c.h) 0 s) (hs₀ : KeptSurface hash zero g s₀)
    (hw₀ : s₀.w = c.w) (hh₀ : s₀.h = c.h) :
    Exact hash g c (some s) ↔ NoneBlank hash zero g (some s₀) c := by
  rw [h.exact_iff hw₀]
  have hkept : ∀ tx < tilesX g c.w, ∀ ty < tilesY g c.h,
      stored g c s₀ tx ty = some (digest hash g c tx ty) →
        Agree g c.w c.h s₀.pix c.src tx ty ∨
          s₀.hashes[ty * tilesX g c.w + tx]? = some zero ∧ Agree g c.w c.h s₀.pix blank tx ty := by
    intro tx htx ty hty hstored
    have hold := hs₀.strips tx (by rw [hw₀]; exact htx) ty (by rw [hh₀]; exact hty)
    rw [KeptStrip, hw₀, hh₀] at hold
    rcases hold with hold | hblank
    · left
      rw [← content_eq_iff]
      exact hinj _ _ (Option.some_inj.1 (hold.symm.trans hstored))
    · exact .inr hblank
  constructor
  · rintro hall s' hs' - - tx htx ty hty hzero hblank hdigest
    obtain rfl := Option.some_inj.1 hs'
    have hskip : ¬ Copies hash g c false s₀ tx ty := by
      rintro (hfresh | hne)
      · exact nomatch hfresh
      · rw [hdigest] at hne
        exact hne hzero
    exact ((hall tx htx ty hty).resolve_left hskip).symm.trans hblank
  · intro hnone tx htx ty hty
    by_cases hcopies : Copies hash g c false s₀ tx ty
    · exact .inl hcopies
    · right
      rw [Copies, not_or, not_not] at hcopies
      rcases hkept tx htx ty hty hcopies.2 with hag | ⟨hzero, hblank⟩
      · exact hag
      · have hdigest : digest hash g c tx ty = zero :=
          Option.some_inj.1 (hcopies.2.symm.trans hzero)
        exact hblank.trans (hnone s₀ rfl hw₀ hh₀ tx htx ty hty hzero hblank hdigest).symm

theorem refresh_eq [DecidableEq η] {fresh : Bool} (h : Sized g c s) :
    refresh hash zero g c fresh s = copyAll hash g c fresh s := by
  unfold refresh fitHashes fitBand
  rw [if_pos h.hashes]
  show ((if s.band.length = g.stripH * c.row then Outcome.done s else _).bind _) = _
  rw [if_pos h.band]
  rfl

/-- A surface of another size, or none, says nothing about the pixels of this one. -/
theorem noneBlank_of_filter {slot : Option (ShadowSurface η)}
    (h : (slot.filter fun s => s.w = c.w && s.h = c.h) = none) : NoneBlank hash zero g slot c := by
  rintro s hs hw hh
  rw [Option.mem_def] at hs
  rw [hs] at h
  simp [Option.filter, hw, hh] at h

/-- **One call** keeps what a slot holds, does not panic, and is exact as said. -/
theorem snapshotToShadow_spec [DecidableEq η] (hinj : ∀ x y, Function.Injective (hash x y))
    {slot : Option (ShadowSurface η)} (hslot : Kept hash zero g slot) :
    Ends (snapshotToShadow hash zero g slot c)
      (fun slot' => Kept hash zero g slot' ∧
        (Exact hash g c slot' ↔ NoneBlank hash zero g slot c))
      (Kept hash zero g) := by
  have hsome : ∀ {s : ShadowSurface η}, KeptSurface hash zero g s → Kept hash zero g (some s) := by
    intro s hs s' hs'
    obtain rfl := Option.some_inj.1 hs'
    exact hs
  unfold snapshotToShadow
  split
  · exact hslot
  · cases hfilter : slot.filter fun s => s.w = c.w && s.h = c.h with
    | some s₀ =>
      obtain ⟨hslot₀, hsame⟩ := Option.filter_eq_some_iff.1 hfilter
      simp only [Bool.and_eq_true, decide_eq_true_eq] at hsame
      obtain ⟨hw₀, hh₀⟩ := hsame
      have hs₀ := hslot s₀ hslot₀
      dsimp only
      rw [refresh_eq (hs₀.sized hw₀ hh₀), hslot₀]
      refine ((copyAll_spec (hs₀.sized hw₀ hh₀)).mono ?_ ?_).map
      · intro s hs
        exact ⟨hsome (hs.kept_surface hs₀ hw₀ hh₀), hs.exact_reused hinj hs₀ hw₀ hh₀⟩
      · rintro s ⟨m, n, hs⟩
        exact hsome (hs.kept_surface hs₀ hw₀ hh₀)
    | none =>
      dsimp only
      split_ifs with halloc
      · exact hslot
      · have hs₀ := newSurface_kept hash zero g c
        have hsized : Sized g c (newSurface zero g c) := hs₀.sized rfl rfl
        rw [refresh_eq hsized]
        refine ((copyAll_spec hsized).mono ?_ ?_).map
        · intro s hs
          refine ⟨hsome (hs.kept_surface hs₀ rfl rfl), ?_⟩
          exact iff_of_true (hs.exact_fresh rfl) (noneBlank_of_filter hfilter)
        · rintro s ⟨m, n, hs⟩
          exact hsome (hs.kept_surface hs₀ rfl rfl)

/-- **Behind any calls** the slot holds what it should. -/
theorem snapshots_kept [DecidableEq η] (hinj : ∀ x y, Function.Injective (hash x y)) :
    ∀ (calls : List Call) (slot : Option (ShadowSurface η)), Kept hash zero g slot →
      Kept hash zero g (snapshots hash zero g slot calls)
  | [], _, hslot => hslot
  | c :: calls, slot, hslot => by
      refine snapshots_kept hinj calls _ ?_
      exact ((snapshotToShadow_spec (c := c) hinj hslot).mono (fun _ hs => hs.1)
        fun _ hs => hs).stateOr slot fun _ hs => hs

/-- **Snapshots are exact** unless a strip is lost.  Behind any calls on a slot that started out
empty, whatever of them failed and wherever, the next call does not panic; and if it returns, its
snapshot is exact if and only if no strip that was never written since the surface was allocated is
shown pixels that hash to the initial value and are not the initial ones. -/
theorem snapshot_exact_iff [DecidableEq η] (hash : ℕ → ℕ → List UInt8 → η)
    (hinj : ∀ x y, Function.Injective (hash x y)) (zero : η) (g : Geometry) (calls : List Call)
    (c : Call) :
    let slot := snapshots hash zero g none calls
    snapshotToShadow hash zero g slot c ≠ .panicked ∧
      ∀ slot', snapshotToShadow hash zero g slot c = .done slot' →
        (Exact hash g c slot' ↔ NoneBlank hash zero g slot c) := by
  intro slot
  have hslot : Kept hash zero g slot := snapshots_kept hinj calls none fun _ hs => nomatch hs
  have hspec := snapshotToShadow_spec (c := c) hinj hslot
  exact ⟨hspec.ne_panicked, fun slot' hdone => (hspec.done hdone).2⟩

end Slots

/-! ### A surface that was written before -/

/-- A hash that tells all contents apart. -/
def plainHash : ℕ → ℕ → List UInt8 → List UInt8 := fun _ _ bytes => bytes

theorem plainHash_injective (x y : ℕ) : Function.Injective (plainHash x y) := fun _ _ h => h

/-- A framebuffer of two strips, one above the other and of one colour each. -/
def twoStrips (upper lower : UInt8) (fails : Bool) : Call where
  w := 1
  h := 17
  pitch := 4
  bytes := List.replicate 64 upper ++ List.replicate 4 lower
  allocFails := fun _ => false
  rowFails := fun _ => fails

/-- The surface that a first framebuffer left, behind a second call that failed. -/
def stripsBehind : Option (ShadowSurface (List UInt8)) :=
  snapshots plainHash [1, 2, 3, 4] Profile.profileElla.geometry none
    [twoStrips 1 2 false, twoStrips 5 6 true]

/-- The third call, on that surface: one strip has moved and the other has not. -/
def stripsAfter : Outcome Errno (Option (ShadowSurface (List UInt8))) :=
  snapshotToShadow plainHash [1, 2, 3, 4] Profile.profileElla.geometry stripsBehind
    (twoStrips 1 3 false)

/-- A snapshot in a surface that was written before. -/
theorem two_strips_exact :
    stripsAfter = .done (stripsAfter.stateOr none) ∧
      (Exact plainHash Profile.profileElla.geometry (twoStrips 1 3 false)
          (stripsAfter.stateOr none) ↔
        NoneBlank plainHash [1, 2, 3, 4] Profile.profileElla.geometry stripsBehind
          (twoStrips 1 3 false)) := by
  have hdone : stripsAfter = .done (stripsAfter.stateOr none) := by decide +kernel
  exact ⟨hdone, (snapshot_exact_iff plainHash plainHash_injective [1, 2, 3, 4]
    Profile.profileElla.geometry [twoStrips 1 2 false, twoStrips 5 6 true]
    (twoStrips 1 3 false)).2 _ hdone⟩

/-! ### A lost strip -/

/-- A framebuffer of one pixel. -/
def onePixel (fails : Bool) : Call where
  w := 1
  h := 1
  pitch := 4
  bytes := [1, 2, 3, 4]
  allocFails := fun _ => false
  rowFails := fun _ => fails

/-- The pixel behind some calls, with a hash table that starts with its hash. -/
def pixelBehind (calls : List Call) : Outcome Errno (Option (ShadowSurface (List UInt8))) :=
  snapshotToShadow plainHash [1, 2, 3, 4] Profile.profileElla.geometry
    (snapshots plainHash [1, 2, 3, 4] Profile.profileElla.geometry none calls) (onePixel false)

/-- The first call fails at its first row.  The second returns, and the pixel stays blank. -/
theorem aborted_then_blank :
    ¬ ∀ (η : Type) (_ : DecidableEq η) (hash : ℕ → ℕ → List UInt8 → η)
      (_ : ∀ x y, Function.Injective (hash x y)) (zero : η) (g : Geometry) (calls : List Call)
      (c : Call), (∀ c' ∈ calls, c'.w * 4 ≤ c'.pitch) → c.w * 4 ≤ c.pitch →
      ∀ slot', snapshotToShadow hash zero g (snapshots hash zero g none calls) c = .done slot' →
        Exact hash g c slot' := by
  intro hall
  have hdone : pixelBehind [onePixel true] =
      .done ((pixelBehind [onePixel true]).stateOr none) := by
    decide +kernel
  have hblank : ((pixelBehind [onePixel true]).stateOr none).map ShadowSurface.pixels =
      some [0, 0, 0, 0] := by
    decide +kernel
  obtain ⟨s, hs, -, -, hexact, -⟩ := hall (List UInt8) inferInstance plainHash plainHash_injective
    [1, 2, 3, 4] Profile.profileElla.geometry [onePixel true] (onePixel false) (by decide)
    (by decide) _ hdone
  rw [hs, Option.map_some, Option.some_inj, hexact] at hblank
  exact absurd hblank (by decide)

end Vino.Kms.Snapshot
