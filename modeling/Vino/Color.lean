import Vino.Lib.Checked

/-!
# Colour Management

The colour transform of a CRTC: a matrix and then a gamma ramp, applied to 8-bit channels.  A matrix
that only scales each channel is collapsed with the ramp into one 8-bit table per channel; any other
matrix is applied to every pixel.  The arithmetic is checked: an operation that overflows, a cast
that loses something and an index behind the end of a table fail the computation.

* `apply_succeeds`: no pipeline ever fails on a pixel,
* `fused_eq_mixed`: the tables of a scaling matrix hold what the general path computes,
* `diagonal_path_general`: building and applying a pipeline never fails, and on a scaling matrix it
  gives what the general path gives.
-/

namespace Vino.Color

open Vino.Lib.Checked

/-! ### Fixed point -/

/-- 1.0 as a matrix coefficient. -/
def q : ℤ := 65536

/-- The largest pixel value. -/
def maxValue : ℤ := 0xffff

/-- Added before a shift, to round to nearest. -/
def halfQ : ℤ := 32768

/-- Entries in the table of a channel. -/
def lutLen : ℕ := 256

def clamp (lo hi v : ℤ) : ℤ := max lo (min v hi)

/-- Expand an 8-bit channel: 0 to 0, and 255 to 65535. -/
def expand (v : UInt8) : Option ℤ := mul32 v.toNat 257

/-- Round a channel back to 8 bits. -/
def narrow (v : ℤ) : Option UInt8 := do
  let s ← add32 (clamp 0 maxValue v) 128
  let n ← unsigned 256 (min (s.tdiv 257) 255)
  return UInt8.ofNat n

/-- Sample a table, interpolating between neighbours. -/
def sample (table : List UInt16) (v : ℤ) : Option ℤ := do
  let v := clamp 0 maxValue v
  let idx ← unsigned (2 ^ 32) (v.tdiv 257)
  let frac ← sub32 v (← mul32 idx 257)
  let a ← table[min idx (lutLen - 1)]?
  let b ← table[min (idx + 1) (lutLen - 1)]?
  let x ← mul32 a.toNat (← sub32 257 frac)
  let y ← mul32 b.toNat frac
  let s ← add32 (← add32 x y) 128
  return s.tdiv 257

/-- A product in 16.16, rounded back to a pixel value. -/
def rounded (acc : ℤ) : Option ℤ := do
  let s ← add64 acc halfQ
  i32 (clamp 0 maxValue (s >>> (16 : ℕ)))

/-! ### The properties of a CRTC -/

/-- An entry of a gamma ramp. -/
structure ColorLut where
  red : UInt16
  green : UInt16
  blue : UInt16
  deriving DecidableEq, Repr

/-- A colour matrix, row by row, each coefficient a sign bit over a 31.32 magnitude. -/
structure ColorCtm where
  matrix : Fin 9 → UInt64

def signBit : UInt64 := 0x8000000000000000

def ColorCtm.coefficient (m : ColorCtm) (i : Fin 9) : Int64 :=
  let magnitude := (m.matrix i &&& ~~~signBit).toInt64
  if m.matrix i &&& signBit ≠ 0 then -magnitude else magnitude

/-- The tables of the three channels, one behind the other. -/
abbrev Table := Vector UInt16 (3 * lutLen)

/-- The tables of a gamma ramp; one that is too short is extended with the identity. -/
def readLut (lut : List ColorLut) : Table :=
  Vector.ofFn fun j =>
    match lut[j.val % lutLen]? with
    | none => UInt16.ofNat (j.val % lutLen * 257)
    | some e => if j.val < lutLen then e.red else if j.val < 2 * lutLen then e.green else e.blue

/-- A coefficient in 16.16, saturated. -/
def toQ16 (v : Int64) : Option Int32 := do
  let x ← i32 (clamp (-2147483648) 2147483647 (v.toInt >>> (16 : ℕ)))
  return Int32.ofInt x

/-- The matrix in 16.16. -/
def q16Matrix (m : ColorCtm) : Option (Fin 9 → Int32) := tabulate fun i => toQ16 (m.coefficient i)

/-! ### Pipelines -/

/-- A transform, in the form that is cheapest to apply. -/
inductive ColorPipeline where
  | fused (t : Vector UInt8 (3 * lutLen))
  | mixed (ctm : Fin 9 → Int32) (gamma : Option Table)

/-- The table of a channel. -/
def channel (t : Table) (c : ℕ) : Option (List UInt16) :=
  if (c + 1) * lutLen ≤ 3 * lutLen then some ((t.toList.drop (c * lutLen)).take lutLen) else none

/-- The gamma ramp behind the matrix, and the channel as 8 bits. -/
def ramped (gamma : Option Table) (c : ℕ) (v : ℤ) : Option UInt8 := do
  let v ← match gamma with
    | none => some v
    | some t => do sample (← channel t c) v
  narrow (clamp 0 maxValue v)

/-- An entry of the collapsed tables. -/
def fuseEntry (gains : Option (List Int32)) (gamma : Option Table) (c i : ℕ) : Option UInt8 := do
  let v ← expand (UInt8.ofNat i)
  let v ← match gains with
    | none => some v
    | some g => do
        let gain ← g[c]?
        rounded (← mul64 gain.toInt v)
  ramped gamma c v

/-- Collapse the diagonal of a matrix and a gamma ramp into a table per channel. -/
def fuse (diag : Option (Fin 9 → Int32)) (gamma : Option Table) : Option ColorPipeline := do
  let gains := diag.map fun m => [m 0, m 4, m 8]
  let t ← Vector.ofFnM fun j : Fin (3 * lutLen) => fuseEntry gains gamma (j / lutLen) (j % lutLen)
  return .fused t

/-- The matrix has a coefficient beside its diagonal. -/
def mixes (m : Fin 9 → Int32) : Bool :=
  m 1 != 0 || m 2 != 0 || m 3 != 0 || m 5 != 0 || m 6 != 0 || m 7 != 0

/-- What a matrix that does not mix is built to; the inner `none` is the identity. -/
def collapse (matrix : Option (Fin 9 → Int32)) (gamma : Option Table) :
    Option (Option ColorPipeline) :=
  if matrix.isNone ∧ gamma.isNone then some none else some <$> fuse matrix gamma

/-- The pipeline of the properties. -/
def build (lut : Option (List ColorLut)) (ctm : Option ColorCtm) :
    Option (Option ColorPipeline) := do
  let gamma := lut.map readLut
  match ctm with
  | none => collapse none gamma
  | some c => do
      let m ← q16Matrix c
      if mixes m then return some (.mixed m gamma)
      -- A compositor that turns a corrector off programs the identity.
      else if m 0 = 65536 ∧ m 4 = 65536 ∧ m 8 = 65536 then collapse none gamma
      else collapse (some m) gamma

/-- A row of the matrix applied to the three channels. -/
def mul (x y z : Int32) (r g b : ℤ) : Option ℤ := do
  let x ← mul64 x.toInt r
  let y ← mul64 y.toInt g
  let z ← mul64 z.toInt b
  rounded (← add64 (← add64 x y) z)

/-- Apply the transform to one pixel. -/
def ColorPipeline.apply (p : ColorPipeline) (r g b : UInt8) : Option (UInt8 × UInt8 × UInt8) :=
  match p with
  | .fused t => do
      let r ← t[r.toNat]?
      let g ← t[lutLen + g.toNat]?
      let b ← t[2 * lutLen + b.toNat]?
      return (r, g, b)
  | .mixed ctm gamma => do
      let r ← expand r
      let g ← expand g
      let b ← expand b
      let x ← mul (ctm 0) (ctm 1) (ctm 2) r g b
      let y ← mul (ctm 3) (ctm 4) (ctm 5) r g b
      let z ← mul (ctm 6) (ctm 7) (ctm 8) r g b
      return (← ramped gamma 0 x, ← ramped gamma 1 y, ← ramped gamma 2 z)

/-! ### Every operation stays in range -/

/-- A pixel value. -/
def InRange (v : ℤ) : Prop := 0 ≤ v ∧ v ≤ 65535

theorem clamp_inRange (v : ℤ) : InRange (clamp 0 maxValue v) := by
  unfold InRange clamp maxValue
  omega

theorem clamp_of_inRange {v : ℤ} (hv : InRange v) : clamp 0 maxValue v = v := by
  unfold InRange at hv
  unfold clamp maxValue
  omega

/-- The pixel value of a channel. -/
def expanded (v : UInt8) : ℤ := v.toNat * 257

theorem expanded_inRange (v : UInt8) : InRange (expanded v) := by
  have hv : v.toNat < 256 := v.toNat_lt
  unfold InRange expanded
  omega

theorem expand_eq (v : UInt8) : expand v = some (expanded v) := by
  have hv : v.toNat < 256 := v.toNat_lt
  have hfits : I32 ((v.toNat : ℤ) * 257) := by
    unfold I32
    omega
  exact if_pos hfits

theorem narrow_eq {v : ℤ} (hv : InRange v) :
    narrow v = some (UInt8.ofNat ((v + 128) / 257).toNat) := by
  have hsum : I32 (v + 128) := by
    unfold InRange at hv
    unfold I32
    omega
  have hdiv : (v + 128).tdiv 257 = (v + 128) / 257 :=
    Int.tdiv_eq_ediv_of_nonneg (by unfold InRange at hv; omega)
  have hmin : min ((v + 128) / 257) 255 = (v + 128) / 257 := by
    unfold InRange at hv
    omega
  have hbyte : 0 ≤ (v + 128) / 257 ∧ (v + 128) / 257 < (256 : ℕ) := by
    unfold InRange at hv
    omega
  unfold narrow
  rw [clamp_of_inRange hv, add32, i32, if_pos hsum]
  show (unsigned 256 (min ((v + 128).tdiv 257) 255) >>= fun n => some (UInt8.ofNat n)) = _
  rw [hdiv, hmin, unsigned, if_pos hbyte]
  rfl

theorem narrow_succeeds (v : ℤ) : ∃ x, narrow v = some x := by
  have hclamp : narrow v = narrow (clamp 0 maxValue v) := by
    unfold narrow
    rw [clamp_of_inRange (clamp_inRange v)]
  exact ⟨_, hclamp.trans (narrow_eq (clamp_inRange v))⟩

/-- **Narrowing undoes expanding.** -/
theorem narrow_expanded (v : UInt8) : narrow (expanded v) = some v := by
  have hdiv : (expanded v + 128) / 257 = v.toNat := by
    unfold expanded
    omega
  rw [narrow_eq (expanded_inRange v), hdiv]
  simp

/-- **Sampling a table of 256 entries** stays in range. -/
theorem sample_succeeds {table : List UInt16} (htable : table.length = lutLen) (v : ℤ) :
    Succeeds (sample table v) InRange := by
  have hv := clamp_inRange v
  unfold sample
  generalize clamp 0 maxValue v = v at hv ⊢
  have hdiv : v.tdiv 257 = v / 257 := Int.tdiv_eq_ediv_of_nonneg hv.1
  have hrange : 0 ≤ v ∧ v ≤ 65535 := hv
  have hindex : ∀ i : ℕ, ∃ a, table[min i (lutLen - 1)]? = some a := by
    intro i
    have hlt : min i (lutLen - 1) < table.length := by
      rw [htable]
      unfold lutLen
      omega
    exact ⟨_, List.getElem?_eq_getElem hlt⟩
  dsimp only
  rw [hdiv]
  refine Succeeds.seq (succeeds_unsigned (by omega)) ?_
  have hidx : ((v / 257).toNat : ℤ) = v / 257 := Int.toNat_of_nonneg (by omega)
  obtain ⟨a, ha⟩ := hindex (v / 257).toNat
  obtain ⟨b, hb⟩ := hindex ((v / 257).toNat + 1)
  have hfrac : 0 ≤ v - v / 257 * 257 ∧ v - v / 257 * 257 ≤ 256 := by omega
  rw [hidx]
  refine Succeeds.seq (succeeds_mul32 (by unfold I32; omega)) ?_
  refine Succeeds.seq (succeeds_sub32 (by unfold I32; omega)) ?_
  generalize v - v / 257 * 257 = frac at hfrac ⊢
  rw [ha, hb]
  have haLt : (a.toNat : ℤ) ≤ 65535 := by have := a.toNat_lt; omega
  have hbLt : (b.toNat : ℤ) ≤ 65535 := by have := b.toNat_lt; omega
  have hx : 0 ≤ (a.toNat : ℤ) * (257 - frac) ∧
      (a.toNat : ℤ) * (257 - frac) ≤ 65535 * (257 - frac) :=
    ⟨mul_nonneg (by omega) (by omega), mul_le_mul_of_nonneg_right haLt (by omega)⟩
  have hy : 0 ≤ (b.toNat : ℤ) * frac ∧ (b.toNat : ℤ) * frac ≤ 65535 * frac :=
    ⟨mul_nonneg (by omega) (by omega), mul_le_mul_of_nonneg_right hbLt (by omega)⟩
  refine Succeeds.seq ⟨a, rfl, rfl⟩ (Succeeds.seq ⟨b, rfl, rfl⟩ ?_)
  refine Succeeds.seq (succeeds_sub32 (by unfold I32; omega)) ?_
  refine Succeeds.seq (succeeds_mul32 (by unfold I32; omega)) ?_
  refine Succeeds.seq (succeeds_mul32 (by unfold I32; omega)) ?_
  refine Succeeds.seq (succeeds_add32 (by unfold I32; omega)) ?_
  refine Succeeds.seq (succeeds_add32 (by unfold I32; omega)) ?_
  refine Succeeds.some ?_
  rw [Int.tdiv_eq_ediv_of_nonneg (by omega)]
  unfold InRange
  omega

/-- A product, rounded back to a pixel value. -/
def scaled (acc : ℤ) : ℤ := clamp 0 maxValue ((acc + 32768) / 65536)

theorem rounded_eq {acc : ℤ} (hacc : -422212465065984 ≤ acc ∧ acc ≤ 422212465065984) :
    rounded acc = some (scaled acc) := by
  have hsum : I64 (acc + halfQ) := by
    unfold I64 halfQ
    omega
  have hshift : (acc + halfQ) >>> (16 : ℕ) = (acc + 32768) / 65536 := Int.shiftRight_eq_div_pow _ _
  have hclamped := clamp_inRange ((acc + 32768) / 65536)
  have hfits : I32 (clamp 0 maxValue ((acc + 32768) / 65536)) := by
    unfold InRange at hclamped
    unfold I32
    omega
  unfold rounded
  rw [add64, i64, if_pos hsum]
  show i32 (clamp 0 maxValue ((acc + halfQ) >>> (16 : ℕ))) = _
  rw [hshift, i32, if_pos hfits]
  rfl

/-- A coefficient times a pixel value. -/
theorem product_bound (g : Int32) {v : ℤ} (hv : InRange v) :
    -140737488355328 ≤ g.toInt * v ∧ g.toInt * v ≤ 140737488355328 := by
  have hlo : -2147483648 ≤ g.toInt := g.le_toInt
  have hhi : g.toInt < 2147483648 := g.toInt_lt
  obtain ⟨hv0, hv1⟩ := hv
  constructor <;> nlinarith

theorem mul64_eq (g : Int32) {v : ℤ} (hv : InRange v) :
    mul64 g.toInt v = some (g.toInt * v) := by
  have hbound := product_bound g hv
  refine if_pos ?_
  unfold I64
  omega

/-- **A row of any matrix** is applied without an overflow. -/
theorem mul_eq (x y z : Int32) {r g b : ℤ} (hr : InRange r) (hg : InRange g) (hb : InRange b) :
    mul x y z r g b = some (scaled (x.toInt * r + y.toInt * g + z.toInt * b)) := by
  have hx := product_bound x hr
  have hy := product_bound y hg
  have hz := product_bound z hb
  have hxy : I64 (x.toInt * r + y.toInt * g) := by
    unfold I64
    omega
  have hxyz : I64 (x.toInt * r + y.toInt * g + z.toInt * b) := by
    unfold I64
    omega
  unfold mul
  rw [mul64_eq x hr, mul64_eq y hg, mul64_eq z hb]
  show (add64 (x.toInt * r) (y.toInt * g) >>= fun s => add64 s (z.toInt * b) >>= rounded) = _
  rw [add64, i64, if_pos hxy]
  show (add64 (x.toInt * r + y.toInt * g) (z.toInt * b) >>= rounded) = _
  rw [add64, i64, if_pos hxyz]
  exact rounded_eq (by omega)

theorem length_channel (t : Table) {c : ℕ} (hc : c < 3) :
    ∃ table, channel t c = some table ∧ table.length = lutLen := by
  refine ⟨_, if_pos (Nat.mul_le_mul_right lutLen hc), ?_⟩
  rw [List.length_take, List.length_drop, Vector.length_toList]
  unfold lutLen
  omega

theorem ramped_succeeds (gamma : Option Table) {c : ℕ} (hc : c < 3) (v : ℤ) :
    ∃ x, ramped gamma c v = some x := by
  cases gamma with
  | none => exact narrow_succeeds _
  | some t =>
      obtain ⟨table, hchannel, hlength⟩ := length_channel t hc
      obtain ⟨u, hu, -⟩ := sample_succeeds hlength v
      obtain ⟨x, hx⟩ := narrow_succeeds (clamp 0 maxValue u)
      refine ⟨x, ?_⟩
      unfold ramped
      dsimp only
      rw [hchannel]
      show (sample table v >>= fun u => narrow (clamp 0 maxValue u)) = some x
      rw [hu]
      exact hx

/-- A pixel of three channels. -/
def pixel (x y z : Option UInt8) : Option (UInt8 × UInt8 × UInt8) := do
  return (← x, ← y, ← z)

theorem pixel_succeeds {x y z : Option UInt8} (hx : ∃ a, x = some a) (hy : ∃ a, y = some a)
    (hz : ∃ a, z = some a) : ∃ out, pixel x y z = some out := by
  obtain ⟨a, rfl⟩ := hx
  obtain ⟨b, rfl⟩ := hy
  obtain ⟨c, rfl⟩ := hz
  exact ⟨_, rfl⟩

/-- What the general path computes. -/
theorem apply_mixed (ctm : Fin 9 → Int32) (gamma : Option Table) (r g b : UInt8) :
    (ColorPipeline.mixed ctm gamma).apply r g b =
      pixel
        (ramped gamma 0 (scaled ((ctm 0).toInt * expanded r + (ctm 1).toInt * expanded g +
          (ctm 2).toInt * expanded b)))
        (ramped gamma 1 (scaled ((ctm 3).toInt * expanded r + (ctm 4).toInt * expanded g +
          (ctm 5).toInt * expanded b)))
        (ramped gamma 2 (scaled ((ctm 6).toInt * expanded r + (ctm 7).toInt * expanded g +
          (ctm 8).toInt * expanded b))) := by
  have hr := expanded_inRange r
  have hg := expanded_inRange g
  have hb := expanded_inRange b
  unfold ColorPipeline.apply
  simp only [expand_eq, Option.bind_eq_bind, Option.bind_some, mul_eq _ _ _ hr hg hb]
  rfl

/-- **Applying a pipeline never fails.** -/
theorem apply_succeeds (p : ColorPipeline) (r g b : UInt8) : ∃ out, p.apply r g b = some out := by
  cases p with
  | fused t =>
      have hentry : ∀ i, i < 3 * lutLen → ∃ x, t[i]? = some x := fun i hi =>
        ⟨_, Vector.getElem?_eq_getElem hi⟩
      have hr : r.toNat < lutLen := r.toNat_lt
      have hg : g.toNat < lutLen := g.toNat_lt
      have hb : b.toNat < lutLen := b.toNat_lt
      exact pixel_succeeds (hentry r.toNat (by omega)) (hentry (lutLen + g.toNat) (by omega))
        (hentry (2 * lutLen + b.toNat) (by omega))
  | mixed ctm gamma =>
      rw [apply_mixed]
      exact pixel_succeeds (ramped_succeeds gamma (by decide) _)
        (ramped_succeeds gamma (by decide) _) (ramped_succeeds gamma (by decide) _)

theorem toQ16_succeeds (v : Int64) : ∃ x, toQ16 v = some x := by
  have hfits : I32 (clamp (-2147483648) 2147483647 (v.toInt >>> (16 : ℕ))) := by
    unfold I32 clamp
    omega
  refine ⟨Int32.ofInt (clamp (-2147483648) 2147483647 (v.toInt >>> (16 : ℕ))), ?_⟩
  unfold toQ16
  rw [i32, if_pos hfits]
  rfl

theorem q16Matrix_succeeds (m : ColorCtm) : ∃ q, q16Matrix m = some q := by
  choose g hg using fun i => toQ16_succeeds (m.coefficient i)
  exact ⟨g, tabulate_eq hg⟩

/-! ### The diagonal path -/

/-- The diagonal of a matrix. -/
def diagonal (m : Fin 9 → Int32) : ℕ → Int32
  | 0 => m 0
  | 1 => m 4
  | _ => m 8

/-- A channel behind the gain of a matrix that does not mix. -/
def gained (diag : Option (Fin 9 → Int32)) (c : ℕ) (v : UInt8) : ℤ :=
  match diag with
  | none => expanded v
  | some m => scaled ((diagonal m c).toInt * expanded v)

theorem fuseEntry_eq (diag : Option (Fin 9 → Int32)) (gamma : Option Table) {c : ℕ} (hc : c < 3)
    (v : UInt8) :
    fuseEntry (diag.map fun m => [m 0, m 4, m 8]) gamma c v.toNat =
      ramped gamma c (gained diag c v) := by
  unfold fuseEntry
  rw [UInt8.ofNat_toNat, expand_eq]
  cases diag with
  | none => rfl
  | some m =>
      have hgain : [m 0, m 4, m 8][c]? = some (diagonal m c) := by
        rcases c with _ | _ | _ | c
        · rfl
        · rfl
        · rfl
        · omega
      have hbound := product_bound (diagonal m c) (expanded_inRange v)
      simp only [Option.map_some, hgain, Option.bind_eq_bind, Option.bind_some,
        mul64_eq _ (expanded_inRange v)]
      rw [rounded_eq (by omega)]
      rfl

/-- **The collapsed tables** hold each channel behind its gain and its ramp. -/
theorem fuse_spec (diag : Option (Fin 9 → Int32)) (gamma : Option Table) :
    ∃ t, fuse diag gamma = some (.fused t) ∧ ∀ (c : ℕ), c < 3 → ∀ v : UInt8,
      t[c * lutLen + v.toNat]? = ramped gamma c (gained diag c v) := by
  have hentries : ∀ j : Fin (3 * lutLen),
      Succeeds (fuseEntry (diag.map fun m => [m 0, m 4, m 8]) gamma (j / lutLen) (j % lutLen))
        (fun x => fuseEntry (diag.map fun m => [m 0, m 4, m 8]) gamma (j / lutLen) (j % lutLen) =
          some x) := by
    intro j
    have hc : j.val / lutLen < 3 := (Nat.div_lt_iff_lt_mul (by decide)).2 j.isLt
    have hi : j.val % lutLen < 256 := Nat.mod_lt _ (by decide)
    have hv : (UInt8.ofNat (j.val % lutLen)).toNat = j.val % lutLen :=
      Nat.mod_eq_of_lt hi
    have hentry := fuseEntry_eq diag gamma hc (UInt8.ofNat (j.val % lutLen))
    rw [hv] at hentry
    obtain ⟨x, hx⟩ := ramped_succeeds gamma hc (gained diag (j / lutLen) _)
    exact ⟨x, hentry.trans hx, hentry.trans hx⟩
  obtain ⟨t, ht, hspec⟩ := Succeeds.ofFnM hentries
  refine ⟨t, ?_, fun c hc v => ?_⟩
  · unfold fuse
    dsimp only
    rw [ht]
    rfl
  · have hv : v.toNat < lutLen := v.toNat_lt
    have hj : c * lutLen + v.toNat < 3 * lutLen := by
      unfold lutLen at hv ⊢
      omega
    have hentry := hspec ⟨c * lutLen + v.toNat, hj⟩
    have hdiv : (c * lutLen + v.toNat) / lutLen = c := by
      rw [Nat.mul_comm, Nat.mul_add_div (by decide), Nat.div_eq_of_lt hv, Nat.add_zero]
    have hmod : (c * lutLen + v.toNat) % lutLen = v.toNat := by
      rw [Nat.mul_comm, Nat.mul_add_mod, Nat.mod_eq_of_lt hv]
    rw [Vector.getElem?_eq_getElem hj, ← fuseEntry_eq diag gamma hc v]
    dsimp only at hentry
    rw [hdiv, hmod] at hentry
    exact hentry.symm

/-- The identity in 16.16. -/
def identityQ16 : Fin 9 → Int32 := ![65536, 0, 0, 0, 65536, 0, 0, 0, 65536]

/-- Gains of one change no channel. -/
theorem scaled_one (v : UInt8) : scaled (65536 * expanded v) = expanded v := by
  have hv := expanded_inRange v
  have hdiv : (65536 * expanded v + 32768) / 65536 = expanded v := by omega
  unfold scaled
  rw [hdiv, clamp_of_inRange hv]

theorem diagonal_identityQ16 (c : ℕ) : diagonal identityQ16 c = 65536 := by
  rcases c with _ | _ | c <;> rfl

/-- No matrix is the identity matrix. -/
theorem gained_none (c : ℕ) (v : UInt8) : gained none c v = gained (some identityQ16) c v := by
  have hone : (65536 : Int32).toInt = 65536 := by decide
  unfold gained
  dsimp only
  rw [diagonal_identityQ16, hone, scaled_one]

/-- **On a matrix that does not mix** the general path applies a gain to each channel. -/
theorem apply_mixed_diagonal {m : Fin 9 → Int32} (hm : mixes m = false) (gamma : Option Table)
    (r g b : UInt8) :
    (ColorPipeline.mixed m gamma).apply r g b =
      pixel (ramped gamma 0 (gained (some m) 0 r)) (ramped gamma 1 (gained (some m) 1 g))
        (ramped gamma 2 (gained (some m) 2 b)) := by
  have hzero : (0 : Int32).toInt = 0 := by decide
  simp only [mixes, Bool.or_eq_false_iff, bne_eq_false_iff_eq] at hm
  obtain ⟨⟨⟨⟨⟨h1, h2⟩, h3⟩, h5⟩, h6⟩, h7⟩ := hm
  rw [apply_mixed, h1, h2, h3, h5, h6, h7, hzero]
  simp only [zero_mul, add_zero, zero_add]
  rfl

theorem mixes_identityQ16 : mixes identityQ16 = false := by decide

/-- **The fast path computes what the general path computes.** -/
theorem fused_eq_mixed {diag : Option (Fin 9 → Int32)} {m : Fin 9 → Int32}
    (hm : mixes m = false) (hgain : ∀ c v, gained diag c v = gained (some m) c v)
    (gamma : Option Table) :
    ∃ p, fuse diag gamma = some p ∧ ∀ r g b,
      p.apply r g b = (ColorPipeline.mixed m gamma).apply r g b := by
  obtain ⟨t, ht, hspec⟩ := fuse_spec diag gamma
  refine ⟨.fused t, ht, fun r g b => ?_⟩
  have hr := hspec 0 (by decide) r
  have hg := hspec 1 (by decide) g
  have hb := hspec 2 (by decide) b
  rw [hgain, Nat.zero_mul, Nat.zero_add] at hr
  rw [hgain, Nat.one_mul] at hg
  rw [hgain] at hb
  rw [apply_mixed_diagonal hm, ← hr, ← hg, ← hb]
  rfl

/-- The matrix of the property: the identity when there is none. -/
def matrixOf : Option ColorCtm → Option (Fin 9 → Int32)
  | none => some identityQ16
  | some c => q16Matrix c

/-- What building gives stands for the general path of a matrix: the pipeline computes the same
pixels, and no pipeline means that the general path is the identity. -/
def Stands (m : Fin 9 → Int32) (gamma : Option Table) (built : Option ColorPipeline) : Prop :=
  ∀ r g b,
    match built with
    | some p => p.apply r g b = (ColorPipeline.mixed m gamma).apply r g b
    | none => (ColorPipeline.mixed m gamma).apply r g b = some (r, g, b)

theorem collapse_stands {diag : Option (Fin 9 → Int32)} {m : Fin 9 → Int32}
    (hm : mixes m = false) (hgain : ∀ c v, gained diag c v = gained (some m) c v)
    (gamma : Option Table) : ∃ built, collapse diag gamma = some built ∧ Stands m gamma built := by
  unfold collapse
  split_ifs with hnone
  · refine ⟨none, rfl, fun r g b => ?_⟩
    obtain ⟨hdiag, hgamma⟩ := hnone
    rw [Option.isNone_iff_eq_none] at hdiag hgamma
    subst hdiag hgamma
    have hramped : ∀ c v, ramped none c (gained none c v) = some v := by
      intro c v
      show narrow (clamp 0 maxValue (expanded v)) = some v
      rw [clamp_of_inRange (expanded_inRange v)]
      exact narrow_expanded v
    dsimp only
    rw [apply_mixed_diagonal hm, ← hgain, ← hgain, ← hgain, hramped, hramped, hramped]
    rfl
  · obtain ⟨p, hp, happly⟩ := fused_eq_mixed hm hgain gamma
    refine ⟨some p, ?_, happly⟩
    rw [hp]
    rfl

theorem build_stands (lut : Option (List ColorLut)) (ctm : Option ColorCtm) {m : Fin 9 → Int32}
    (hctm : matrixOf ctm = some m) (hm : mixes m = false) :
    ∃ built, build lut ctm = some built ∧ Stands m (lut.map readLut) built := by
  cases ctm with
  | none =>
      obtain rfl : identityQ16 = m := Option.some.inj hctm
      exact collapse_stands hm gained_none _
  | some c =>
      have hmatrix : q16Matrix c = some m := hctm
      unfold build
      simp only [hmatrix, hm, Option.bind_eq_bind, Option.bind_some, Bool.false_eq_true, if_false]
      split_ifs with hone
      · refine collapse_stands hm (fun c v => ?_) _
        have hdiagonal : diagonal m c = diagonal identityQ16 c := by
          rw [diagonal_identityQ16]
          rcases c with _ | _ | c
          · exact hone.1
          · exact hone.2.1
          · exact hone.2.2
        rw [gained_none]
        unfold gained
        dsimp only
        rw [hdiagonal]
      · exact collapse_stands hm (fun _ _ => rfl) _

/-- **The diagonal fast path equals the general path.**  Building a pipeline and applying it never
overflows nor leaves a table, whatever the matrix; and when the matrix has nothing beside its
diagonal, what is built computes the pixels of the general path with the same matrix and table. -/
theorem diagonal_path_general (lut : Option (List ColorLut)) (ctm : Option ColorCtm) :
    (∃ m, matrixOf ctm = some m) ∧
    (∃ built, build lut ctm = some built) ∧
    (∀ (p : ColorPipeline) (r g b : UInt8), ∃ out, p.apply r g b = some out) ∧
    (∀ (table : List UInt16) (v : ℤ), table.length = lutLen → ∃ x, sample table v = some x) ∧
    (∀ v, ∃ x, narrow v = some x) ∧ (∀ v, ∃ x, toQ16 v = some x) ∧
    ∀ m, matrixOf ctm = some m → mixes m = false →
      ∃ built, build lut ctm = some built ∧ Stands m (lut.map readLut) built := by
  have hmatrix : ∃ m, matrixOf ctm = some m := by
    cases ctm with
    | none => exact ⟨_, rfl⟩
    | some c => exact q16Matrix_succeeds c
  have hsample : ∀ (table : List UInt16) (v : ℤ), table.length = lutLen →
      ∃ x, sample table v = some x := by
    intro table v htable
    obtain ⟨x, hx, -⟩ := sample_succeeds htable v
    exact ⟨x, hx⟩
  refine ⟨hmatrix, ?_, apply_succeeds, hsample, narrow_succeeds, toQ16_succeeds,
    fun m => build_stands lut ctm⟩
  obtain ⟨m, hm⟩ := hmatrix
  cases hmixes : mixes m with
  | false =>
      obtain ⟨built, hbuilt, -⟩ := build_stands lut ctm hm hmixes
      exact ⟨built, hbuilt⟩
  | true =>
      cases ctm with
      | none =>
          obtain rfl : identityQ16 = m := Option.some.inj hm
          rw [mixes_identityQ16] at hmixes
          cases hmixes
      | some c =>
          refine ⟨some (.mixed m (lut.map readLut)), ?_⟩
          have hc : q16Matrix c = some m := hm
          simp [build, hc, hmixes]

/-- A matrix that halves the green channel and inverts the blue one. -/
def halfGreen : ColorCtm :=
  ⟨![0x100000000, 0, 0, 0, 0x80000000, 0, 0, 0, 0x8000000100000000]⟩

/-- A short ramp. -/
def shortRamp : List ColorLut := [⟨10, 20, 30⟩, ⟨300, 400, 500⟩]

theorem diagonal_path_halfGreen :
    ∃ built, build (some shortRamp) (some halfGreen) = some built ∧
      Stands ![65536, 0, 0, 0, 32768, 0, 0, 0, -65536] (some (readLut shortRamp)) built :=
  (diagonal_path_general (some shortRamp) (some halfGreen)).2.2.2.2.2.2 _ (by decide +kernel)
    (by decide)

end Vino.Color
