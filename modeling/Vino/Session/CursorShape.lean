import Vino.Session.Calls
import Vino.Session.Delimited

/-!
# From a Cursor of the Display to the Picture on the Wire

A cursor comes from another process as a width, a height, a stride and a buffer.  It is repacked
row by row, and the session sends it behind a message that announces its size.  A step that the
source cannot take is a panic: cutting a buffer into pieces of no bytes, and dropping the last two
bytes of a picture that has none.

* `cursorBgra_rows`: what is repacked is the picture's rows,
* `cursorImage_eq`: the builder of the picture, with its panic told apart from its errors,
* `sends_setCursor`: a picture with pixels is sent as it was repacked,
* `shows_iff`: when a cursor is handled without a panic.
-/

namespace Vino.Session

open Vino.Cp.Messages Vino.Cp.Seal Vino.Lib.Effect Vino.Profile
open Vino.Haar.Records (Errno)

/-! ### Repacking -/

/-- The cursor of a display. -/
structure Cursor where
  hotX : ℤ
  hotY : ℤ
  width : UInt32
  height : UInt32
  enabled : Bool
  pixels : List UInt8
  pixelFormat : UInt32
  stride : UInt32
  deriving DecidableEq, Repr

/-- `AR24`, as a little-endian word. -/
def drmFormatArgb8888 : UInt32 := 0x34325241

/-- Why a cursor is refused. -/
inductive CursorError where
  | unsupportedFormat (pixelFormat : UInt32)
  | rowSizeOverflow
  | bufferSizeOverflow
  | imageSizeOverflow
  | shortBuffer
  deriving DecidableEq, Repr

/-- A product of machine sizes, or an error. -/
def checkedSize (a b : ℕ) (e : CursorError) : Except CursorError ℕ :=
  if a * b < 2 ^ 64 then .ok (a * b) else .error e

/-- The whole pieces of `n` elements of a list. -/
def chunksExact {α : Type} (n : ℕ) (l : List α) : List (List α) :=
  (List.range (l.length / n)).map fun i => (l.drop (i * n)).take n

/-- The sizes a cursor is repacked by: its row, and what its rows take in the buffer. -/
def cursorGeometry (cursor : Cursor) : Except CursorError (ℕ × ℕ) :=
  if cursor.pixelFormat ≠ drmFormatArgb8888 then .error (.unsupportedFormat cursor.pixelFormat)
  else do
    let row ← checkedSize cursor.width.toNat 4 .rowSizeOverflow
    let required ← checkedSize cursor.stride.toNat cursor.height.toNat .bufferSizeOverflow
    if cursor.stride.toNat < row ∨ cursor.pixels.length < required then .error .shortBuffer
    else do
      let _ ← checkedSize row cursor.height.toNat .imageSizeOverflow
      return (row, required)

/-- Repack the rows of a cursor; `none` is a panic. -/
def cursorBgra (cursor : Cursor) : Option (Except CursorError (List UInt8)) :=
  match cursorGeometry cursor with
  | .error e => some (.error e)
  | .ok (row, required) =>
      if cursor.stride = 0 then none
      else some (.ok ((chunksExact cursor.stride.toNat (cursor.pixels.take required)).flatMap
        (List.take row)))

/-- The format is known and the buffer holds the rows. -/
def Cursor.Holds (cursor : Cursor) : Prop :=
  cursor.pixelFormat = drmFormatArgb8888 ∧ cursor.width.toNat * 4 ≤ cursor.stride.toNat ∧
    cursor.stride.toNat * cursor.height.toNat ≤ cursor.pixels.length

/-- The rows of the picture, one behind the other. -/
def Cursor.rows (cursor : Cursor) : List UInt8 :=
  (List.range cursor.height.toNat).flatMap fun i =>
    (cursor.pixels.drop (i * cursor.stride.toNat)).take (cursor.width.toNat * 4)

theorem checkedSize_eq {a b : ℕ} (e : CursorError) (h : a * b < 2 ^ 64) :
    checkedSize a b e = .ok (a * b) :=
  if_pos h

/-- No product of the geometry overflows: what is accepted is what the buffer holds. -/
theorem cursorGeometry_eq_ok {cursor : Cursor} {sizes : ℕ × ℕ} :
    cursorGeometry cursor = .ok sizes ↔ cursor.Holds ∧
      sizes = (cursor.width.toNat * 4, cursor.stride.toNat * cursor.height.toNat) := by
  have hw : cursor.width.toNat < 2 ^ 32 := cursor.width.toNat_lt
  have hrow : cursor.width.toNat * 4 < 2 ^ 64 := by omega
  have hbuffer : cursor.stride.toNat * cursor.height.toNat < 2 ^ 64 := by
    calc cursor.stride.toNat * cursor.height.toNat < 2 ^ 32 * 2 ^ 32 :=
          Nat.mul_lt_mul'' cursor.stride.toNat_lt cursor.height.toNat_lt
      _ = 2 ^ 64 := by norm_num
  unfold cursorGeometry Cursor.Holds
  by_cases hformat : cursor.pixelFormat = drmFormatArgb8888
  · rw [if_neg (by simpa using hformat), checkedSize_eq _ hrow, checkedSize_eq _ hbuffer]
    simp only [bind, Except.bind]
    split_ifs with hbad
    · constructor
      · nofun
      · rintro ⟨⟨-, hstride, hpixels⟩, -⟩
        omega
    · have himage : cursor.width.toNat * 4 * cursor.height.toNat < 2 ^ 64 := by
        refine lt_of_le_of_lt (Nat.mul_le_mul_right _ ?_) hbuffer
        omega
      rw [checkedSize_eq _ himage]
      constructor
      · intro h
        exact ⟨⟨hformat, by omega, by omega⟩, (Except.ok.inj h).symm⟩
      · rintro ⟨-, rfl⟩
        rfl
  · rw [if_pos hformat]
    constructor
    · nofun
    · rintro ⟨⟨h, -⟩, -⟩
      exact absurd h hformat

/-- The pieces of a buffer that holds `n` of them. -/
theorem chunksExact_take {α : Type} {k n : ℕ} {l : List α} (hk : 0 < k) (hl : k * n ≤ l.length) :
    chunksExact k (l.take (k * n)) = (List.range n).map fun i => (l.drop (i * k)).take k := by
  have hlen : (l.take (k * n)).length = k * n := by rw [List.length_take]; omega
  rw [chunksExact, hlen, Nat.mul_div_cancel_left n hk]
  refine List.map_congr_left fun i hi => ?_
  have hfit : (i + 1) * k ≤ k * n := by
    rw [Nat.mul_comm k n]
    exact Nat.mul_le_mul_right k (List.mem_range.1 hi)
  rw [Nat.succ_mul] at hfit
  rw [List.drop_take, List.take_take, Nat.min_eq_left (by omega)]

/-- **What a cursor is repacked to.**  It is refused exactly if its format is unknown or its buffer
does not hold its rows; a cursor of stride zero is a panic, any other gives its rows. -/
theorem cursorBgra_rows (cursor : Cursor) :
    (¬ cursor.Holds → ∃ e, cursorBgra cursor = some (.error e)) ∧
    (cursor.Holds → cursorBgra cursor =
      if cursor.stride = 0 then none else some (.ok cursor.rows)) := by
  constructor
  · intro h
    cases hgeometry : cursorGeometry cursor with
    | error e => exact ⟨e, by rw [cursorBgra, hgeometry]⟩
    | ok sizes => exact absurd (cursorGeometry_eq_ok.1 hgeometry).1 h
  · intro h
    rw [cursorBgra, cursorGeometry_eq_ok.2 ⟨h, rfl⟩]
    dsimp only
    split_ifs with hstride
    · rfl
    · have hpos : 0 < cursor.stride.toNat := by
        refine Nat.pos_of_ne_zero fun hzero => hstride ?_
        exact UInt32.toNat_inj.1 hzero
      rw [chunksExact_take hpos h.2.2, List.flatMap_map]
      simp only [Cursor.rows, List.take_take, Nat.min_eq_left h.2.1]

/-- There are as many rows as the picture is high, each as long as it is wide. -/
theorem length_rows {cursor : Cursor} (h : cursor.Holds) :
    cursor.rows.length = cursor.width.toNat * cursor.height.toNat * 4 := by
  obtain ⟨-, hrow, hbuffer⟩ := h
  have hlen (i : ℕ) (hi : i < cursor.height.toNat) :
      ((cursor.pixels.drop (i * cursor.stride.toNat)).take (cursor.width.toNat * 4)).length =
        cursor.width.toNat * 4 := by
    have hfit : (i + 1) * cursor.stride.toNat ≤ cursor.stride.toNat * cursor.height.toNat := by
      rw [Nat.mul_comm cursor.stride.toNat]
      exact Nat.mul_le_mul_right _ hi
    rw [Nat.succ_mul] at hfit
    rw [List.length_take, List.length_drop]
    omega
  rw [Cursor.rows, List.length_flatMap]
  rw [List.map_congr_left fun i hi => hlen i (List.mem_range.1 hi)]
  simp
  ring

/-! ### The picture on the wire -/

/-- The message with a cursor's picture; `none` is a panic. -/
def cursorImageOrPanic (counter : UInt16) (connector : UInt8) (w h : UInt16) (bgra : List UInt8) :
    Option (Except Errno (List UInt8)) :=
  if w.toNat * h.toNat * 4 ≠ bgra.length then some (.error .EINVAL)
  else
    match cursorHeadId connector with
    | .error e => some (.error e)
    | .ok dockConnector =>
        -- `bgra.len() - 2` of an empty picture.
        if bgra.length < 2 then none
        else some (.ok (padTo 32 (message 0x401c 0x41 counter [dockConnector, cursorHidden]) ++
          [0, 0] ++ bgra.take (bgra.length - 2)))

/-- Where the panic is taken for an error, the message is the one of `cursorImage`. -/
theorem cursorImage_eq (counter : UInt16) (connector : UInt8) (w h : UInt16)
    (bgra : List UInt8) : cursorImage counter connector w h bgra =
      (cursorImageOrPanic counter connector w h bgra).getD (.error .EINVAL) := by
  unfold cursorImage cursorImageOrPanic
  by_cases hsize : w.toNat * h.toNat * 4 = bgra.length
  · by_cases hshort : bgra.length < 2
    · rw [if_pos (Or.inr hshort), if_neg (by simpa using hsize)]
      unfold cursorHeadId
      split_ifs <;> simp
    · rw [if_neg (by simp [hsize, hshort]), if_neg (by simpa using hsize)]
      cases cursorHeadId connector with
      | error e => rfl
      | ok dock =>
        dsimp only
        rw [if_neg hshort]
        rfl
  · rw [if_pos (Or.inl hsize), if_pos hsize]
    rfl

/-- Upload a complete cursor image for one head; `none` is a panic. -/
def setCursorOrPanic (head : UInt8) (width height : ℕ) (bgra : List UInt8) :
    SessionM (Option Unit) := do
  let w ← fitU16 width "cursor width exceeds the wire format"
  let h ← fitU16 height "cursor height exceeds the wire format"
  let _ ← sendBuilt "cursor create" 0x1b fun counter _ => cursorCreate counter head w h
  let world ← get
  let _ ← ask
  match cursorImageOrPanic world.innerCounter head w h bgra with
  | none => return none
  | some (.error e) => throw (.build "cursor image" e)
  | some (.ok image) => do
      let _ ← sendControl 0x1c image
      updateShot head fun slot =>
        let (x, y, visible) := (slot.map fun s => (s.x, s.y, s.visible)).getD (0, 0, true)
        some { width := w, height := h, bgra := bgra, x := x, y := y, visible := visible }
      return some ()

/-- Where the panic is taken for an error, the upload is the one of `setCursor`. -/
theorem setCursor_eq (head : UInt8) (width height : ℕ) (bgra : List UInt8) :
    setCursor head width height bgra = (do
      match ← setCursorOrPanic head width height bgra with
      | none => throw (.build "cursor image" .EINVAL)
      | some () => return ()) := by
  unfold setCursor setCursorOrPanic
  simp only [sendBuilt, withMessage, bind_assoc, cursorImage_eq]
  refine bind_congr fun w => bind_congr fun h => bind_congr fun world => bind_congr fun a => ?_
  cases cursorCreate world.innerCounter head w h with
  | error e => rfl
  | ok create =>
    refine bind_congr fun reply => bind_congr fun world => bind_congr fun a => ?_
    rcases cursorImageOrPanic world.innerCounter head w h bgra with - | (e | image)
    · rfl
    · rfl
    · simp only [Option.getD_some, bind_assoc, pure_bind]
      exact bind_congr fun reply => (bind_pure _).symm

/-- The picture of a cursor: a header of 34 bytes and the pixels without the last two. -/
structure Pictures (cursor : Cursor) (bgra content : List UInt8) : Prop where
  length : content.length = 32 + cursor.width.toNat * cursor.height.toNat * 4
  pixels : content.drop 34 = bgra.take (bgra.length - 2)

/-- A cursor is refused, or repacked to its rows and then refused or sent; it is no panic. -/
def Shows (cursor : Cursor) (head : UInt8) (w : World) : Prop :=
  match cursorBgra cursor with
  | none => False
  | some (.error _) => True
  | some (.ok bgra) =>
      bgra = cursor.rows ∧ bgra.length = cursor.width.toNat * cursor.height.toNat * 4 ∧
      match setCursorOrPanic head cursor.width.toNat cursor.height.toNat bgra w with
      | .error _ _ => True
      | .ok none _ => False
      | .ok (some ()) w' => ∃ seq create seq' content,
          w'.trace = w.trace ++ [.control seq 0x1b create none, .control seq' 0x1c content none] ∧
            Pictures cursor bgra content

/-! ### Sending it -/

section Send

variable {T : List Action} {R : World → Prop}

/-- A message that goes out stands at the end of the trace. -/
theorem traces_sendControl (id : UInt16) (content : List UInt8) :
    Triple (fun w => w.trace = T) (sendControl id content)
      (fun _ w => ∃ seq, w.trace = T ++ [.control seq id content none]) (fun _ => True) := by
  refine Triple.bind (Q := fun _ w => ∃ seq, w.trace = T ++ [.control seq id content none])
    (triple_transmit (fun w hw _ => ⟨w.wireSeq, ?_⟩) fun _ _ _ _ => trivial) fun _ => ?_
  · show w.trace ++ [_] = _
    rw [hw]
  · exact triple_receiveOptional (fun w hw _ => hw) (fun w _ hw _ => hw) fun _ _ _ _ _ => trivial

theorem traces_fitU16 (value : ℕ) (text : String) :
    Triple (fun w => w.trace = T) (fitU16 value text)
      (fun v w => v.toNat = value ∧ w.trace = T) (fun _ => True) := by
  unfold fitU16
  split_ifs with h
  · exact Triple.throw fun _ _ => trivial
  · refine Triple.pure fun w hw => ⟨?_, hw⟩
    rw [UInt16.toNat_ofNat', Nat.mod_eq_of_lt (by omega)]

theorem traces_sendBuilt (label : String) (id : UInt16)
    (build : UInt16 → Rng → Except Errno (List UInt8)) :
    Triple (fun w => w.trace = T) (sendBuilt label id build)
      (fun _ w => ∃ seq content, w.trace = T ++ [.control seq id content none])
      (fun _ => True) := by
  refine Triple.bind (Q := fun _ w => w.trace = T) (Triple.get fun _ hw => hw) fun w => ?_
  refine Triple.bind (Q := fun _ w => w.trace = T) (triple_ask fun _ hw => hw) fun a => ?_
  split
  · exact Triple.throw fun _ _ => trivial
  · next content _ =>
    refine (traces_sendControl id content).mono (fun _ h => h) ?_ fun _ h => h
    rintro _ w ⟨seq, h⟩
    exact ⟨seq, content, h⟩

theorem traces_updateShot (head : UInt8) (f : Option CursorShot → Option CursorShot) :
    Triple (fun w => w.trace = T) (updateShot head f) (fun _ w => w.trace = T) (fun _ => True) := by
  unfold updateShot
  split
  · exact Triple.pure fun _ h => h
  · exact Triple.modify fun _ h => h

/-- The picture of a cursor that has pixels is no panic, and holds them. -/
theorem pictures_of_pixels {cursor : Cursor} (counter : UInt16) (head : UInt8) {w h : UInt16}
    (hw : w.toNat = cursor.width.toNat) (hh : h.toNat = cursor.height.toNat)
    (hsome : 0 < cursor.width.toNat * cursor.height.toNat) {bgra : List UInt8}
    (hlen : bgra.length = cursor.width.toNat * cursor.height.toNat * 4) :
    ∃ result, cursorImageOrPanic counter head w h bgra = some result ∧
      ∀ content, result = .ok content → Pictures cursor bgra content := by
  unfold cursorImageOrPanic
  rw [hw, hh, if_neg (by simp [hlen])]
  cases cursorHeadId head with
  | error e => exact ⟨_, rfl, nofun⟩
  | ok dock =>
    dsimp only
    rw [if_neg (by omega)]
    refine ⟨_, rfl, ?_⟩
    rintro content heq
    have hcontent := (Except.ok.inj heq).symm
    subst hcontent
    have hheader : (padTo 32 (message 0x401c 0x41 counter [dock, cursorHidden]) ++
        ([0, 0] : List UInt8)).length = 34 := by simp
    refine ⟨?_, List.drop_left' hheader⟩
    rw [List.length_append, hheader, List.length_take]
    omega

/-- **A cursor that has pixels is sent as it was repacked**, or refused. -/
theorem sends_setCursor {cursor : Cursor} (head : UInt8)
    (hsome : 0 < cursor.width.toNat * cursor.height.toNat) {bgra : List UInt8}
    (hlen : bgra.length = cursor.width.toNat * cursor.height.toNat * 4) :
    Triple (fun w => w.trace = T)
      (setCursorOrPanic head cursor.width.toNat cursor.height.toNat bgra)
      (fun r w => r = some () ∧ ∃ seq create seq' content,
        w.trace = T ++ [.control seq 0x1b create none, .control seq' 0x1c content none] ∧
          Pictures cursor bgra content) (fun _ => True) := by
  refine (traces_fitU16 _ _).bind fun w => Triple.given fun hw => ?_
  refine (traces_fitU16 _ _).bind fun h => Triple.given fun hh => ?_
  refine (traces_sendBuilt "cursor create" 0x1b _).bind fun reply => ?_
  rintro s ⟨seq, create, htrace⟩
  refine Triple.bind (P := fun w => w.trace = T ++ [.control seq 0x1b create none])
    (Q := fun _ w => w.trace = T ++ [.control seq 0x1b create none])
    (Triple.get fun _ hw => hw) (fun world => ?_) s htrace
  refine Triple.bind (Q := fun _ w => w.trace = T ++ [.control seq 0x1b create none])
    (triple_ask fun _ hw => hw) fun a => ?_
  obtain ⟨result, hresult, hpictures⟩ :=
    pictures_of_pixels world.innerCounter head hw hh hsome hlen
  rw [hresult]
  cases result with
  | error e => exact Triple.throw fun _ _ => trivial
  | ok image =>
    refine (traces_sendControl 0x1c image).bind fun reply => ?_
    rintro s' ⟨seq', htrace'⟩
    refine Triple.bind (traces_updateShot head _) (fun _ => Triple.pure fun w'' h'' => ⟨rfl, ?_⟩)
      s' htrace'
    exact ⟨seq, create, seq', image, by rw [h'', List.append_assoc]; rfl, hpictures image rfl⟩

end Send

/-! ### When a cursor is handled -/

/-- The cursor is accepted although it has no pixels: its stride is zero, or it fits the wire
format of a connector. -/
def Cursor.Stops (cursor : Cursor) (head : UInt8) : Prop :=
  cursor.Holds ∧ (cursor.width = 0 ∨ cursor.height = 0) ∧
    (cursor.stride = 0 ∨ cursor.width.toNat ≤ 65535 ∧ cursor.height.toNat ≤ 65535 ∧
      head.toNat < maxConnectors)

/-- Every write goes out, and no reply is there. -/
def Calm (w : World) : Prop :=
  ∀ t, (w.answers t).write = none ∧ (w.answers t).reply = .error .timeout

theorem calm_sendControl (id : UInt16) (content : List UInt8) :
    Triple Calm (sendControl id content) (fun _ => Calm) (fun _ => False) := by
  refine Triple.bind (Q := fun _ => Calm) (triple_transmit (fun w hw _ => hw) fun w e hw he => ?_)
    fun _ => triple_receiveOptional (fun w hw _ => hw) (fun w reply hw _ => hw)
      fun w e hw he hne => ?_
  · rw [(hw w.time).1] at he
    cases he
  · rw [(hw w.time).2] at he
    exact hne (Except.error.inj he).symm

/-- The size of an accepted cursor is announced, and then there is no picture to send. -/
theorem panics_setCursor {head : UInt8} {width height : ℕ} (hw : width ≤ 65535)
    (hh : height ≤ 65535) (hhead : head.toNat < maxConnectors) (hempty : width = 0 ∨ height = 0) :
    Triple Calm (setCursorOrPanic head width height []) (fun r _ => r = none) (fun _ => False) := by
  have hid : cursorHeadId head = .ok (1 <<< head) := if_neg (by omega)
  unfold setCursorOrPanic fitU16
  rw [if_neg (by omega), if_neg (by omega)]
  refine Triple.bind (Q := fun v w => v.toNat = width ∧ Calm w) (Triple.pure fun _ h => ⟨?_, h⟩)
    fun w => Triple.given fun hw' => ?_
  · rw [UInt16.toNat_ofNat', Nat.mod_eq_of_lt (by omega)]
  refine Triple.bind (Q := fun v w => v.toNat = height ∧ Calm w) (Triple.pure fun _ h => ⟨?_, h⟩)
    fun h => Triple.given fun hh' => ?_
  · rw [UInt16.toNat_ofNat', Nat.mod_eq_of_lt (by omega)]
  refine Triple.bind (Q := fun _ => Calm) ?_ fun reply => ?_
  · refine Triple.bind (Q := fun _ => Calm) (Triple.get fun _ hw => hw) fun world => ?_
    refine Triple.bind (Q := fun _ => Calm) (triple_ask fun _ hw => hw) fun a => ?_
    simp only [cursorCreate, hid]
    exact calm_sendControl 0x1b _
  · refine Triple.bind (Q := fun _ => Calm) (Triple.get fun _ hw => hw) fun world => ?_
    refine Triple.bind (Q := fun _ => Calm) (triple_ask fun _ hw => hw) fun a => ?_
    have hnone : cursorImageOrPanic world.innerCounter head w h [] = none := by
      unfold cursorImageOrPanic
      have hzero : w.toNat * h.toNat * 4 = 0 := by
        rcases hempty with h0 | h0
        · simp [hw', h0]
        · simp [hh', h0]
      rw [if_neg (by simp [hzero]), hid]
      rfl
    rw [hnone]
    exact Triple.pure fun _ _ => rfl

/-- A size beyond the wire format, or a connector there is not, is refused ahead of the picture. -/
theorem refuses_setCursor (head : UInt8) (width height : ℕ) (bgra : List UInt8)
    (h : ¬ (width ≤ 65535 ∧ height ≤ 65535 ∧ head.toNat < maxConnectors)) :
    Triple (fun _ => True) (setCursorOrPanic head width height bgra) (fun _ _ => False)
      (fun _ => True) := by
  unfold setCursorOrPanic fitU16
  by_cases hw : 65535 < width
  · rw [if_pos hw]
    exact Triple.bind (Q := fun _ _ => False) (Triple.throw fun _ _ => trivial)
      fun _ _ hfalse => hfalse.elim
  rw [if_neg hw]
  refine Triple.bind (Q := fun _ _ => True) (Triple.pure fun _ _ => trivial) fun w => ?_
  by_cases hh : 65535 < height
  · rw [if_pos hh]
    exact Triple.bind (Q := fun _ _ => False) (Triple.throw fun _ _ => trivial)
      fun _ _ hfalse => hfalse.elim
  rw [if_neg hh]
  refine Triple.bind (Q := fun _ _ => True) (Triple.pure fun _ _ => trivial) fun h' => ?_
  have hid : cursorHeadId head = .error .EINVAL := if_pos (by omega)
  refine Triple.bind (Q := fun _ _ => False) ?_ fun _ _ hfalse => hfalse.elim
  refine Triple.bind (Q := fun _ _ => True) (Triple.get fun _ _ => trivial) fun world => ?_
  refine Triple.bind (Q := fun _ _ => True) (triple_ask fun _ _ => trivial) fun a => ?_
  simp only [cursorCreate, hid]
  exact Triple.throw fun _ _ => trivial

theorem rows_nil {cursor : Cursor} (h : cursor.Holds)
    (hempty : cursor.width = 0 ∨ cursor.height = 0) : cursor.rows = [] := by
  refine List.length_eq_zero_iff.1 ?_
  rw [length_rows h]
  rcases hempty with h0 | h0 <;> simp [h0]

/-- **When a cursor is handled without a panic**, whatever the state of the session: unless it is
accepted without pixels. -/
theorem shows_iff (cursor : Cursor) (head : UInt8) :
    (∀ w, Shows cursor head w) ↔ ¬ cursor.Stops head := by
  constructor
  · rintro h ⟨hholds, hempty, hwire⟩
    have hshows := h (start (freshSession ⟨profileElla, false, false⟩ 2))
    unfold Shows at hshows
    rw [(cursorBgra_rows cursor).2 hholds] at hshows
    by_cases hstride : cursor.stride = 0
    · rw [if_pos hstride] at hshows
      exact hshows
    · rw [if_neg hstride] at hshows
      obtain ⟨hw, hh, hhead⟩ := hwire.resolve_left hstride
      have hcalm : Calm (start (freshSession ⟨profileElla, false, false⟩ 2)) := fun t => ⟨rfl, rfl⟩
      have hsize : cursor.width.toNat = 0 ∨ cursor.height.toNat = 0 :=
        hempty.imp (fun h0 => by rw [h0]; rfl) fun h0 => by rw [h0]; rfl
      have hrun := panics_setCursor hw hh hhead hsize _ hcalm
      dsimp only at hshows
      rw [rows_nil hholds hempty] at hshows
      split at hrun
      · next r w' hrun' =>
        subst hrun
        rw [hrun'] at hshows
        exact hshows.2.2
      · exact hrun
  · intro hstops w
    unfold Shows
    by_cases hholds : cursor.Holds
    · rw [(cursorBgra_rows cursor).2 hholds]
      have hstride : cursor.stride ≠ 0 := by
        intro h0
        have hrow := hholds.2.1
        rw [h0, show (0 : UInt32).toNat = 0 from rfl] at hrow
        exact hstops ⟨hholds, Or.inl (UInt32.toNat_inj.1 (by show _ = 0; omega)), Or.inl h0⟩
      rw [if_neg hstride]
      refine ⟨rfl, length_rows hholds, ?_⟩
      by_cases hempty : cursor.width = 0 ∨ cursor.height = 0
      · have hrun := refuses_setCursor head cursor.width.toNat cursor.height.toNat cursor.rows
          (fun hwire => hstops ⟨hholds, hempty, Or.inr hwire⟩) w trivial
        split at hrun
        · exact hrun.elim
        · next hrun' => rw [hrun']; trivial
      · have hsome : 0 < cursor.width.toNat * cursor.height.toNat := by
          rw [not_or] at hempty
          refine Nat.mul_pos (Nat.pos_of_ne_zero fun h0 => hempty.1 ?_)
            (Nat.pos_of_ne_zero fun h0 => hempty.2 ?_)
          · exact UInt32.toNat_inj.1 h0
          · exact UInt32.toNat_inj.1 h0
        have hrun := sends_setCursor head hsome (length_rows hholds) w rfl
        split at hrun
        · next hrun' =>
          obtain ⟨rfl, hsent⟩ := hrun
          rw [hrun']
          exact hsent
        · next hrun' => rw [hrun']; trivial
    · obtain ⟨e, he⟩ := (cursorBgra_rows cursor).1 hholds
      rw [he]
      trivial

/-- A cursor with nothing in it, and one without rows. -/
theorem empty_cursor_panics :
    cursorBgra ⟨0, 0, 0, 0, true, [], drmFormatArgb8888, 0⟩ = none ∧
    cursorBgra ⟨0, 0, 64, 0, true, [], drmFormatArgb8888, 256⟩ = some (.ok []) ∧
    cursorImageOrPanic 0 0 64 0 [] = none ∧
    ¬ ∀ cursor head w, Shows cursor head w := by
  have hstride : cursorBgra ⟨0, 0, 0, 0, true, [], drmFormatArgb8888, 0⟩ = none := by decide
  refine ⟨hstride, by decide, by decide, fun h => ?_⟩
  have hshows := h ⟨0, 0, 0, 0, true, [], drmFormatArgb8888, 0⟩ 0
    (start (freshSession ⟨profileElla, false, false⟩ 2))
  unfold Shows at hshows
  rw [hstride] at hshows
  exact hshows

end Vino.Session
