import Vino.Cp.Replies

/-!
# The Event Stream of a Card

The driver tells its client what happens to the display by records in a stream: a header with the
kind and the length of the record, and the fields of the kind behind it, in words of 32 bits.  The
client reads up to 1024 bytes at a time and walks the records it gets.

* `Event.encode`, `parseEvents`: a record as it is written, and the walk of the reader,
* `decode_encode`: a record is read back field by field,
* `parseEvents_flatMap`: a buffer of records is walked exactly.
-/

namespace Vino.Evdi.Events

open Vino.Cp.Replies Vino.Cp.Seal Vino.Lib.Bits

/-! ### Records -/

def drmEvdiEventUpdateReady : UInt32 := 0x80000000
def drmEvdiEventDpms : UInt32 := 0x80000001
def drmEvdiEventModeChanged : UInt32 := 0x80000002
def drmEvdiEventCrtcState : UInt32 := 0x80000003
def drmEvdiEventCursorSet : UInt32 := 0x80000004
def drmEvdiEventCursorMove : UInt32 := 0x80000005
def drmEvdiEventDdcciData : UInt32 := 0x80000006

/-- A mode as it is announced. -/
structure EvdiMode where
  width : Int32
  height : Int32
  refreshRate : Int32
  bitsPerPixel : Int32
  pixelFormat : UInt32
  deriving DecidableEq, Repr

/-- A cursor image, with the handle under which its pixels can be mapped. -/
structure EventCursorSet where
  hotX : Int32
  hotY : Int32
  width : UInt32
  height : UInt32
  enabled : UInt8
  bufferHandle : UInt32
  bufferLength : UInt32
  pixelFormat : UInt32
  stride : UInt32
  deriving DecidableEq, Repr

structure EventDdcciData where
  buffer : Vector UInt8 64
  bufferLength : UInt32
  flags : UInt16
  address : UInt16
  deriving DecidableEq, Repr

inductive Event where
  | updateReady
  | dpms (mode : Int32)
  | modeChanged (mode : EvdiMode)
  | crtcState (state : Int32)
  | cursorSet (cursor : EventCursorSet)
  | cursorMove (x y : Int32)
  | ddcciData (data : EventDdcciData)
  deriving DecidableEq, Repr

/-- The kind in the header. -/
def Event.etype : Event → UInt32
  | .updateReady => drmEvdiEventUpdateReady
  | .dpms _ => drmEvdiEventDpms
  | .modeChanged _ => drmEvdiEventModeChanged
  | .crtcState _ => drmEvdiEventCrtcState
  | .cursorSet _ => drmEvdiEventCursorSet
  | .cursorMove _ _ => drmEvdiEventCursorMove
  | .ddcciData _ => drmEvdiEventDdcciData

/-- Words of 32 bits in a row, little-endian. -/
def wordsBytes (ws : List UInt32) : List UInt8 := ws.flatMap fun w => leBytes 4 w.toNat

/-- The fields behind the header. -/
def Event.payload : Event → List UInt8
  | .updateReady => []
  | .dpms mode => wordsBytes [mode.toUInt32]
  | .modeChanged m => wordsBytes [m.width.toUInt32, m.height.toUInt32, m.refreshRate.toUInt32,
      m.bitsPerPixel.toUInt32, m.pixelFormat]
  | .crtcState state => wordsBytes [state.toUInt32]
  -- The byte of the flag is followed by three zeros.
  | .cursorSet c => wordsBytes [c.hotX.toUInt32, c.hotY.toUInt32, c.width, c.height,
      c.enabled.toUInt32, c.bufferHandle, c.bufferLength, c.pixelFormat, c.stride]
  | .cursorMove x y => wordsBytes [x.toUInt32, y.toUInt32]
  | .ddcciData d => d.buffer.toList ++ wordsBytes [d.bufferLength] ++ u16Bytes d.flags ++
      u16Bytes d.address

/-- A record. -/
def Event.encode (e : Event) : List UInt8 :=
  wordsBytes [e.etype, (8 + e.payload.length).toUInt32] ++ e.payload

/-! ### The reader -/

/-- A signed field of 32 bits. -/
def i32At (off : ℕ) (l : List UInt8) : Int32 := .ofUInt32 (u32At off l)

/-- A record of a kind that is known. -/
def decode (etype : UInt32) (raw : List UInt8) : Option Event :=
  if etype = drmEvdiEventUpdateReady then some .updateReady
  else if etype = drmEvdiEventDpms then some (.dpms (i32At 8 raw))
  else if etype = drmEvdiEventModeChanged then
    some (.modeChanged ⟨i32At 8 raw, i32At 12 raw, i32At 16 raw, i32At 20 raw, u32At 24 raw⟩)
  else if etype = drmEvdiEventCrtcState then some (.crtcState (i32At 8 raw))
  else if etype = drmEvdiEventCursorSet then
    some (.cursorSet ⟨i32At 8 raw, i32At 12 raw, u32At 16 raw, u32At 20 raw, raw.getD 24 0,
      u32At 28 raw, u32At 32 raw, u32At 36 raw, u32At 40 raw⟩)
  else if etype = drmEvdiEventCursorMove then some (.cursorMove (i32At 8 raw) (i32At 12 raw))
  else if etype = drmEvdiEventDdcciData then
    some (.ddcciData ⟨Vector.ofFn fun i => raw.getD (8 + i) 0, u32At 72 raw, wordAt 76 raw,
      wordAt 78 raw⟩)
  else none

/-- The records of a buffer, up to one that is not complete. -/
def parseEvents (buf : List UInt8) : List (Option Event) :=
  if buf.length < 8 then []
  else
    let len := (u32At 4 buf).toNat
    if _ : len = 0 ∨ buf.length < len then []
    else decode (u32At 0 buf) buf :: parseEvents (buf.drop len)
termination_by buf.length
decreasing_by
  rw [List.length_drop]
  omega

/-! ### Fields -/

@[simp]
theorem length_wordsBytes (ws : List UInt32) : (wordsBytes ws).length = 4 * ws.length := by
  induction ws with
  | nil => rfl
  | cons w ws ih =>
    rw [wordsBytes, List.flatMap_cons, List.length_append, length_leBytes, ← wordsBytes, ih,
      List.length_cons]
    omega

theorem wordsBytes_cons (w : UInt32) (ws : List UInt32) :
    wordsBytes (w :: ws) = leBytes 4 w.toNat ++ wordsBytes ws := rfl

theorem wordsBytes_append (ws vs : List UInt32) :
    wordsBytes (ws ++ vs) = wordsBytes ws ++ wordsBytes vs := List.flatMap_append

/-- **A word is read back.** -/
theorem u32At_words (ws : List UInt32) {i : ℕ} {v : UInt32} (hi : ws[i]? = some v)
    (m : List UInt8) : u32At (4 * i) (wordsBytes ws ++ m) = v := by
  obtain ⟨hlt, rfl⟩ := List.getElem?_eq_some_iff.1 hi
  have hsplit : wordsBytes ws ++ m =
      wordsBytes (ws.take i) ++ (leBytes 4 ws[i].toNat ++ (wordsBytes (ws.drop (i + 1)) ++ m)) := by
    rw [← List.append_assoc (leBytes 4 ws[i].toNat), ← wordsBytes_cons, List.getElem_cons_drop,
      ← List.append_assoc, ← wordsBytes_append, List.take_append_drop]
  rw [hsplit]
  exact u32At_append (by simp [hlt.le])

theorem leBytes_four (v : ℕ) : ∃ t, leBytes 4 v = UInt8.ofNat v :: t :=
  ⟨_, by simp [leBytes, List.range_succ_eq_map]; rfl⟩

/-- The low byte of a word. -/
theorem getD_words (ws : List UInt32) {i : ℕ} {v : UInt32} (hi : ws[i]? = some v)
    (m : List UInt8) : (wordsBytes ws ++ m).getD (4 * i) 0 = UInt8.ofNat v.toNat := by
  obtain ⟨hlt, rfl⟩ := List.getElem?_eq_some_iff.1 hi
  obtain ⟨t, ht⟩ := leBytes_four ws[i].toNat
  have hsplit : wordsBytes ws ++ m =
      wordsBytes (ws.take i) ++ (leBytes 4 ws[i].toNat ++ (wordsBytes (ws.drop (i + 1)) ++ m)) := by
    rw [← List.append_assoc (leBytes 4 ws[i].toNat), ← wordsBytes_cons, List.getElem_cons_drop,
      ← List.append_assoc, ← wordsBytes_append, List.take_append_drop]
  have hlen : (wordsBytes (ws.take i)).length = 4 * i := by simp [hlt.le]
  rw [hsplit, ht, List.getD_append_right _ _ _ _ hlen.le, hlen, Nat.sub_self]
  rfl

/-- A signed word is read back. -/
theorem i32At_words (ws : List UInt32) {i : ℕ} {v : Int32} (hi : ws[i]? = some v.toUInt32)
    (m : List UInt8) : i32At (4 * i) (wordsBytes ws ++ m) = v := by
  unfold i32At
  rw [u32At_words ws hi]

/-! ### Round trip -/

theorem encode_words {e : Event} {ws : List UInt32} (h : e.payload = wordsBytes ws) :
    e.encode = wordsBytes (e.etype :: (8 + 4 * ws.length).toUInt32 :: ws) := by
  rw [Event.encode, h, length_wordsBytes]
  rfl

/-- **A DDC/CI record is read back.** -/
theorem decode_ddcciData (d : EventDdcciData) (m : List UInt8) :
    decode drmEvdiEventDdcciData ((Event.ddcciData d).encode ++ m) =
      some (.ddcciData d) := by
  obtain ⟨hd, hhd, hencode⟩ : ∃ hd : List UInt8, hd.length = 8 ∧ (Event.ddcciData d).encode ++ m =
      hd ++ (d.buffer.toList ++ (leBytes 4 d.bufferLength.toNat ++
        (u16Bytes d.flags ++ (u16Bytes d.address ++ m)))) := by
    refine ⟨wordsBytes [drmEvdiEventDdcciData,
      (8 + (Event.ddcciData d).payload.length).toUInt32], length_wordsBytes _, ?_⟩
    simp [Event.encode, Event.etype, Event.payload, wordsBytes]
  set raw := (Event.ddcciData d).encode ++ m with hraw
  have hbuffer : (Vector.ofFn fun i : Fin 64 => raw.getD (8 + i) 0) = d.buffer := by
    ext i hi
    rw [Vector.getElem_ofFn, hencode, List.getD_append_right _ _ _ _ (by omega), hhd,
      Nat.add_sub_cancel_left, List.getD_append _ _ _ _ (by simpa using hi)]
    simp [List.getD_eq_getElem?_getD, hi]
  have hlength : u32At 72 raw = d.bufferLength := by
    rw [hencode, ← List.append_assoc]
    exact u32At_append (by simp [hhd])
  have hdrop (n : ℕ) : raw.drop (72 + n) = (leBytes 4 d.bufferLength.toNat ++
      (u16Bytes d.flags ++ (u16Bytes d.address ++ m))).drop n := by
    rw [hencode, ← List.append_assoc, List.drop_append, List.drop_of_length_le (by simp [hhd]),
      List.nil_append]
    simp [hhd]
  have hflags : wordAt 76 raw = d.flags := by
    have h : u16At 76 raw = some d.flags := by
      refine u16At_eq (m := u16Bytes d.address ++ m) ?_
      rw [hdrop 4, List.drop_append, List.drop_of_length_le (by simp), List.nil_append]
      simp
    rw [wordAt, h, Option.getD_some]
  have haddress : wordAt 78 raw = d.address := by
    have h : u16At 78 raw = some d.address := by
      refine u16At_eq (m := m) ?_
      rw [hdrop 6, ← List.append_assoc, List.drop_append, List.drop_of_length_le (by simp),
        List.nil_append]
      simp
    rw [wordAt, h, Option.getD_some]
  show some (Event.ddcciData ⟨_, _, _, _⟩) = _
  rw [hbuffer, hlength, hflags, haddress]

/-- **A record is read back**, whatever follows it. -/
theorem decode_encode (e : Event) (m : List UInt8) : decode e.etype (e.encode ++ m) = some e := by
  cases e with
  | updateReady => rfl
  | dpms mode =>
    rw [encode_words rfl]
    show some (Event.dpms (i32At (4 * 2) _)) = _
    rw [i32At_words _ rfl]
  | modeChanged mode =>
    rw [encode_words rfl]
    show some (Event.modeChanged ⟨i32At (4 * 2) _, i32At (4 * 3) _, i32At (4 * 4) _,
      i32At (4 * 5) _, u32At (4 * 6) _⟩) = _
    rw [i32At_words _ rfl, i32At_words _ rfl, i32At_words _ rfl, i32At_words _ rfl,
      u32At_words _ rfl]
  | crtcState state =>
    rw [encode_words rfl]
    show some (Event.crtcState (i32At (4 * 2) _)) = _
    rw [i32At_words _ rfl]
  | cursorSet cursor =>
    rw [encode_words rfl]
    show some (Event.cursorSet ⟨i32At (4 * 2) _, i32At (4 * 3) _, u32At (4 * 4) _, u32At (4 * 5) _,
      List.getD _ (4 * 6) 0, u32At (4 * 7) _, u32At (4 * 8) _, u32At (4 * 9) _,
      u32At (4 * 10) _⟩) = _
    rw [i32At_words _ rfl, i32At_words _ rfl, u32At_words _ rfl, u32At_words _ rfl,
      getD_words _ rfl, u32At_words _ rfl, u32At_words _ rfl, u32At_words _ rfl, u32At_words _ rfl]
    simp
  | cursorMove x y =>
    rw [encode_words rfl]
    show some (Event.cursorMove (i32At (4 * 2) _) (i32At (4 * 3) _)) = _
    rw [i32At_words _ rfl, i32At_words _ rfl]
  | ddcciData data => exact decode_ddcciData data m

theorem length_encode (e : Event) : e.encode.length = 8 + e.payload.length := by
  simp [Event.encode]

theorem length_payload_le (e : Event) : e.payload.length ≤ 72 := by
  cases e <;> simp [Event.payload]

theorem parseEvents_short {buf : List UInt8} (h : buf.length < 8) : parseEvents buf = [] := by
  rw [parseEvents, if_pos h]

/-- **The records of a buffer are walked exactly**, up to what is not a record any more. -/
theorem parseEvents_flatMap (es : List Event) (m : List UInt8) :
    parseEvents (es.flatMap Event.encode ++ m) = es.map some ++ parseEvents m := by
  induction es with
  | nil => rfl
  | cons e es ih =>
    set rest := es.flatMap Event.encode ++ m with hrest
    have hbuf : (e :: es).flatMap Event.encode ++ m = e.encode ++ rest := by
      rw [List.flatMap_cons, List.append_assoc]
    have hheader : e.encode ++ rest =
        wordsBytes [e.etype, (8 + e.payload.length).toUInt32] ++ (e.payload ++ rest) := by
      rw [Event.encode, List.append_assoc]
    have htype : u32At 0 (e.encode ++ rest) = e.etype := by
      rw [hheader]
      exact u32At_words _ (i := 0) rfl _
    have hlen : (u32At 4 (e.encode ++ rest)).toNat = e.encode.length := by
      rw [hheader, u32At_words _ (i := 1) rfl, length_encode]
      have := length_payload_le e
      exact UInt32.toNat_ofNat_of_lt' (by rw [UInt32.size]; omega)
    have hlong : ¬(e.encode ++ rest).length < 8 := by
      rw [List.length_append, length_encode]
      omega
    have hwhole : ¬(e.encode.length = 0 ∨ (e.encode ++ rest).length < e.encode.length) := by
      rw [List.length_append, length_encode]
      omega
    rw [hbuf, parseEvents, if_neg hlong]
    dsimp only
    rw [hlen, dif_neg hwhole, htype, decode_encode, List.drop_left, ih, List.map_cons,
      List.cons_append]

end Vino.Evdi.Events
