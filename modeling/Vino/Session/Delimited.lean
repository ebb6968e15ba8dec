import Vino.Cp.RtcSync
import Vino.Session.Bringup
import Vino.Stream

/-!
# Frames That State Their Own Length

Every frame on the wire opens with a header whose 16-bit size field counts the bytes behind the
first four.  The builders write the field by a narrowing cast, and none of them refuses what does
not fit it: a frame delimits itself exactly if its content is small enough.  Of everything a session
sends only the picture of a cursor can be too large.

* `selfDelimited_iff`: a frame whose field is its cast length delimits itself below 65540 bytes,
* `decode_encode_iff`: a frame is read back exactly if its body fits the field,
* `Message.fits_of_content`: which contents of a session fit,
* `frames_delimited_iff`: when the frames of a session delimit themselves.
-/

namespace Vino.Session.Delimited

open Vino.Cp.Messages Vino.Cp.RtcSync Vino.Cp.Seal Vino.Lib.Bits Vino.Profile Vino.Stream
open Vino.VideoArm
open Vino.Haar.Coder (CodeTables)
open Vino.Haar.Records hiding fill

/-! ### The size field -/

/-- What the size field of a frame says. -/
def sizeField (frame : List UInt8) : ℕ := ((u16At 2 frame).getD 0).toNat

/-- The size field counts the bytes behind the first four. -/
def SelfDelimited (frame : List UInt8) : Prop := sizeField frame + 4 = frame.length

theorem sizeField_eq (size : UInt16) (rest : List UInt8) :
    sizeField ([0, 0] ++ u16Bytes size ++ rest) = size.toNat := by
  rw [sizeField, u16At_eq (w := size) (m := rest)]
  · rfl
  · rfl

/-- **A cast length delimits a frame exactly if it fits.** -/
theorem selfDelimited_iff {n : ℕ} {rest : List UInt8}
    (hlen : ([0, 0] ++ u16Bytes (UInt16.ofNat n) ++ rest).length = n + 4) :
    SelfDelimited ([0, 0] ++ u16Bytes (UInt16.ofNat n) ++ rest) ↔ n ≤ 65535 := by
  rw [SelfDelimited, sizeField_eq, hlen, UInt16.toNat_ofNat']
  omega

/-! ### Plain frames -/

/-- A message in its wire framing. -/
structure Frame where
  msgType : UInt32
  subId : UInt16
  subLenDw : UInt16
  seq : UInt32
  body : List UInt8
  deriving DecidableEq, Repr

/-- A complete bulk payload. -/
def Frame.encode (f : Frame) : List UInt8 :=
  let total := 16 + f.body.length
  [0, 0] ++ u16Bytes (UInt16.ofNat (total - 4)) ++ leBytes 4 f.msgType.toNat ++ u16Bytes f.subId ++
    u16Bytes f.subLenDw ++ leBytes 4 f.seq.toNat ++ f.body

def Frame.decode (buf : List UInt8) : Option Frame :=
  if buf.length < 16 then none
  else
    let size := sizeField buf
    if size < 12 then none
    else
      let bodyLen := size - 12
      if buf.length < 16 + bodyLen then none
      else some {
        msgType := u32At 4 buf
        subId := (u16At 8 buf).getD 0
        subLenDw := (u16At 10 buf).getD 0
        seq := u32At 12 buf
        body := (buf.drop 16).take bodyLen }

@[simp]
theorem Frame.length_encode (f : Frame) : f.encode.length = 16 + f.body.length := by
  simp [Frame.encode]
  omega

/-- What follows the size field. -/
def Frame.fields (f : Frame) : List UInt8 :=
  leBytes 4 f.msgType.toNat ++ (u16Bytes f.subId ++ (u16Bytes f.subLenDw ++
    (leBytes 4 f.seq.toNat ++ f.body)))

theorem Frame.encode_eq (f : Frame) :
    f.encode = [0, 0] ++ u16Bytes (UInt16.ofNat (f.body.length + 12)) ++ f.fields := by
  simp [Frame.encode, Frame.fields, show 16 + f.body.length - 4 = f.body.length + 12 by omega]

theorem Frame.selfDelimited_encode_iff (f : Frame) :
    SelfDelimited f.encode ↔ f.body.length ≤ 65523 := by
  have hlen := f.length_encode
  rw [f.encode_eq] at hlen ⊢
  rw [selfDelimited_iff (by omega)]
  omega

/-- The fields are read back, and as much of the body as the size field says. -/
theorem Frame.decode_encode (f : Frame) :
    Frame.decode f.encode =
      if (f.body.length + 12) % 65536 < 12 then none
      else some { f with body := f.body.take ((f.body.length + 12) % 65536 - 12) } := by
  have hsize : sizeField f.encode = (f.body.length + 12) % 65536 := by
    rw [f.encode_eq, sizeField_eq, UInt16.toNat_ofNat']
  have htype : u32At 4 f.encode = f.msgType := by
    rw [f.encode_eq, Frame.fields]
    exact u32At_append (l := [0, 0] ++ u16Bytes _) (by simp)
  have hsub : u16At 8 f.encode = some f.subId :=
    u16At_eq (m := u16Bytes f.subLenDw ++ (leBytes 4 f.seq.toNat ++ f.body)) rfl
  have hlenDw : u16At 10 f.encode = some f.subLenDw :=
    u16At_eq (m := leBytes 4 f.seq.toNat ++ f.body) rfl
  have hseq : u32At 12 f.encode = f.seq := by
    have hsplit : f.encode = ([0, 0] ++ u16Bytes (UInt16.ofNat (16 + f.body.length - 4)) ++
        leBytes 4 f.msgType.toNat ++ u16Bytes f.subId ++ u16Bytes f.subLenDw) ++
          (leBytes 4 f.seq.toNat ++ f.body) := by
      simp [Frame.encode]
    rw [hsplit]
    exact u32At_append (by simp)
  have hbody : f.encode.drop 16 = f.body := rfl
  unfold Frame.decode
  rw [if_neg (by rw [f.length_encode]; omega), hsize]
  dsimp only
  split_ifs with hsmall hshort
  · rfl
  · rw [f.length_encode] at hshort
    omega
  · rw [htype, hsub, hlenDw, hseq, hbody]
    rfl

/-- **A frame is read back exactly if its body fits the size field.** -/
theorem Frame.decode_encode_iff (f : Frame) :
    Frame.decode f.encode = some f ↔ f.body.length ≤ 65523 := by
  rw [f.decode_encode]
  constructor
  · intro h
    split_ifs at h
    have hbody := congrArg (fun g : Frame => g.body.length) (Option.some.inj h)
    simp only [List.length_take] at hbody
    omega
  · intro h
    rw [if_neg (by omega), show (f.body.length + 12) % 65536 - 12 = f.body.length by omega,
      List.take_length]

/-! ### Sealed frames -/

section Sealed

variable {c : Crypto} {key : Key} {riv : Nonce}

variable (c key riv) in
/-- A sealed record opens with the cast length of what follows. -/
theorem exists_sealLivemac (sub aux : UInt16) (seq : UInt32) (content : List UInt8) :
    ∃ rest, sealLivemac c key riv (wireHeader content.length sub aux seq) content =
        [0, 0] ++ u16Bytes (UInt16.ofNat (content.length + 28)) ++ rest ∧
      ([0, 0] ++ u16Bytes (UInt16.ofNat (content.length + 28)) ++ rest).length =
        content.length + 28 + 4 := by
  have htake : (wireHeader content.length sub aux seq).take 16 =
      [0, 0] ++ u16Bytes (UInt16.ofNat (content.length + 28)) ++ (leBytes 4 4 ++ (u16Bytes sub ++
        (u16Bytes aux ++ leBytes 4 seq.toNat))) := by
    rw [List.take_of_length_le (by simp)]
    simp [wireHeader, show 16 + (content.length + 16) - 4 = content.length + 28 by omega]
  unfold sealLivemac
  dsimp only
  rw [htake, List.append_assoc, List.append_assoc _ (leBytes 4 4 ++ _) _]
  refine ⟨_, rfl, ?_⟩
  simp
  omega

variable (c key riv) in
/-- What a sealed record says of its length, and what its length is. -/
theorem sizeField_sealLivemac (sub aux : UInt16) (seq : UInt32) (content : List UInt8) :
    sizeField (sealLivemac c key riv (wireHeader content.length sub aux seq) content) =
        (content.length + 28) % 65536 ∧
      (sealLivemac c key riv (wireHeader content.length sub aux seq) content).length =
        content.length + 32 := by
  obtain ⟨rest, hframe, hlen⟩ := exists_sealLivemac c key riv sub aux seq content
  rw [hframe, sizeField_eq, UInt16.toNat_ofNat']
  exact ⟨rfl, hlen⟩

/-- A sealed record delimits itself exactly if its content leaves room for the header and the
tag. -/
theorem selfDelimited_sealLivemac_iff (sub aux : UInt16) (seq : UInt32) (content : List UInt8) :
    SelfDelimited (sealLivemac c key riv (wireHeader content.length sub aux seq) content) ↔
      content.length ≤ 65507 := by
  obtain ⟨rest, hframe, hlen⟩ := exists_sealLivemac c key riv sub aux seq content
  rw [hframe, selfDelimited_iff hlen]
  omega

theorem selfDelimited_sealInteractive_iff (id : UInt16) (wireSeq : UInt32)
    (content : List UInt8) :
    SelfDelimited (sealInteractive c key riv id wireSeq content) ↔ content.length ≤ 65507 :=
  selfDelimited_sealLivemac_iff _ _ _ _

theorem selfDelimited_sealVideoArm_iff (sub aux : UInt16) (seq : UInt32) (content : List UInt8) :
    SelfDelimited (sealVideoArm c key riv sub aux seq content) ↔ content.length ≤ 65507 :=
  selfDelimited_sealLivemac_iff _ _ _ _

end Sealed

/-! ### The messages of a session -/

/-- The first sealed message of a session. -/
def sessionHello (counter : UInt16) (rng : Rng) : List UInt8 :=
  message 0x0014 0 counter (fill rng 10)

def postAuthStateReq (counter : UInt16) (rng : Rng) : List UInt8 :=
  message 0x15 0x0078 counter (fill rng 10)

/-- What a session can be asked to send on the control channel. -/
inductive Message where
  | sessionHello
  | heartbeat
  | streamMarker (connector : UInt8) (sub : UInt16) (state : UInt8)
  | streamCommit (connector : UInt8)
  | deviceQueryReq (sub : UInt16)
  | postAuthStateReq
  | rtcSyncReq (unixSeconds utcOffsetMinutes : ℤ)
  | edidSinkState (connector state : UInt8)
  | postEdidQuery (connector : UInt8)
  | edidReadinessState (connector state : UInt8)
  | getEdidReqSub (sub : UInt16) (connector : UInt8)
  | cursorCreate (connector : UInt8) (w h : UInt16)
  | cursorMove (connector : UInt8) (x y : UInt16) (visible : Bool)
  | cursorImage (connector : UInt8) (w h : UInt16) (bgra : List UInt8)
  | ddcciForward (head : UInt8) (payload : List UInt8)
  | ddcciReadRequest (head : UInt8)
  | clearMode (connector : UInt8)
  | setMode (connector : UInt8) (t : Timing)
  | setModeProfile (d : Dock) (head : UInt8) (width height refreshHz : UInt16)
  /-- A record that precedes the connector blocks or finalises them. -/
  | setupRecord (id sub : UInt16) (prefixBytes : List UInt8) (short : prefixBytes.length ≤ 10)
  /-- A message of a connector's block, with the keys it may need. -/
  | headSetup (d : Dock) (secrets : HeadSecrets) (eks : Key) (v : Vector UInt8 16) (head : UInt8)
      (index : Fin 9)

/-- The plaintext of a message, at a counter and with random bytes. -/
def Message.content (counter : UInt16) (rng : Rng) : Message → Except Errno (List UInt8)
  | .sessionHello => .ok (Delimited.sessionHello counter rng)
  | .heartbeat => .ok (Cp.Messages.heartbeat counter)
  | .streamMarker connector sub state =>
      .ok (Cp.Messages.streamMarker counter connector sub state rng)
  | .streamCommit connector => .ok (Cp.Messages.streamCommit counter connector rng)
  | .deviceQueryReq sub => .ok (Cp.Messages.deviceQueryReq counter sub rng)
  | .postAuthStateReq => .ok (Delimited.postAuthStateReq counter rng)
  | .rtcSyncReq unixSeconds offset =>
      (Cp.RtcSync.rtcSyncReq counter unixSeconds offset).getD (.error .EINVAL)
  | .edidSinkState connector state => .ok (Cp.Messages.edidSinkState counter connector state rng)
  | .postEdidQuery connector => .ok (Cp.Messages.postEdidQuery counter connector rng)
  | .edidReadinessState connector state =>
      .ok (Cp.Messages.edidReadinessState counter connector state rng)
  | .getEdidReqSub sub connector => .ok (Cp.Messages.getEdidReqSub counter sub connector rng)
  | .cursorCreate connector w h => Cp.Messages.cursorCreate counter connector w h
  | .cursorMove connector x y visible => Cp.Messages.cursorMove counter connector x y visible
  | .cursorImage connector w h bgra => Cp.Messages.cursorImage counter connector w h bgra
  | .ddcciForward head payload => Cp.Messages.ddcciForward counter head payload rng
  | .ddcciReadRequest head => .ok (Cp.Messages.ddcciReadRequest counter head rng)
  | .clearMode connector => .ok (Cp.Messages.clearMode counter connector rng)
  | .setMode connector t => .ok (Cp.Messages.setMode counter connector t rng)
  | .setModeProfile d head width height refreshHz =>
      Cp.Messages.setModeProfile d counter head width height refreshHz rng
  | .setupRecord id sub prefixBytes _ => .ok (Session.setupRecord id sub counter prefixBytes rng)
  | .headSetup d secrets eks v head index =>
      let entry := cpSetupPerHead.getD index (0, 0, 0)
      if entry.1 = 0x0026 then .ok (streamManageRestatement d counter head rng)
      else
        match headContent d secrets ⟨none, some eks, some v.toList, 0⟩ head index entry.1 entry.2.1
          entry.2.2 counter rng with
        | .error _ => .error .EINVAL
        | .ok content => .ok content

/-- The content of a message leaves room for the header and the tag: a cursor has at most 16368
pixels. -/
def Message.Fits : Message → Prop
  | .cursorImage _ w h _ => w.toNat * h.toNat ≤ 16368
  | _ => True

@[simp]
theorem length_padTo (n : ℕ) (b : List UInt8) : (padTo n b).length = max n b.length := by
  simp [padTo]
  omega

@[simp]
theorem length_message (id sub counter : UInt16) (body : List UInt8) :
    (message id sub counter body).length = 22 + body.length := by
  simp [message, header]

/-- A restatement is as long as its message class says. -/
theorem length_restatement {d : Dock} {id counter : UInt16} {head msgId : UInt8}
    {payload : List UInt8} {len : ℕ} {rng : Rng} (h : 28 + payload.length ≤ len) :
    (restatement d id counter head msgId payload len rng).length = len := by
  have hmarker (onehot : Bool) : (connectorMarker onehot head).length = 4 := by
    unfold connectorMarker
    split_ifs <;> simp
  simp [restatement, hmarker]
  omega

theorem length_streamManage {d : Dock} {counter : UInt16} {head : UInt8} {rng : Rng} :
    (streamManageRestatement d counter head rng).length = 48 :=
  length_restatement (by simp)

/-- The messages of a connector's block are short. -/
theorem length_headContent {d : Dock} {secrets : HeadSecrets} {eks : Key} {v : Vector UInt8 16}
    {head : UInt8} {counter : UInt16} {rng : Rng} {content : List UInt8} (index : Fin 9)
    (h : headContent d secrets ⟨none, some eks, some v.toList, 0⟩ head index
      (cpSetupPerHead.getD index (0, 0, 0)).1 (cpSetupPerHead.getD index (0, 0, 0)).2.1
      (cpSetupPerHead.getD index (0, 0, 0)).2.2 counter rng = .ok content) :
    content.length ≤ 160 := by
  fin_cases index <;> simp only [headContent, cpSetupPerHead, List.getD_cons_succ,
    List.getD_cons_zero, Except.ok.injEq] at h <;> rw [← h]
  · rw [length_restatement (by simp)]; omega
  · rw [length_restatement (by simp)]; omega
  · rw [length_restatement (by simp)]
  · rw [length_restatement (by simp)]; omega
  · rw [length_restatement (by simp)]; omega
  · rw [length_restatement (by simp)]; omega
  · simp
  · simp
  · simp

theorem length_rtcSyncReq {counter : UInt16} {unixSeconds offset : ℤ} {content : List UInt8}
    (h : Cp.RtcSync.rtcSyncReq counter unixSeconds offset = some (.ok content)) :
    content.length = 32 := by
  unfold Cp.RtcSync.rtcSyncReq at h
  simp only [Option.bind_eq_bind, Option.bind_eq_some_iff] at h
  obtain ⟨minutes, -, fields, -, h⟩ := h
  split_ifs at h with hyear
  · cases Option.some.inj h
  simp only [Option.bind_eq_some_iff] at h
  obtain ⟨yday, -, week, -, h⟩ := h
  rw [← Except.ok.inj (Option.some.inj h)]
  simp

theorem length_setMode (counter : UInt16) (connector : UInt8) (t : Timing) (rng : Rng) :
    (setMode counter connector t rng).length = 80 := by
  simp [setMode]

theorem length_setModeProfile {d : Dock} {counter : UInt16} {head : UInt8}
    {width height refreshHz : UInt16} {rng : Rng} {content : List UInt8}
    (h : setModeProfile d counter head width height refreshHz rng = .ok content) :
    content.length = 80 := by
  unfold setModeProfile at h
  split at h
  · cases h
  next m _ =>
    cases htiming : timingFromDrmMode m d.profile.protocol.allocation d.tenBit with
    | error e =>
      rw [htiming] at h
      cases h
    | ok timing =>
      rw [htiming] at h
      rw [← Except.ok.inj h]
      exact length_setMode _ _ _ _

/-- A builder that first checks its connector. -/
theorem cursorHeadId_bind {connector : UInt8} {f : UInt8 → List UInt8} {content : List UInt8}
    (h : (cursorHeadId connector >>= fun dock => .ok (f dock)) = .ok content) :
    ∃ dock, content = f dock := by
  unfold cursorHeadId at h
  split_ifs at h
  · cases h
  · exact ⟨_, (Except.ok.inj h).symm⟩

/-- The content of a cursor's picture: the header and the pixels. -/
theorem length_cursorImage {counter : UInt16} {connector : UInt8} {w h : UInt16}
    {bgra content : List UInt8} (hcontent : cursorImage counter connector w h bgra = .ok content) :
    content.length = 32 + w.toNat * h.toNat * 4 := by
  unfold cursorImage at hcontent
  split_ifs at hcontent with hbad
  obtain ⟨dock, rfl⟩ := cursorHeadId_bind hcontent
  simp
  omega

/-- **Every message but a cursor's picture is short.** -/
theorem Message.length_content {counter : UInt16} {rng : Rng} {m : Message}
    {content : List UInt8} (h : m.content counter rng = .ok content) :
    content.length ≤ 160 ∨ ∃ connector w h bgra, m = .cursorImage connector w h bgra ∧
      content.length = 32 + w.toNat * h.toNat * 4 := by
  cases m with
  | cursorImage connector w h' bgra =>
    exact Or.inr ⟨connector, w, h', bgra, rfl, length_cursorImage h⟩
  | sessionHello | heartbeat | streamMarker | streamCommit | deviceQueryReq | postAuthStateReq
  | edidSinkState | postEdidQuery | edidReadinessState | getEdidReqSub | ddcciReadRequest
  | clearMode =>
    left
    rw [← Except.ok.inj h]
    simp [Delimited.sessionHello, Cp.Messages.heartbeat, Cp.Messages.streamMarker,
      Cp.Messages.streamCommit, Cp.Messages.deviceQueryReq, Delimited.postAuthStateReq,
      Cp.Messages.edidSinkState, Cp.Messages.postEdidQuery, Cp.Messages.edidReadinessState,
      Cp.Messages.getEdidReqSub, Cp.Messages.ddcciReadRequest, Cp.Messages.clearMode]
  | rtcSyncReq unixSeconds offset =>
    left
    simp only [Message.content] at h
    cases hreq : Cp.RtcSync.rtcSyncReq counter unixSeconds offset with
    | none => rw [hreq] at h; cases h
    | some result =>
      rw [hreq] at h
      rw [length_rtcSyncReq (hreq.trans (congrArg some h))]
      omega
  | cursorCreate connector w h' =>
    left
    obtain ⟨dock, rfl⟩ := cursorHeadId_bind h
    simp
  | cursorMove connector x y visible =>
    left
    obtain ⟨dock, rfl⟩ := cursorHeadId_bind h
    simp
  | ddcciForward head payload =>
    left
    simp only [Message.content, Cp.Messages.ddcciForward] at h
    split_ifs at h
    rw [← Except.ok.inj h]
    simp
    omega
  | setMode connector t =>
    left
    rw [← Except.ok.inj h, length_setMode]
    omega
  | setModeProfile d head width height refreshHz =>
    left
    rw [length_setModeProfile h]
    omega
  | setupRecord id sub prefixBytes short =>
    left
    rw [← Except.ok.inj h]
    simp [Session.setupRecord]
    omega
  | headSetup d secrets eks v head index =>
    left
    simp only [Message.content] at h
    split_ifs at h
    · rw [← Except.ok.inj h, length_streamManage]
      omega
    · split at h
      · cases h
      next content' hcontent =>
        rw [← Except.ok.inj h]
        exact length_headContent index hcontent

theorem Message.fits_iff {counter : UInt16} {rng : Rng} {m : Message} {content : List UInt8}
    (h : m.content counter rng = .ok content) : content.length ≤ 65507 ↔ m.Fits := by
  rcases Message.length_content h with hshort | ⟨connector, w, h', bgra, rfl, hlen⟩
  · refine ⟨fun _ => ?_, fun _ => by omega⟩
    cases m with
    | cursorImage connector w h' bgra =>
      rw [length_cursorImage h] at hshort
      rw [Fits]
      omega
    | _ => trivial
  · rw [hlen, Fits]
    omega

/-! ### The records of a video stream -/

/-- What a connector's stream is given around its frames. -/
def streamPieces (d : Dock) (head : UInt8) (sealSeq : UInt32) (width height : UInt16)
    (restateMode : Bool) (rng : Rng) : List Piece :=
  (streamPrefix d head sealSeq width height rng).1 ++
    (streamReport d head sealSeq width height restateMode rng).1.toList ++
      (streamConfigMessage d head sealSeq width height).1.toList

/-- The plaintext of a sealed piece leaves room for the header and the tag. -/
def PieceFits : Piece → Prop
  | .plain _ => True
  | .enciphered _ _ _ content => content.length ≤ 65507

theorem length_tableRecords (tables : CodeTables) (tenBit : Bool) :
    (tableRecords tables tenBit).length ≤ 980 := by
  cases tables <;> cases tenBit <;> decide +kernel

theorem length_buildConfig_le (tables : CodeTables) {header : List UInt8} (tail : List UInt8)
    (tenBit : Bool) (hheader : header.length = 26) (htail : tail.length ≤ 14) :
    (buildConfig tables header tail tenBit).length ≤ 1104 := by
  have htables := length_tableRecords tables tenBit
  have hquant : (quantTable.flatMap u16Bytes).length = 82 := rfl
  simp only [buildConfig, List.length_append, hquant, length_u16Bytes]
  omega

theorem length_navarroSlotRecord (connector : UInt8) (index : UInt16) :
    (navarroSlotRecord connector index).length = 46 := by
  simp only [navarroSlotRecord, u32Bytes, List.length_append, length_u16Bytes, length_leBytes,
    List.length_cons, List.length_nil]

theorem length_navarroPipeDescriptor (connector : UInt8) :
    (navarroPipeDescriptor connector).length = 304 := by
  simp only [navarroPipeDescriptor, navarroStreamMarker, List.flatMap_cons, List.flatMap_nil,
    List.length_append, length_navarroSlotRecord, List.length_cons, List.length_nil]

section Pieces

variable (d : Dock) (head : UInt8) (sealSeq : UInt32) (width height : UInt16) (rng : Rng)

theorem length_streamModeHeader : (streamModeHeader d width height).length = 26 := by
  simp [streamModeHeader]

theorem fits_videoArmRecord {header : List UInt8} (hheader : header.length = 26) (index : ℕ)
    (entry : UInt16 × UInt16 × ℕ) :
    PieceFits (videoArmRecord d head header rng sealSeq index entry).1 := by
  unfold videoArmRecord
  dsimp only
  split_ifs
  · show (streamOpen _ _).length ≤ 65507
    simp [streamOpen]
  · trivial
  · show (buildConfig _ _ _ _).length ≤ 65507
    have hconfig := length_buildConfig_le d.profile.protocol.codeTables
      (fill (Rng.after rng (16 * index)) 14) d.tenBit hheader (by simp)
    omega
  · trivial

theorem fits_videoArmRecords {header : List UInt8} (hheader : header.length = 26) :
    ∀ (table : List (UInt16 × UInt16 × ℕ)) (seq : UInt32) (index : ℕ),
      ∀ p ∈ videoArmRecords d head header rng seq index table, PieceFits p
  | [], _, _ => by simp [videoArmRecords]
  | entry :: rest, seq, index => by
    simp only [videoArmRecords, List.mem_cons, forall_eq_or_imp]
    exact ⟨fits_videoArmRecord d head seq rng hheader index entry,
      fits_videoArmRecords hheader rest _ _⟩

theorem fits_sealedConfig (aux : UInt16) {tail : List UInt8} (htail : tail.length ≤ 14) :
    PieceFits (sealedConfig d head sealSeq aux tail width height).1 := by
  show (buildConfig _ _ _ _).length ≤ 65507
  have hconfig := length_buildConfig_le d.profile.protocol.codeTables _ d.tenBit
    (length_streamModeHeader d width height) htail
  omega

theorem fits_streamPrefix :
    ∀ p ∈ (streamPrefix d head sealSeq width height rng).1, PieceFits p := by
  unfold streamPrefix
  split_ifs
  · exact fits_videoArmRecords d head rng (length_streamModeHeader d width height) _ _ _
  · simp
  · simp only [navarroPrologue, List.mem_cons, forall_eq_or_imp, List.not_mem_nil, false_imp_iff,
      implies_true, and_true]
    refine ⟨trivial, trivial, ?_, trivial, trivial, fits_sealedConfig d head _ width height _ ?_⟩
    · show (navarroPipeDescriptor head).length ≤ 65507
      rw [length_navarroPipeDescriptor]
      omega
    · simp

theorem fits_streamReport (restateMode : Bool) :
    ∀ p ∈ (streamReport d head sealSeq width height restateMode rng).1.toList, PieceFits p := by
  have hheader := length_streamModeHeader d width height
  have hbody : navarroStreamReportBody.length = 84 := rfl
  unfold streamReport
  split_ifs
  · simp
  · cases restateMode <;> cases d.videoOnCtrlPipe <;>
      simp [PieceFits, takeBlocks, streamReportModeOnly, navarroStreamReportMode,
        navarroStreamReport, hheader, hbody]

theorem fits_streamConfigMessage :
    ∀ p ∈ (streamConfigMessage d head sealSeq width height).1.toList, PieceFits p := by
  unfold streamConfigMessage
  split_ifs
  · simp only [Option.toList_some, List.mem_singleton, forall_eq]
    exact fits_sealedConfig d head sealSeq width height _ (by simp)
  · simp

/-- **Everything sealed for a stream fits.** -/
theorem streamPieces_fit (restateMode : Bool) :
    ∀ p ∈ streamPieces d head sealSeq width height restateMode rng, PieceFits p := by
  intro p hp
  rcases List.mem_append.1 hp with hp | hp
  · rcases List.mem_append.1 hp with hp | hp
    · exact fits_streamPrefix d head sealSeq width height rng p hp
    · exact fits_streamReport d head sealSeq width height rng restateMode p hp
  · exact fits_streamConfigMessage d head sealSeq width height p hp

end Pieces

/-! ### The frames of a session -/

/-- **When the frames of a session delimit themselves.**  A control message does unless it is a
cursor's picture of more than 16368 pixels; everything sealed for a stream does; a sealed record in
general does up to 65507 bytes of content, and a plain frame does, and is read back, up to 65523
bytes of body.  Beyond that no builder refuses. -/
theorem frames_delimited_iff (c : Crypto) (key : Key) (riv : Nonce) :
    (∀ (m : Message) counter rng content id wireSeq, m.content counter rng = .ok content →
      (SelfDelimited (sealInteractive c key riv id wireSeq content) ↔ m.Fits)) ∧
    (∀ d head sealSeq width height restateMode rng sub aux seq content,
      Piece.enciphered sub aux seq content ∈
        streamPieces d head sealSeq width height restateMode rng →
      SelfDelimited (sealVideoArm c key riv sub aux seq content)) ∧
    (∀ sub aux seq content,
      SelfDelimited (sealVideoArm c key riv sub aux seq content) ↔ content.length ≤ 65507) ∧
    ∀ f : Frame, (SelfDelimited f.encode ↔ f.body.length ≤ 65523) ∧
      (Frame.decode f.encode = some f ↔ f.body.length ≤ 65523) := by
  refine ⟨fun m counter rng content id wireSeq h => ?_,
    fun d head sealSeq width height restateMode rng sub aux seq content h => ?_,
    fun sub aux seq content => selfDelimited_sealVideoArm_iff sub aux seq content,
    fun f => ⟨f.selfDelimited_encode_iff, f.decode_encode_iff⟩⟩
  · rw [selfDelimited_sealInteractive_iff]
    exact Message.fits_iff h
  · rw [selfDelimited_sealVideoArm_iff]
    exact streamPieces_fit d head sealSeq width height rng restateMode _ h

/-- A heartbeat, under a cipher that changes nothing. -/
theorem heartbeat_delimited :
    SelfDelimited (sealInteractive ⟨fun _ b => b, fun _ _ => Vector.replicate 16 7⟩
      (Vector.replicate 16 1) (Vector.replicate 8 2) 0x16 0 (Cp.Messages.heartbeat 3)) :=
  ((frames_delimited_iff ⟨fun _ b => b, fun _ _ => Vector.replicate 16 7⟩ (Vector.replicate 16 1)
    (Vector.replicate 8 2)).1 .heartbeat 3 (fun _ => 0) _ 0x16 0 rfl).2 trivial

/-- A cursor of 128 by 128 pixels: the frame has 65600 bytes and says it has 64. -/
theorem large_cursor_truncated :
    (∃ content, cursorImage 0 0 128 128 (List.replicate 65536 0) = .ok content ∧
      ∀ c key riv wireSeq, (sealInteractive c key riv 0x1c wireSeq content).length = 65600 ∧
        sizeField (sealInteractive c key riv 0x1c wireSeq content) + 4 = 64) ∧
    (¬ ∀ (m : Message) counter rng content c key riv id wireSeq,
      m.content counter rng = .ok content →
        SelfDelimited (sealInteractive c key riv id wireSeq content)) ∧
    ¬ ∀ f : Frame, Frame.decode f.encode = some f := by
  have hlen : (List.replicate 65536 (0 : UInt8)).length = 65536 := List.length_replicate
  have hok : ∃ content, cursorImage 0 0 128 128 (List.replicate 65536 0) = .ok content := by
    unfold cursorImage
    rw [hlen, if_neg (by decide)]
    exact ⟨_, rfl⟩
  obtain ⟨content, hcontent⟩ := hok
  have hsize : content.length = 65568 := length_cursorImage hcontent
  refine ⟨⟨content, hcontent, fun c key riv wireSeq => ?_⟩, fun h => ?_, fun h => ?_⟩
  · obtain ⟨hfield, htotal⟩ := sizeField_sealLivemac c key riv 0x24
      (auxForId 0x1c (content.length + 16)) wireSeq content
    rw [sealInteractive, hfield, htotal, hsize]
    exact ⟨rfl, rfl⟩
  · have hdelim := h (.cursorImage 0 128 128 (List.replicate 65536 0)) 0 (fun _ => 0) content
      ⟨fun _ b => b, fun _ _ => Vector.replicate 16 7⟩ (Vector.replicate 16 1)
      (Vector.replicate 8 2) 0x1c 0 hcontent
    rw [selfDelimited_sealInteractive_iff, hsize] at hdelim
    omega
  · have hbody := (Frame.decode_encode_iff ⟨0, 0, 0, 0, List.replicate 65536 0⟩).1 (h _)
    rw [hlen] at hbody
    omega

end Vino.Session.Delimited
