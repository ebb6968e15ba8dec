import Vino.Cp.Replies

/-!
# Authentication Messages

The plain messages of the HDCP authentication that opens a session.  The host's messages are records
of fixed lengths, with an id at byte 27 of the body and a payload behind it; the dock's carry theirs
at byte 9.  The sizes in the frames are what the dock expects, not what could be derived.

* `hostMessage?_hdcpFrame`: a message of the host carries its id and its payload,
* `hdcpMessage?_dockFrame`: so does one of the dock.
-/

namespace Vino.Cp.Ake

open Vino.Cp.Replies Vino.Cp.Seal Vino.Lib.Bits

/-! ### Message ids -/

/-- The host opens the authentication. -/
def MessageId.akeInit : UInt8 := 0x02

/-- The dock answers with its certificate. -/
def MessageId.akeSendCert : UInt8 := 0x03

/-- The host hands over the master key. -/
def MessageId.akeNoStoredKm : UInt8 := 0x04

/-- The dock's random number. -/
def MessageId.akeSendRrx : UInt8 := 0x06

/-- The dock proves that it has the master key. -/
def MessageId.akeSendHPrime : UInt8 := 0x07

/-- The host opens the locality check. -/
def MessageId.lcInit : UInt8 := 0x09

/-- The dock answers the locality check. -/
def MessageId.lcSendLPrime : UInt8 := 0x0a

/-- The host hands over the session key. -/
def MessageId.skeSendEks : UInt8 := 0x0b

/-- The dock lists the receivers behind it. -/
def MessageId.repeaterauthSendReceiveridList : UInt8 := 0x0c

/-- The host acknowledges the list. -/
def MessageId.repeaterauthSendAck : UInt8 := 0x0f

/-- The host names its streams. -/
def MessageId.repeaterauthStreamManage : UInt8 := 0x10

/-- The dock accepts the streams. -/
def MessageId.repeaterauthStreamReady : UInt8 := 0x11

/-- The host says which version it speaks. -/
def MessageId.akeTransmitterInfo : UInt8 := 0x13

/-! ### Messages of the host -/

/-- A framed message with an explicit length field. -/
def pushFrameWith (msgType : UInt32) (subId subLenDw : UInt16) (seq : UInt32)
    (body : List UInt8) : List UInt8 :=
  [0, 0] ++ u16Bytes (UInt16.ofNat (16 + body.length - 4)) ++ leBytes 4 msgType.toNat ++
    u16Bytes subId ++ u16Bytes subLenDw ++ leBytes 4 seq.toNat ++ body

/-- The transport sub-id of HDCP messages to the dock. -/
def subHdcp : UInt16 := 0x04

/-- A frame to the dock that carries a body of the authentication. -/
def wrap (subLenDw : UInt16) (seq : UInt32) (body : List UInt8) : List UInt8 :=
  pushFrameWith 0x04 subHdcp subLenDw seq body

/-- The header of a body, up to the payload. -/
def bodyHeader (subSize : UInt16) (hdcpSeq : UInt32) (msgId : UInt8) : List UInt8 :=
  u16Bytes subSize ++ u16Bytes 0x0010 ++ leBytes 4 hdcpSeq.toNat ++ List.replicate 14 0 ++
    leBytes 4 0x30 ++ [0, msgId]

/-- A body with its payload, filled up with zeros to its length. -/
def body (len : ℕ) (subSize : UInt16) (hdcpSeq : UInt32) (msgId : UInt8)
    (payload : List UInt8) : List UInt8 :=
  bodyHeader subSize hdcpSeq msgId ++ payload ++ List.replicate (len - 28 - payload.length) 0

/-- A message of the host. -/
def hdcpFrame (len : ℕ) (subSize subLenDw : UInt16) (hdcpSeq seq : UInt32) (msgId : UInt8)
    (payload : List UInt8) : List UInt8 :=
  wrap subLenDw seq (body len subSize hdcpSeq msgId payload)

/-- The record in front of the authentication, which has no id of its own. -/
def sessionInitAck (hdcpSeq seq : UInt32) : List UInt8 :=
  wrap 0x000a seq
    (u16Bytes 0x0014 ++ u16Bytes 0x0076 ++ leBytes 4 hdcpSeq.toNat ++ List.replicate 24 0)

/-- The host's random number and its capabilities. -/
def akeInit (hdcpSeq seq : UInt32) (rtx : Nonce) (txCaps : Vector UInt8 3) : List UInt8 :=
  hdcpFrame 48 0x0022 0x000c hdcpSeq seq MessageId.akeInit (rtx.toList ++ txCaps.toList)

/-- The version the host speaks. -/
def akeTransmitterInfo (hdcpSeq seq : UInt32) : List UInt8 :=
  hdcpFrame 48 0x001f 0x000f hdcpSeq seq MessageId.akeTransmitterInfo [0x00, 0x06, 0x02, 0x00, 0x02]

/-- The master key, under the dock's public key. -/
def akeNoStoredKm (hdcpSeq seq : UInt32) (ekpubKm : Vector UInt8 128) : List UInt8 :=
  hdcpFrame 160 0x009a 0x0004 hdcpSeq seq MessageId.akeNoStoredKm ekpubKm.toList

/-- The nonce of the locality check. -/
def lcInit (hdcpSeq seq : UInt32) (rn : Nonce) : List UInt8 :=
  hdcpFrame 48 0x0022 0x000c hdcpSeq seq MessageId.lcInit rn.toList

/-- The session key under the derived one, and the nonce of the streams. -/
def skeSendEks (hdcpSeq seq : UInt32) (edkeyKs : Key) (riv : Nonce) : List UInt8 :=
  hdcpFrame 64 0x0032 0x000c hdcpSeq seq MessageId.skeSendEks (edkeyKs.toList ++ riv.toList)

/-- The half of the proof over the receivers' list that the host gives back. -/
def repeaterAuthSendAck (hdcpSeq seq : UInt32) (v : List UInt8) : List UInt8 :=
  hdcpFrame 48 0x002a 0x0004 hdcpSeq seq MessageId.repeaterauthSendAck v

/-- Two streams, of the types 4 and 5. -/
def repeaterAuthStreamManage (hdcpSeq seq : UInt32) : List UInt8 :=
  hdcpFrame 48 0x002d 0x0001 hdcpSeq seq MessageId.repeaterauthStreamManage
    [0, 0, 0, 0, 2, 0, 0, 0, 4, 0, 0, 0, 0, 0, 0, 5]

/-! ### Messages of the dock -/

/-- The id and the payload of a body. -/
def parseIn (body : List UInt8) : Option (UInt8 × List UInt8) :=
  if body.length < 10 then none else some (body.getD 9 0, body.drop 10)

/-- The message a frame of the dock carries, if it is one of the authentication and has an id. -/
def hdcpMessage? (reply : List UInt8) : Option (UInt8 × List UInt8) :=
  if reply.length < 16 ∨ wordAt 8 reply ≠ 0x25 then none
  else (parseIn (reply.drop 16)).filter fun m => m.1 != 0

/-! ### What a frame carries -/

/-- A message as a dock frames it. -/
def dockFrame (aux : UInt16) (seq : UInt32) (m : UInt8 × List UInt8) : List UInt8 :=
  pushFrameWith 0x04 0x25 aux seq (List.replicate 9 0 ++ [m.1] ++ m.2)

/-- The id and the payload of a message of the host, as a dock reads them. -/
def hostMessage? (frame : List UInt8) : Option (UInt8 × List UInt8) :=
  if frame.length < 44 then none else some (frame.getD 43 0, frame.drop 44)

@[simp]
theorem length_bodyHeader (subSize : UInt16) (hdcpSeq : UInt32) (msgId : UInt8) :
    (bodyHeader subSize hdcpSeq msgId).length = 28 := by
  simp [bodyHeader]

theorem pushFrameWith_eq (msgType : UInt32) (subId subLenDw : UInt16) (seq : UInt32)
    (body : List UInt8) : ∃ hd : List UInt8, hd.length = 16 ∧ wordAt 8 (hd ++ body) = subId ∧
      pushFrameWith msgType subId subLenDw seq body = hd ++ body := by
  refine ⟨[0, 0] ++ u16Bytes (UInt16.ofNat (16 + body.length - 4)) ++ leBytes 4 msgType.toNat ++
    u16Bytes subId ++ u16Bytes subLenDw ++ leBytes 4 seq.toNat, by simp, ?_, rfl⟩
  have hdrop : ([0, 0] ++ u16Bytes (UInt16.ofNat (16 + body.length - 4)) ++
      leBytes 4 msgType.toNat ++ u16Bytes subId ++ u16Bytes subLenDw ++ leBytes 4 seq.toNat ++
      body).drop 8 = u16Bytes subId ++ (u16Bytes subLenDw ++ leBytes 4 seq.toNat ++ body) := by
    simp [u16Bytes, leBytes, List.range_succ]
  rw [wordAt, u16At_eq hdrop, Option.getD_some]

/-- **A message of the host** carries its id and its payload, and zeros behind. -/
theorem hostMessage?_hdcpFrame (len : ℕ) (subSize subLenDw : UInt16) (hdcpSeq seq : UInt32)
    (msgId : UInt8) (payload : List UInt8) :
    hostMessage? (hdcpFrame len subSize subLenDw hdcpSeq seq msgId payload) =
      some (msgId, payload ++ List.replicate (len - 28 - payload.length) 0) := by
  obtain ⟨hd, hlen, -, hframe⟩ := pushFrameWith_eq 0x04 subHdcp subLenDw seq
    (body len subSize hdcpSeq msgId payload)
  obtain ⟨front, hfront, hheader⟩ : ∃ front : List UInt8, front.length = 27 ∧
      bodyHeader subSize hdcpSeq msgId = front ++ [msgId] := by
    refine ⟨u16Bytes subSize ++ u16Bytes 0x0010 ++ leBytes 4 hdcpSeq.toNat ++
      List.replicate 14 0 ++ leBytes 4 0x30 ++ [0], by simp, by simp [bodyHeader]⟩
  have hsplit : hdcpFrame len subSize subLenDw hdcpSeq seq msgId payload =
      (hd ++ front) ++ (msgId :: (payload ++ List.replicate (len - 28 - payload.length) 0)) := by
    rw [hdcpFrame, wrap, hframe, body, hheader]
    simp
  have hleft : (hd ++ front).length = 43 := by simp [hlen, hfront]
  have hlong : ¬((hd ++ front) ++ (msgId :: (payload ++
      List.replicate (len - 28 - payload.length) 0))).length < 44 := by
    rw [List.length_append, hleft, List.length_cons]
    omega
  unfold hostMessage?
  rw [hsplit, if_neg hlong, List.getD_append_right _ _ _ _ hleft.le, hleft,
    List.drop_append, hleft, List.drop_of_length_le (by omega)]
  rfl

/-- **A message of the dock** carries its id and its payload. -/
theorem hdcpMessage?_dockFrame (aux : UInt16) (seq : UInt32) {m : UInt8 × List UInt8}
    (hid : m.1 ≠ 0) : hdcpMessage? (dockFrame aux seq m) = some m := by
  obtain ⟨hd, hlen, hword, hframe⟩ := pushFrameWith_eq 0x04 0x25 aux seq
    (List.replicate 9 0 ++ [m.1] ++ m.2)
  have hdrop : (hd ++ (List.replicate 9 0 ++ [m.1] ++ m.2)).drop 16 =
      List.replicate 9 0 ++ (m.1 :: m.2) := by
    rw [List.drop_append, hlen, List.drop_of_length_le (by omega)]
    simp
  have hlong : ¬((hd ++ (List.replicate 9 0 ++ [m.1] ++ m.2)).length < 16 ∨
      wordAt 8 (hd ++ (List.replicate 9 0 ++ [m.1] ++ m.2)) ≠ 0x25) := by
    rw [hword, List.length_append, hlen]
    simp
  unfold hdcpMessage? dockFrame
  rw [hframe, if_neg hlong, hdrop]
  simp [parseIn, List.replicate, hid]

/-- The record in front of the authentication is no message of it. -/
theorem hostMessage?_sessionInitAck (hdcpSeq seq : UInt32) :
    ∃ payload, hostMessage? (sessionInitAck hdcpSeq seq) = some (0, payload) := by
  refine ⟨(sessionInitAck hdcpSeq seq).drop 44, ?_⟩
  unfold hostMessage?
  rw [if_neg (by simp [sessionInitAck, wrap, pushFrameWith])]
  simp [sessionInitAck, wrap, pushFrameWith, u16Bytes, leBytes, List.range_succ, List.replicate]

end Vino.Cp.Ake
