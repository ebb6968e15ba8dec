import Vino.Cp.Decoders
import Vino.Session.State

/-!
# Bringing a Session Up

The encrypted half of the bring-up: one record for the dock, the records that precede the connector
blocks, one block of nine messages per connector, and three messages to finalise each connector that
authenticated.  A connector's block carries an HDCP authentication of its own, and the fifth message
delivers the key of its video stream; a connector that never sends its `rrx` gets only the first
three.
-/

namespace Vino.Session

open Vino.Cp.Decoders Vino.Cp.Messages Vino.Cp.Replies Vino.Cp.Seal Vino.Lib.Bits Vino.Lib.Effect
open Vino.Profile
open Vino.Haar.Records hiding fill

/-! ### Keys -/

/-- What the library provides beside the cipher. -/
structure Hdcp where
  oaepEncryptKm : Key → Rng → Except Errno (Vector UInt8 128)
  hmacSha256 : List UInt8 → List UInt8 → Vector UInt8 32

def cpKeyWhiten : List UInt8 :=
  [0x26, 0xab, 0xee, 0x38, 0x93, 0xd0, 0xc4, 0x32, 0x61, 0x43, 0xa4, 0xbf, 0x5b, 0x45, 0xd6, 0xec]

/-- The key of a channel from the raw key that is delivered. -/
def cpSessionKey (ks : Key) : Key := Vector.ofFn fun i => ks.get i ^^^ cpKeyWhiten.getD i 0

/-- The nonce of a stream from the delivered one and the stream's id. -/
def streamContentNonce (riv : Nonce) (streamId : UInt16) : Nonce :=
  Vector.ofFn fun i => if i.val = 7 then riv.get i ^^^ streamId.toUInt8 else riv.get i

def videoContentNonce (d : Dock) (riv : Nonce) (head : UInt8) : Nonce :=
  streamContentNonce riv (d.geometry.streamId head)

/-- Eight bytes into the low half of sixteen. -/
def xorLow (k : Key) (r : Nonce) : Key :=
  Vector.ofFn fun i => if i.val < 8 then k.get i else k.get i ^^^ r.toList.getD (i.val - 8) 0

def deriveDkey (c : Crypto) (km : Key) (rn rtx rrx : Nonce) (n : UInt8) : Key :=
  c.encryptBlock (xorLow km rn) (Vector.ofFn fun i =>
    (rtx.toList ++ rrx.toList).getD i 0 ^^^ if i.val = 15 then n else 0)

def deriveKd (c : Crypto) (km : Key) (rtx rrx : Nonce) : List UInt8 :=
  (deriveDkey c km (Vector.replicate 8 0) rtx rrx 0).toList ++
    (deriveDkey c km (Vector.replicate 8 0) rtx rrx 1).toList

/-- The raw key under the mask of the authentication. -/
def computeEks (c : Crypto) (km : Key) (rtx rrx rn : Nonce) (ks : Key) : Key :=
  Vector.ofFn fun i => ks.get i ^^^ (xorLow (deriveDkey c km rn rtx rrx 2) rrx).get i

/-! ### Records -/

/-- Bytes `off` to `off + n` of what the generator gives. -/
def draw (rng : Rng) (off n : ℕ) : Vector UInt8 n := Vector.ofFn fun i => rng (off + i)

/-- The selector of a restatement: a flag at the connector's own offset, or its number from one. -/
def connectorMarker (onehot : Bool) (head : UInt8) : List UInt8 :=
  if onehot then (List.replicate 4 0).set head.toNat 0x80 else [0, head + 1, 0, 0]

/-- A restatement of an HDCP message for one connector, filled up to its length. -/
def restatement (d : Dock) (id counter : UInt16) (head msgId : UInt8) (payload : List UInt8)
    (len : ℕ) (rng : Rng) : List UInt8 :=
  let record := message id 0x0010 counter
    (connectorMarker d.profile.protocol.perConnectorOnehot head ++ [0, msgId] ++ payload)
  record ++ fill rng (len - record.length)

def streamManageRestatement (d : Dock) (counter : UInt16) (head : UInt8) (rng : Rng) : List UInt8 :=
  restatement d 0x0026 counter head 0x10
    ([0, 0, 0, 0] ++ leBytes 4 1 ++ leBytes 4 (d.geometry.streamId head).toNat) 48 rng

/-- The messages of a connector's block: id, sub-id and length. -/
def cpSetupPerHead : List (UInt16 × UInt16 × ℕ) :=
  [(0x0022, 0x0010, 48), (0x001f, 0x0010, 48), (0x009a, 0x0010, 160), (0x0022, 0x0010, 48),
    (0x0032, 0x0010, 64), (0x002a, 0x0010, 48), (0x0026, 0x0010, 48), (0x0014, 0x0030, 32),
    (0x0019, 0x0031, 32)]

def cpSetupFinalizeSteps : List (UInt16 × UInt16) :=
  [(0x0016, 0x004c), (0x0015, 0x004a), (0x0016, 0x004c)]

/-- What the host draws for a connector. -/
structure HeadSecrets where
  rtx : Nonce
  km : Key
  rn : Nonce
  rawVideoKey : Key
  deliveredNonce : Nonce
  encryptedKm : Vector UInt8 128

/-- How far a connector's authentication has come, and the acknowledgements seen. -/
structure HeadAuth where
  receiverRandom : Option Nonce
  encryptedSessionKey : Option Key
  vAck : Option (List UInt8)
  acknowledgements : ℕ

/-- The content of a block's message, beside the stream-manage restatement. -/
def headContent (d : Dock) (secrets : HeadSecrets) (auth : HeadAuth) (head : UInt8) (index : ℕ)
    (id sub : UInt16) (len : ℕ) (counter : UInt16) (rng : Rng) : Except SessionError (List UInt8) :=
  match index with
  | 0 => .ok (restatement d id counter head 0x02 secrets.rtx.toList len rng)
  | 1 => .ok (restatement d id counter head 0x13 [0, 6, 2, 0, 2] len rng)
  | 2 => .ok (restatement d id counter head 0x04 secrets.encryptedKm.toList len rng)
  | 3 => .ok (restatement d id counter head 0x09 secrets.rn.toList len rng)
  | 4 =>
      match auth.encryptedSessionKey with
      | none => .error (.refused "head SKE key was not derived")
      | some eks =>
          .ok (restatement d id counter head 0x0b (eks.toList ++ secrets.deliveredNonce.toList) len
            rng)
  | 5 =>
      match auth.vAck with
      | none => .error (.refused "head V was not derived")
      | some v => .ok (restatement d id counter head 0x0f v len rng)
  | 7 => .ok (message id sub counter (fill rng (len - 22)))
  | 8 =>
      .ok (message id sub counter
        ([head, 0, d.profile.protocol.strm2Marker, head * 4, 4] ++ fill rng (len - 27)))
  | _ => .ok (padTo len (message id sub counter []))

/-! ### Draining -/

def isControlAck (reply : List UInt8) : Bool := 10 ≤ reply.length && wordAt 8 reply == 0x45

/-- Take what is there; an error is taken for silence. -/
def takeReply : SessionM (Option (List UInt8)) := do
  let a ← ask
  match a.reply with
  | .ok reply => return some reply
  | .error _ => return none

/-- The acknowledgements among the next replies. -/
def drainAcknowledgements : ℕ → SessionM ℕ
  | 0 => return 0
  | limit + 1 => do
      let reply ← takeReply
      match reply with
      | none => return 0
      | some reply => do
          let rest ← drainAcknowledgements limit
          return rest + if isControlAck reply then 1 else 0

def akeSendRrx : UInt8 := 0x06

/-- The `rrx` of a push. -/
def perheadRrx (push : PerheadHdcpPush) : Option Nonce :=
  if push.msgId = akeSendRrx ∧ 8 ≤ push.payloadLen then
    some (Vector.ofFn fun i => push.payload.getD i 0)
  else none

/-- The push a step waits for, on a dock that answers each. -/
def perheadExpectedPush : ℕ → Option UInt8
  | 0 => some 0x03
  | 1 => some 0x14
  | 2 => some akeSendRrx
  | 3 => some 0x0a
  | 4 => some 0x0c
  | 5 => some 0x12
  | _ => none

def HeadAuth.heard (auth : HeadAuth) (rrx : Option Nonce) : HeadAuth :=
  { auth with receiverRandom := auth.receiverRandom <|> rrx }

def ep84DrainReads : ℕ := 16

/-- Drain the replies of a step, up to the push it waits for. -/
def drainPushes (c : Crypto) (expected : Option UInt8) : ℕ → HeadAuth → SessionM HeadAuth
  | 0, auth => return auth
  | n + 1, auth => do
      let reply ← receiveOptional
      match reply with
      | none => do
          let a ← ask
          if expected.isNone || a.expired then return auth else drainPushes c expected n auth
      | some reply => do
          let w ← get
          match perConnectorHdcpPush c w.controlKey w.controlNonce reply with
          | some push =>
              if expected = some push.msgId then return auth.heard (perheadRrx push)
              else drainPushes c expected n (auth.heard (perheadRrx push))
          | none =>
              drainPushes c expected n { auth with
                acknowledgements := auth.acknowledgements + if isControlAck reply then 1 else 0 }

/-- Drain what came while the dock computed `H'`. -/
def drainRrx (c : Crypto) : ℕ → HeadAuth → SessionM HeadAuth
  | 0, auth => return auth
  | n + 1, auth => do
      let reply ← receiveOptional
      match reply with
      | none => return auth
      | some reply => do
          let w ← get
          drainRrx c n (auth.heard
            ((perConnectorHdcpPush c w.controlKey w.controlNonce reply).bind perheadRrx))

/-! ### One connector -/

/-- Derive what the second half of the block needs; `none` for a connector that never answered. -/
def HeadAuth.derive (c : Crypto) (h : Hdcp) (receiverIdList : List UInt8) (secrets : HeadSecrets)
    (index : ℕ) (auth : HeadAuth) : Option HeadAuth :=
  if 3 ≤ index ∧ auth.encryptedSessionKey.isNone then
    auth.receiverRandom.map fun rrx =>
      { auth with
        encryptedSessionKey :=
          some (computeEks c secrets.km secrets.rtx rrx secrets.rn secrets.rawVideoKey)
        vAck := some
          ((h.hmacSha256 (deriveKd c secrets.km secrets.rtx rrx) receiverIdList).toList.drop 16) }
  else some auth

/-- Send one message of a block and take what comes back. -/
def headStep (c : Crypto) (secrets : HeadSecrets) (head : UInt8) (index : ℕ)
    (entry : UInt16 × UInt16 × ℕ) (auth : HeadAuth) : SessionM HeadAuth := do
  let w ← get
  let a ← ask
  let content :=
    if entry.1 = 0x0026 then .ok (streamManageRestatement w.dock w.innerCounter head a.random)
    else headContent w.dock secrets auth head index entry.1 entry.2.1 entry.2.2 w.innerCounter
      a.random
  match content with
  | .error e => throw e
  | .ok content => do
      transmit entry.1 content (.send entry.1)
      let expected :=
        if w.dock.profile.protocol.perConnectorOnehot then perheadExpectedPush index else none
      let auth ← drainPushes c expected ep84DrainReads auth
      if index = 2 then drainRrx c ep84DrainReads auth else return auth

/-- The messages from `index` on; `false` for a connector that did not authenticate. -/
def headSteps (c : Crypto) (h : Hdcp) (receiverIdList : List UInt8) (secrets : HeadSecrets)
    (head : UInt8) : List (UInt16 × UInt16 × ℕ) → ℕ → HeadAuth → SessionM (Bool × ℕ)
  | [], _, auth =>
      if auth.encryptedSessionKey.isNone || auth.vAck.isNone then
        throw (.refused "downstream head authentication did not complete")
      else return (true, auth.acknowledgements)
  | entry :: entries, index, auth =>
      match auth.derive c h receiverIdList secrets index with
      | none => return (false, auth.acknowledgements)
      | some auth => do
          let auth ← headStep c secrets head index entry auth
          headSteps c h receiverIdList secrets head entries (index + 1) auth

/-- Draw a connector's secrets. -/
def drawSecrets (h : Hdcp) : SessionM HeadSecrets := do
  let a ← ask
  let km := draw a.random 8 16
  match h.oaepEncryptKm km fun i => a.random (56 + i) with
  | .error e => throw (.build "OAEP" e)
  | .ok encryptedKm =>
      return {
        rtx := draw a.random 0 8
        km := km
        rn := draw a.random 24 8
        rawVideoKey := draw a.random 32 16
        deliveredNonce := draw a.random 48 8
        encryptedKm := encryptedKm }

/-- Authenticate one connector and open its stream.  Its video key is filled in first. -/
def configureHead (c : Crypto) (h : Hdcp) (receiverIdList : List UInt8) (i : Connector) :
    SessionM (Bool × ℕ) := do
  let secrets ← drawSecrets h
  modifyThe World fun w =>
    { w with videoKeys := Function.update w.videoKeys i (cpSessionKey secrets.rawVideoKey,
        videoContentNonce w.dock secrets.deliveredNonce (UInt8.ofNat i)) }
  headSteps c h receiverIdList secrets (UInt8.ofNat i) cpSetupPerHead 0
    ⟨none, none, none, 0⟩

/-! ### The whole dock -/

/-- Offer the first sealed message up to `n` times. -/
def sendRetried (id : UInt16) (content : List UInt8) : ℕ → UsbError → SessionM Unit
  | 0, last => throw (.send id last)
  | n + 1, _ => do
      let w ← get
      let a ← ask
      record (.control w.wireSeq id content a.write)
      match a.write with
      | none => modifyThe World fun w => w.advance content
      | some e => do
          let _ ← takeReply
          sendRetried id content n e

/-- A record of 32 bytes behind a prefix. -/
def setupRecord (id sub counter : UInt16) (prefixBytes : List UInt8) (rng : Rng) : List UInt8 :=
  message id sub counter (prefixBytes ++ (fill rng 10).drop prefixBytes.length)

/-- Send setup records one behind the other, and count what is acknowledged. -/
def sendRecords : List (UInt16 × UInt16 × List UInt8) → SessionM ℕ
  | [] => return 0
  | (id, sub, prefixBytes) :: records => do
      let w ← get
      let a ← ask
      transmit id (setupRecord id sub w.innerCounter prefixBytes a.random) (.send id)
      let acks ← drainAcknowledgements 2
      let rest ← sendRecords records
      return acks + rest

/-- The records that precede the connector blocks. -/
def dockWideRecords (connectors : ℕ) : List (UInt16 × UInt16 × List UInt8) :=
  [(0x0014, 0x0030, []), (0x0015, 0x000b, [1])] ++
    (List.range connectors).map fun head => (0x0016, 0x002a, [UInt8.ofNat head, 1])

/-- The records that finalise the connectors that authenticated. -/
def finalizeRecords (heads : List Connector) : List (UInt16 × UInt16 × List UInt8) :=
  heads.flatMap fun i => cpSetupFinalizeSteps.map fun s =>
    (s.1, s.2, if s.2 = 0x004c then [UInt8.ofNat i, 1] else [UInt8.ofNat i])

/-- A write that is no sealed message: the stream-open record, or a request on the default
endpoint. -/
def plainRequest : SessionM Unit := do
  let a ← ask
  check a.write (.send 0)

def commitVideoEngine : SessionM Unit := do
  plainRequest
  plainRequest
  plainRequest
  plainRequest

/-- The connectors a dock backs. -/
def backed (w : World) : List Connector :=
  (List.finRange maxConnectors).filter fun i => i.val < w.connectors.val

/-- Configure the heads one behind the other; returns those that authenticated. -/
def configureHeads (c : Crypto) (h : Hdcp) (receiverIdList : List UInt8) :
    List Connector → SessionM (List Connector × ℕ)
  | [] => return ([], 0)
  | i :: heads => do
      let head ← configureHead c h receiverIdList i
      let rest ← configureHeads c h receiverIdList heads
      return (if head.1 then i :: rest.1 else rest.1, head.2 + rest.2)

/-- The records that precede the connector blocks, on a dock that asks for them. -/
def sendDockWide : SessionM ℕ := do
  let w ← get
  if w.dock.profile.protocol.dockWideInit then sendRecords (dockWideRecords w.connectors.val)
  else return 0

/-- Do something on a dock whose video engine is started at this point. -/
def commitPoint (point : VideoCommitPoint) (m : SessionM Unit) : SessionM Unit := do
  let w ← get
  if w.dock.profile.protocol.videoCommitPoint = point then m else pure ()

/-- The encrypted half of the bring-up; returns the connectors that authenticated and how much was
acknowledged. -/
def configureControl (c : Crypto) (h : Hdcp) (receiverIdList : List UInt8) :
    SessionM (List Connector × ℕ) := do
  plainRequest
  let w ← get
  let a ← ask
  sendRetried 0x14 (setupRecord 0x14 0 w.innerCounter [] a.random) 40 .other
  let acks ← drainAcknowledgements 8
  let acks₁ ← sendDockWide
  commitPoint .beforeConnectorRecords commitVideoEngine
  let heads ← configureHeads c h receiverIdList (backed w)
  let acks₂ ← sendRecords (finalizeRecords heads.1)
  commitPoint .afterFinalize do
    plainRequest
    plainRequest
  let acks₃ ← drainAcknowledgements 16
  commitPoint .afterFinalize commitVideoEngine
  return (heads.1, acks + acks₁ + heads.2 + acks₂ + acks₃)

/-- A session is established once the dock has acknowledged something. -/
def engage (c : Crypto) (h : Hdcp) (receiverIdList : List UInt8) : SessionM (List Connector) := do
  let control ← configureControl c h receiverIdList
  if control.2 = 0 then
    throw (.refused "dock did not acknowledge the encrypted control session")
  else return control.1

end Vino.Session
