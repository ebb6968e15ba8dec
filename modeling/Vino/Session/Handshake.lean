import Vino.Cp.Ake
import Vino.Session.Bringup

/-!
# The Authentication of a Session

Before anything is encrypted the host authenticates the dock: it sends a master key under the key of
the dock's certificate, has the dock prove that it could read it, checks that it answers with a
fresh nonce, and then delivers the session key under a mask that follows from the master key.  A
repeater proves the list of its receivers in the same way.

The dock is anything that answers reads and takes writes.  The log has every frame that was written
and the result of every read, in order.

* `authenticate`: the exchange, with its reads, its retries and its errors,
* `Justified`: what has to precede a frame of the host; `authenticate_justified`: it does, whatever
  the dock answers,
* `Concluded`: what the keys of a session rest on.
-/

namespace Vino.Session.Handshake

open Vino.Cp.Ake Vino.Cp.Messages Vino.Cp.Replies Vino.Cp.Seal Vino.Lib.Effect
open Vino.Haar.Records hiding fill

/-! ### The line -/

/-- A dock, as the host meets it: it takes a write and answers a read. -/
structure Device (σ : Type) where
  write : σ → List UInt8 → Option UsbError × σ
  read : σ → Except UsbError (List UInt8) × σ

/-- What goes over the line. -/
inductive Exchange where
  | sent (frame : List UInt8) (error : Option UsbError)
  | answered (reply : Except UsbError (List UInt8))

structure Line (σ : Type) where
  device : σ
  log : List Exchange

inductive AuthError where
  | write (e : UsbError)
  | receive (e : UsbError)
  | noMessage
  | build (label : String) (e : Errno)
  | invalidCert (messageId : UInt8) (length : ℕ)
  | invalidRrx (messageId : UInt8)
  | hPrime
  | lPrime
  | invalidReceiverIdList (messageId : UInt8)
  | vPrime
  deriving DecidableEq

variable {σ : Type}

abbrev LineM (σ : Type) := EStateM AuthError (Line σ)

def sendPlain (d : Device σ) (frame : List UInt8) : LineM σ Unit := fun l =>
  let (error, device) := d.write l.device frame
  let l := ⟨device, l.log ++ [.sent frame error]⟩
  match error with
  | none => .ok () l
  | some e => .error (.write e) l

/-- One read, whose result is the caller's. -/
def recvFrame (d : Device σ) : LineM σ (Except UsbError (List UInt8)) := fun l =>
  let (reply, device) := d.read l.device
  .ok reply ⟨device, l.log ++ [.answered reply]⟩

/-- The next message of the authentication among `n` reads. -/
def receiveHdcp (d : Device σ) : ℕ → LineM σ (UInt8 × List UInt8)
  | 0 => throw .noMessage
  | n + 1 => do
      let reply ← recvFrame d
      match reply with
      | .error .timeout => receiveHdcp d n
      | .error e => throw (.receive e)
      | .ok reply =>
          match hdcpMessage? reply with
          | some m => return m
          | none => receiveHdcp d n

/-- Wait for the echo of a message, for up to `n` reads. -/
def paceCapAck (d : Device σ) (wantedCounter : UInt16) : ℕ → LineM σ Unit
  | 0 => return ()
  | n + 1 => do
      let reply ← recvFrame d
      match reply with
      | .error _ => return ()
      | .ok reply =>
          if 22 ≤ reply.length ∧ wordAt 8 reply = 0x25 ∧ wordAt 16 reply = 0x14 ∧
              wordAt 20 reply = wantedCounter then
            return ()
          else paceCapAck d wantedCounter n

/-- Wait until the capabilities are through and the streams are ready, for up to `n` reads. -/
def waitCapComplete (d : Device σ) : ℕ → ℕ → Bool → Bool → LineM σ Unit
  | 0, _, _, _ => return ()
  | n + 1, quiet, sawCapabilityEnd, sawStreamReady => do
      let reply ← recvFrame d
      match reply.toOption.filter fun reply => 20 ≤ reply.length with
      | some reply =>
          let sawCapabilityEnd := sawCapabilityEnd ||
            (wordAt 16 reply == 0x0b && wordAt 18 reply == 0x84)
          let sawStreamReady := sawStreamReady ||
            (decide (58 ≤ reply.length) && reply.getD 25 0 == MessageId.repeaterauthStreamReady)
          if sawCapabilityEnd && sawStreamReady then return ()
          else waitCapComplete d n 0 sawCapabilityEnd sawStreamReady
      | none =>
          if sawCapabilityEnd || sawStreamReady then
            if quiet + 1 = 3 then return ()
            else waitCapComplete d n (quiet + 1) sawCapabilityEnd sawStreamReady
          else waitCapComplete d n quiet sawCapabilityEnd sawStreamReady

/-! ### Verifiers -/

/-- What the library provides: encryption under a public key, if the key is one, and a keyed
hash. -/
structure Library where
  rsaPublicKey : List UInt8 → List UInt8 →
    Except Errno (Key → Rng → Except Errno (Vector UInt8 128))
  hmacSha256 : List UInt8 → List UInt8 → Vector UInt8 32

/-- `H'`, from the derived key and the host's nonce. -/
def computeH (lib : Library) (kd : List UInt8) (rtx : Nonce) (repeater : Bool) : List UInt8 :=
  (lib.hmacSha256 kd
    (rtx.toList.take 7 ++ [rtx.get (Fin.last 7) ^^^ if repeater then 1 else 0])).toList

/-- `L'`, from the derived key with the dock's nonce in its low half, and the fresh nonce. -/
def computeL (lib : Library) (kd : List UInt8) (rrx rn : Nonce) : List UInt8 :=
  (lib.hmacSha256 (kd.take 24 ++ List.zipWith (· ^^^ ·) (kd.drop 24) rrx.toList)
    rn.toList).toList

/-- `V`, from the derived key and the list of receivers. -/
def computeVFull (lib : Library) (kd listHeader : List UInt8) : List UInt8 :=
  (lib.hmacSha256 kd listHeader).toList

/-! ### The exchange -/

/-- What the host draws. -/
structure Draws where
  rtx : Nonce
  km : Key
  seed : Rng
  rn : Nonce
  rawSessionKey : Key
  deliveredNonce : Nonce

/-- What the authentication leaves to the session. -/
structure SessionKeys where
  controlKey : Key
  controlNonce : Nonce
  nextCounter : UInt16
  oaepEncryptKm : Key → Rng → Except Errno (Vector UInt8 128)
  receiverIdList : List UInt8

/-- A value or the error of a builder. -/
def built {α : Type} (label : String) : Except Errno α → LineM σ α
  | .error e => throw (.build label e)
  | .ok a => return a

/-- The certificate names a repeater. -/
def certRepeater (cert : List UInt8) : Bool := cert.getD 0 0 != 0

def certModulus (cert : List UInt8) : List UInt8 := (cert.drop 6).take 128

def certExponent (cert : List UInt8) : List UInt8 := (cert.drop 134).take 3

/-- The first eight bytes. -/
def nonceOf (payload : List UInt8) : Nonce := Vector.ofFn fun i => payload.getD i 0

section Exchange

variable (c : Crypto) (lib : Library) (d : Device σ) (x : Draws)

/-- Ask for the certificate. -/
def askCertificate : LineM σ (List UInt8) := do
  sendPlain d (sessionInitAck 1 0)
  paceCapAck d 1 8
  sendPlain d (akeInit 2 0 x.rtx (Vector.replicate 3 0))
  let (messageId, cert) ← receiveHdcp d 24
  if messageId ≠ MessageId.akeSendCert ∨ cert.length < 137 then
    throw (.invalidCert messageId cert.length)
  else return cert

/-- Send the master key under the key of a certificate. -/
def sendMasterKey (cert : List UInt8) :
    LineM σ (Key → Rng → Except Errno (Vector UInt8 128)) := do
  sendPlain d (akeTransmitterInfo 3 0)
  let _ ← receiveHdcp d 24
  let rsa ← built "RSA public key" (lib.rsaPublicKey (certModulus cert) (certExponent cert))
  let encryptedKm ← built "OAEP" (rsa x.km x.seed)
  sendPlain d (akeNoStoredKm 4 0 encryptedKm)
  return rsa

/-- Have the dock prove that it has the master key, and that it is there now. -/
def verifyReceiver (repeater : Bool) : LineM σ Nonce := do
  let (messageId, receiverRandom) ← receiveHdcp d 24
  if messageId ≠ MessageId.akeSendRrx ∨ receiverRandom.length < 8 then throw (.invalidRrx messageId)
  else do
    let rrx := nonceOf receiverRandom
    let kd := deriveKd c x.km x.rtx rrx
    let (messageId, hPrime) ← receiveHdcp d 24
    if messageId ≠ MessageId.akeSendHPrime ∨ hPrime.length < 32 ∨
        computeH lib kd x.rtx repeater ≠ hPrime.take 32 then throw .hPrime
    else do
      let _ ← receiveHdcp d 24
      sendPlain d (lcInit 5 0 x.rn)
      let (messageId, lPrime) ← receiveHdcp d 24
      if messageId ≠ MessageId.lcSendLPrime ∨ lPrime.length < 32 ∨
          computeL lib kd rrx x.rn ≠ lPrime.take 32 then throw .lPrime
      else return rrx

/-- Have a repeater prove the list of its receivers; the other half of `V` is the answer. -/
def authenticateRepeater (kd : List UInt8) : LineM σ (List UInt8) := do
  let (messageId, list) ← receiveHdcp d 24
  if messageId ≠ MessageId.repeaterauthSendReceiveridList ∨ list.length < 16 then
    throw (.invalidReceiverIdList messageId)
  else do
    let split := list.length - 16
    let v := computeVFull lib kd (list.take split)
    if v.take 16 ≠ list.drop split then throw .vPrime
    else do
      sendPlain d (repeaterAuthSendAck 7 0 (v.drop 16))
      paceCapAck d 7 8
      sendPlain d (repeaterAuthStreamManage 8 0)
      paceCapAck d 8 8
      waitCapComplete d 48 0 false false
      return list.take split

/-- The nonce of the control channel. -/
def controlNonceOf (delivered : Nonce) : Nonce :=
  Vector.ofFn fun i => if i.val = 7 then delivered.get i ^^^ 0x04 else delivered.get i

/-- **The authentication.** -/
def authenticate : LineM σ SessionKeys := do
  let cert ← askCertificate d x
  let rsa ← sendMasterKey lib d x cert
  let rrx ← verifyReceiver c lib d x (certRepeater cert)
  let encryptedSessionKey := computeEks c x.km x.rtx rrx x.rn x.rawSessionKey
  sendPlain d (skeSendEks 6 0 encryptedSessionKey x.deliveredNonce)
  let receiverIdList ←
    if certRepeater cert then authenticateRepeater lib d (deriveKd c x.km x.rtx rrx)
    else pure []
  return {
    controlKey := cpSessionKey x.rawSessionKey
    controlNonce := controlNonceOf x.deliveredNonce
    nextCounter := if certRepeater cert then 9 else 7
    oaepEncryptKm := rsa
    receiverIdList := receiverIdList }

end Exchange

/-! ### What precedes a frame -/

/-- The messages of the authentication that were heard. -/
def heard (log : List Exchange) : List (UInt8 × List UInt8) :=
  log.filterMap fun
    | .answered (.ok reply) => hdcpMessage? reply
    | _ => none

@[simp]
theorem heard_append (log log' : List Exchange) : heard (log ++ log') = heard log ++ heard log' :=
  List.filterMap_append

/-- A certificate. -/
structure Certificate (m : UInt8 × List UInt8) : Prop where
  messageId : m.1 = MessageId.akeSendCert
  length : 137 ≤ m.2.length

section Evidence

variable (c : Crypto) (lib : Library) (x : Draws)

/-- The dock has the master key: it answered `H'` behind a nonce of its own. -/
structure Proves (cert rrx hPrime : UInt8 × List UInt8) : Prop where
  certificate : Certificate cert
  rrxId : rrx.1 = MessageId.akeSendRrx
  rrxLength : 8 ≤ rrx.2.length
  hPrimeId : hPrime.1 = MessageId.akeSendHPrime
  hPrime : hPrime.2.take 32 =
    computeH lib (deriveKd c x.km x.rtx (nonceOf rrx.2)) x.rtx (certRepeater cert.2)

/-- The dock is there: it answered `L'` behind the fresh nonce. -/
structure Answers (rrx lPrime : UInt8 × List UInt8) : Prop where
  messageId : lPrime.1 = MessageId.lcSendLPrime
  lPrime : lPrime.2.take 32 =
    computeL lib (deriveKd c x.km x.rtx (nonceOf rrx.2)) (nonceOf rrx.2) x.rn

/-- A repeater has the master key and the list: it answered the front half of `V` behind it. -/
structure Lists (rrx list : UInt8 × List UInt8) : Prop where
  messageId : list.1 = MessageId.repeaterauthSendReceiveridList
  length : 16 ≤ list.2.length
  vPrime : list.2.drop (list.2.length - 16) =
    (computeVFull lib (deriveKd c x.km x.rtx (nonceOf rrx.2))
      (list.2.take (list.2.length - 16))).take 16

/-- The master key under the key of a certificate. -/
def MasterKey (cert : UInt8 × List UInt8) (encryptedKm : Vector UInt8 128) : Prop :=
  ∃ rsa, lib.rsaPublicKey (certModulus cert.2) (certExponent cert.2) = .ok rsa ∧
    rsa x.km x.seed = .ok encryptedKm

/-- **What has to precede a frame of the host**: which messages were heard before it, in this order,
and what they prove. -/
inductive Justified (before : List Exchange) : List UInt8 → Prop
  | sessionInitAck : Justified before (sessionInitAck 1 0)
  | akeInit : Justified before (akeInit 2 0 x.rtx (Vector.replicate 3 0))
  | transmitterInfo {cert : UInt8 × List UInt8} (hheard : [cert].Sublist (heard before))
      (hcert : Certificate cert) : Justified before (akeTransmitterInfo 3 0)
  | masterKey {cert info : UInt8 × List UInt8} {encryptedKm : Vector UInt8 128}
      (hheard : [cert, info].Sublist (heard before)) (hcert : Certificate cert)
      (hkey : MasterKey lib x cert encryptedKm) : Justified before (akeNoStoredKm 4 0 encryptedKm)
  | locality {cert info rrx hPrime pairing : UInt8 × List UInt8}
      (hheard : [cert, info, rrx, hPrime, pairing].Sublist (heard before))
      (hproves : Proves c lib x cert rrx hPrime) : Justified before (lcInit 5 0 x.rn)
  | sessionKey {cert info rrx hPrime pairing lPrime : UInt8 × List UInt8}
      (hheard : [cert, info, rrx, hPrime, pairing, lPrime].Sublist (heard before))
      (hproves : Proves c lib x cert rrx hPrime) (hanswers : Answers c lib x rrx lPrime) :
      Justified before (skeSendEks 6 0
        (computeEks c x.km x.rtx (nonceOf rrx.2) x.rn x.rawSessionKey) x.deliveredNonce)
  | acknowledgement {cert info rrx hPrime pairing lPrime list : UInt8 × List UInt8}
      (hheard : [cert, info, rrx, hPrime, pairing, lPrime, list].Sublist (heard before))
      (hproves : Proves c lib x cert rrx hPrime) (hanswers : Answers c lib x rrx lPrime)
      (hrepeater : certRepeater cert.2 = true) (hlists : Lists c lib x rrx list) :
      Justified before (repeaterAuthSendAck 7 0
        ((computeVFull lib (deriveKd c x.km x.rtx (nonceOf rrx.2))
          (list.2.take (list.2.length - 16))).drop 16))
  | streamManage {cert info rrx hPrime pairing lPrime list : UInt8 × List UInt8}
      (hheard : [cert, info, rrx, hPrime, pairing, lPrime, list].Sublist (heard before))
      (hproves : Proves c lib x cert rrx hPrime) (hanswers : Answers c lib x rrx lPrime)
      (hrepeater : certRepeater cert.2 = true) (hlists : Lists c lib x rrx list) :
      Justified before (repeaterAuthStreamManage 8 0)

/-- Every frame of the host was justified when it was sent. -/
def AllJustified (log : List Exchange) : Prop :=
  ∀ before frame error after, log = before ++ .sent frame error :: after →
    Justified c lib x before frame

/-- **What the keys of a session rest on.** -/
inductive Concluded (log : List Exchange) (keys : SessionKeys) : Prop
  | plain {cert info rrx hPrime pairing lPrime : UInt8 × List UInt8}
      (hheard : [cert, info, rrx, hPrime, pairing, lPrime].Sublist (heard log))
      (hproves : Proves c lib x cert rrx hPrime) (hanswers : Answers c lib x rrx lPrime)
      (hrepeater : certRepeater cert.2 = false) (hlist : keys.receiverIdList = [])
  | repeater {cert info rrx hPrime pairing lPrime list : UInt8 × List UInt8}
      (hheard : [cert, info, rrx, hPrime, pairing, lPrime, list].Sublist (heard log))
      (hproves : Proves c lib x cert rrx hPrime) (hanswers : Answers c lib x rrx lPrime)
      (hrepeater : certRepeater cert.2 = true) (hlists : Lists c lib x rrx list)
      (hlist : keys.receiverIdList = list.2.take (list.2.length - 16))

end Evidence

/-! ### Any dock -/

section Safety

variable {c : Crypto} {lib : Library} {x : Draws} {d : Device σ}

theorem allJustified_answered {log : List Exchange} (h : AllJustified c lib x log)
    (reply : Except UsbError (List UInt8)) : AllJustified c lib x (log ++ [.answered reply]) := by
  intro before frame error after heq
  rcases List.eq_nil_or_concat after with rfl | ⟨after', last, rfl⟩
  · exact absurd (List.append_inj_right' heq rfl) (by simp)
  · rw [List.concat_eq_append, ← List.cons_append, ← List.append_assoc] at heq
    exact h before frame error after' (List.append_inj_left' heq rfl)

theorem allJustified_sent {log : List Exchange} (h : AllJustified c lib x log)
    {frame : List UInt8} (hframe : Justified c lib x log frame) (error : Option UsbError) :
    AllJustified c lib x (log ++ [.sent frame error]) := by
  intro before frame' error' after heq
  rcases List.eq_nil_or_concat after with rfl | ⟨after', last, rfl⟩
  · have hlast := List.append_inj_right' heq rfl
    simp only [List.cons.injEq, Exchange.sent.injEq, and_true] at hlast
    obtain rfl := List.append_inj_left' heq rfl
    rwa [← hlast.1]
  · rw [List.concat_eq_append, ← List.cons_append, ← List.append_assoc] at heq
    exact h before frame' error' after' (List.append_inj_left' heq rfl)

/-- Everything that was sent was justified, and the messages were heard. -/
structure At (c : Crypto) (lib : Library) (x : Draws) (messages : List (UInt8 × List UInt8))
    (l : Line σ) : Prop where
  justified : AllJustified c lib x l.log
  heard : messages.Sublist (heard l.log)

/-- What holds when the authentication fails. -/
def Sound (c : Crypto) (lib : Library) (x : Draws) (l : Line σ) : Prop :=
  AllJustified c lib x l.log

variable {messages : List (UInt8 × List UInt8)}

theorem At.sound {l : Line σ} (h : At c lib x messages l) : Sound c lib x l := h.justified

theorem sendPlain_spec {frame : List UInt8}
    (h : ∀ log, messages.Sublist (Handshake.heard log) → Justified c lib x log frame) :
    Keeps (At c lib x messages) (Sound c lib x) (sendPlain d frame) := by
  intro l hl
  have hjustified := allJustified_sent hl.justified (h l.log hl.heard)
  unfold sendPlain
  dsimp only
  cases hwrite : (d.write l.device frame).1 with
  | none =>
    refine ⟨hjustified none, ?_⟩
    rw [heard_append]
    exact hl.heard.trans (List.sublist_append_left _ _)
  | some e => exact hjustified (some e)

theorem recvFrame_spec :
    Triple (At c lib x messages) (recvFrame d)
      (fun reply => At c lib x (messages ++ heard [.answered reply])) (Sound c lib x) := by
  intro l hl
  refine ⟨allJustified_answered hl.justified _, ?_⟩
  rw [heard_append]
  exact hl.heard.append_right _

/-- What was read may be forgotten. -/
theorem At.forget {l : Line σ} {more : List (UInt8 × List UInt8)}
    (h : At c lib x (messages ++ more) l) : At c lib x messages l :=
  ⟨h.justified, (List.sublist_append_left _ _).trans h.heard⟩

/-- One more message is heard. -/
theorem receiveHdcp_spec : ∀ n : ℕ,
    Triple (At c lib x messages) (receiveHdcp d n) (fun m => At c lib x (messages ++ [m]))
      (Sound c lib x)
  | 0 => Triple.throw fun _ hl => hl.sound
  | n + 1 => by
    refine Triple.bind recvFrame_spec fun reply => ?_
    have hagain : Triple (At c lib x (messages ++ heard [.answered reply])) (receiveHdcp d n)
        (fun m => At c lib x (messages ++ [m])) (Sound c lib x) :=
      (receiveHdcp_spec n).mono (fun _ hl => hl.forget) (fun _ _ hl => hl) fun _ hl => hl
    cases reply with
    | error e =>
      cases e with
      | timeout => exact hagain
      | _ => exact Triple.throw fun _ hl => hl.sound
    | ok reply =>
      dsimp only
      cases hm : hdcpMessage? reply with
      | none => exact hagain
      | some m =>
        refine Triple.pure fun l hl => ?_
        simpa [heard, hm] using hl

theorem paceCapAck_spec (wantedCounter : UInt16) : ∀ n : ℕ,
    Keeps (At c lib x messages) (Sound c lib x) (paceCapAck d wantedCounter n)
  | 0 => Keeps.pure _
  | n + 1 => by
    refine Triple.bind recvFrame_spec fun reply => ?_
    cases reply with
    | error e => exact Triple.pure fun _ hl => hl.forget
    | ok reply =>
      dsimp only
      split_ifs
      · exact Triple.pure fun _ hl => hl.forget
      · exact (paceCapAck_spec wantedCounter n).mono (fun _ hl => hl.forget) (fun _ _ hl => hl)
          fun _ hl => hl

theorem waitCapComplete_spec : ∀ (n quiet : ℕ) (sawCapabilityEnd sawStreamReady : Bool),
    Keeps (At c lib x messages) (Sound c lib x)
      (waitCapComplete d n quiet sawCapabilityEnd sawStreamReady)
  | 0, _, _, _ => Keeps.pure _
  | n + 1, quiet, sawCapabilityEnd, sawStreamReady => by
    refine Triple.bind recvFrame_spec fun reply => ?_
    have hagain (quiet : ℕ) (sawCapabilityEnd sawStreamReady : Bool) :
        Triple (At c lib x (messages ++ heard [.answered reply]))
          (waitCapComplete d n quiet sawCapabilityEnd sawStreamReady)
          (fun _ => At c lib x messages) (Sound c lib x) :=
      (waitCapComplete_spec n quiet sawCapabilityEnd sawStreamReady).mono
        (fun _ hl => hl.forget) (fun _ _ hl => hl) fun _ hl => hl
    dsimp only
    split
    · split_ifs
      · exact Triple.pure fun _ hl => hl.forget
      · exact hagain _ _ _
    · split_ifs
      · exact Triple.pure fun _ hl => hl.forget
      · exact hagain _ _ _
      · exact hagain _ _ _

theorem askCertificate_spec :
    Triple (At c lib x []) (askCertificate d x)
      (fun cert l => ∃ m : UInt8 × List UInt8, m.2 = cert ∧ Certificate m ∧ At c lib x [m] l)
      (Sound c lib x) := by
  refine Triple.bind (sendPlain_spec fun _ _ => .sessionInitAck) fun _ => ?_
  refine Triple.bind (paceCapAck_spec 1 8) fun _ => ?_
  refine Triple.bind (sendPlain_spec fun _ _ => .akeInit) fun _ => ?_
  refine Triple.bind (receiveHdcp_spec 24) fun m => ?_
  obtain ⟨messageId, cert⟩ := m
  dsimp only
  split_ifs with hbad
  · exact Triple.throw fun _ hl => hl.sound
  · refine Triple.pure fun l hl => ⟨(messageId, cert), rfl, ?_, hl⟩
    constructor
    · exact not_not.1 fun h => hbad (.inl h)
    · exact not_lt.1 fun h => hbad (.inr h)

theorem built_spec {α : Type} (label : String) (r : Except Errno α) {P : Line σ → Prop}
    (hP : ∀ l, P l → Sound c lib x l) :
    Triple P (built label r) (fun a l => r = .ok a ∧ P l) (Sound c lib x) := by
  cases r with
  | error e => exact Triple.throw hP
  | ok a => exact Triple.pure fun l hl => ⟨rfl, hl⟩

theorem sendMasterKey_spec {cert : UInt8 × List UInt8} (hcert : Certificate cert) :
    Triple (At c lib x [cert]) (sendMasterKey lib d x cert.2)
      (fun _ l => ∃ info, At c lib x [cert, info] l) (Sound c lib x) := by
  refine Triple.bind (sendPlain_spec fun _ hheard => .transmitterInfo hheard hcert) fun _ => ?_
  refine Triple.bind (receiveHdcp_spec 24) fun info => ?_
  refine Triple.bind (built_spec _ _ fun _ hl => hl.sound) fun rsa => Triple.given fun hrsa => ?_
  refine Triple.bind (built_spec _ _ fun _ hl => hl.sound) fun encryptedKm =>
    Triple.given fun hkm => ?_
  refine Triple.bind (sendPlain_spec fun _ hheard => .masterKey hheard hcert ⟨rsa, hrsa, hkm⟩)
    fun _ => ?_
  exact Triple.pure fun l hl => ⟨info, hl⟩

theorem verifyReceiver_spec {cert info : UInt8 × List UInt8} (hcert : Certificate cert) :
    Triple (At c lib x [cert, info]) (verifyReceiver c lib d x (certRepeater cert.2))
      (fun nonce l => ∃ rrx hPrime pairing lPrime : UInt8 × List UInt8, nonce = nonceOf rrx.2 ∧
        Proves c lib x cert rrx hPrime ∧ Answers c lib x rrx lPrime ∧
        At c lib x [cert, info, rrx, hPrime, pairing, lPrime] l) (Sound c lib x) := by
  refine Triple.bind (receiveHdcp_spec 24) fun rrx => ?_
  obtain ⟨rrxId, receiverRandom⟩ := rrx
  dsimp only
  split_ifs with hrrx
  · exact Triple.throw fun _ hl => hl.sound
  refine Triple.bind (receiveHdcp_spec 24) fun hPrime => ?_
  obtain ⟨hPrimeId, h⟩ := hPrime
  dsimp only
  split_ifs with hhPrime
  · exact Triple.throw fun _ hl => hl.sound
  have hproves : Proves c lib x cert (rrxId, receiverRandom) (hPrimeId, h) := by
    rw [not_or, not_not, not_lt] at hrrx
    rw [not_or, not_or, not_not, not_not] at hhPrime
    exact ⟨hcert, hrrx.1, hrrx.2, hhPrime.1, hhPrime.2.2.symm⟩
  refine Triple.bind (receiveHdcp_spec 24) fun pairing => ?_
  refine Triple.bind (sendPlain_spec fun _ hheard => .locality hheard hproves) fun _ => ?_
  refine Triple.bind (receiveHdcp_spec 24) fun lPrime => ?_
  obtain ⟨lPrimeId, l⟩ := lPrime
  dsimp only
  split_ifs with hlPrime
  · exact Triple.throw fun _ hl => hl.sound
  rw [not_or, not_or, not_not, not_not] at hlPrime
  exact Triple.pure fun _ hl => ⟨(rrxId, receiverRandom), (hPrimeId, h), pairing, (lPrimeId, l),
    rfl, hproves, ⟨hlPrime.1, hlPrime.2.2.symm⟩, hl⟩

theorem authenticateRepeater_spec {cert info rrx hPrime pairing lPrime : UInt8 × List UInt8}
    (hproves : Proves c lib x cert rrx hPrime) (hanswers : Answers c lib x rrx lPrime)
    (hrepeater : certRepeater cert.2 = true) :
    Triple (At c lib x [cert, info, rrx, hPrime, pairing, lPrime])
      (authenticateRepeater lib d (deriveKd c x.km x.rtx (nonceOf rrx.2)))
      (fun receiverIdList l => ∃ list : UInt8 × List UInt8, Lists c lib x rrx list ∧
        receiverIdList = list.2.take (list.2.length - 16) ∧
        At c lib x [cert, info, rrx, hPrime, pairing, lPrime, list] l) (Sound c lib x) := by
  refine Triple.bind (receiveHdcp_spec 24) fun list => ?_
  obtain ⟨listId, list⟩ := list
  dsimp only
  split_ifs with hlist hvPrime
  · exact Triple.throw fun _ hl => hl.sound
  · exact Triple.throw fun _ hl => hl.sound
  have hlists : Lists c lib x rrx (listId, list) := by
    rw [not_or, not_not, not_lt] at hlist
    exact ⟨hlist.1, hlist.2, (not_not.1 hvPrime).symm⟩
  have hack (log : List Exchange) (hheard : [cert, info, rrx, hPrime, pairing, lPrime,
      (listId, list)].Sublist (heard log)) : Justified c lib x log (repeaterAuthSendAck 7 0
        ((computeVFull lib (deriveKd c x.km x.rtx (nonceOf rrx.2))
          (list.take (list.length - 16))).drop 16)) :=
    @Justified.acknowledgement c lib x log cert info rrx hPrime pairing lPrime (listId, list)
      hheard hproves hanswers hrepeater hlists
  have hmanage (log : List Exchange) (hheard : [cert, info, rrx, hPrime, pairing, lPrime,
      (listId, list)].Sublist (heard log)) :
      Justified c lib x log (repeaterAuthStreamManage 8 0) :=
    .streamManage hheard hproves hanswers hrepeater hlists
  refine Triple.bind (sendPlain_spec hack) fun _ => ?_
  refine Triple.bind (paceCapAck_spec 7 8) fun _ => ?_
  refine Triple.bind (sendPlain_spec hmanage) fun _ => ?_
  refine Triple.bind (paceCapAck_spec 8 8) fun _ => ?_
  refine Triple.bind (waitCapComplete_spec 48 0 false false) fun _ => ?_
  exact Triple.pure fun _ hl => ⟨(listId, list), hlists, rfl, hl⟩

/-- The keys that were delivered. -/
structure Delivers (x : Draws) (keys : SessionKeys) : Prop where
  controlKey : keys.controlKey = cpSessionKey x.rawSessionKey
  controlNonce : keys.controlNonce = controlNonceOf x.deliveredNonce

theorem authenticate_spec :
    Triple (At c lib x []) (authenticate c lib d x)
      (fun keys l => Sound c lib x l ∧ Delivers x keys ∧ Concluded c lib x l.log keys)
      (Sound c lib x) := by
  refine Triple.bind askCertificate_spec fun cert => ?_
  refine Triple.of_each fun l₁ hl₁ => ?_
  obtain ⟨cert, rfl, hcert, hl₁⟩ := hl₁
  refine Triple.mono (P := At c lib x [cert]) ?_ (fun l hl => hl ▸ hl₁) (fun _ _ h => h)
    fun _ h => h
  refine Triple.bind (sendMasterKey_spec hcert) fun rsa => ?_
  refine Triple.of_each fun l₂ hl₂ => ?_
  obtain ⟨info, hl₂⟩ := hl₂
  refine Triple.mono (P := At c lib x [cert, info]) ?_ (fun l hl => hl ▸ hl₂) (fun _ _ h => h)
    fun _ h => h
  refine Triple.bind (verifyReceiver_spec hcert) fun nonce => ?_
  refine Triple.of_each fun l₃ hl₃ => ?_
  obtain ⟨rrx, hPrime, pairing, lPrime, rfl, hproves, hanswers, hl₃⟩ := hl₃
  refine Triple.mono (P := At c lib x [cert, info, rrx, hPrime, pairing, lPrime]) ?_
    (fun l hl => hl ▸ hl₃) (fun _ _ h => h) fun _ h => h
  refine Triple.bind (sendPlain_spec fun _ hheard => .sessionKey hheard hproves hanswers)
    fun _ => ?_
  cases hrepeater : certRepeater cert.2 with
  | false =>
    refine Triple.bind (Q := fun list l => list = [] ∧
      At c lib x [cert, info, rrx, hPrime, pairing, lPrime] l) ?_ fun list => ?_
    · exact Triple.pure fun l hl => ⟨rfl, hl⟩
    · exact Triple.pure fun l hl => ⟨hl.2.sound, ⟨rfl, rfl⟩,
        .plain hl.2.heard hproves hanswers hrepeater hl.1⟩
  | true =>
    refine Triple.bind (authenticateRepeater_spec hproves hanswers hrepeater) fun list => ?_
    refine Triple.pure ?_
    rintro l ⟨m, hlists, rfl, hl⟩
    exact ⟨hl.sound, ⟨rfl, rfl⟩, .repeater hl.heard hproves hanswers hrepeater hlists rfl⟩

end Safety

/-- **Nothing is sent before it is justified**, whatever the dock answers: the session key goes out
only behind a certificate, a proof `H'` of the master key and an answer `L'` to a fresh nonce, and
the acknowledgement of a repeater only behind `V'`.  If the authentication succeeds, its keys are
the delivered ones, and a repeater has proved the list of receivers that is returned. -/
theorem authenticate_justified (c : Crypto) (lib : Library) (d : Device σ) (x : Draws)
    (device : σ) :
    AllJustified c lib x (final (authenticate c lib d x) ⟨device, []⟩).log ∧
      ∀ keys l, authenticate c lib d x ⟨device, []⟩ = .ok keys l →
        Delivers x keys ∧ Concluded c lib x l.log keys := by
  have hstart : At c lib x [] (⟨device, []⟩ : Line σ) := by
    refine ⟨fun before frame error after heq => ?_, List.nil_sublist _⟩
    exact absurd heq (by simp)
  refine ⟨Triple.final authenticate_spec hstart (fun _ _ hl => hl.1) fun _ hl => hl,
    fun keys l hrun => ?_⟩
  exact (authenticate_spec.ok hstart hrun).2

end Vino.Session.Handshake
