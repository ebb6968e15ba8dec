import Vino.Session.Handshake

/-!
# Agreement with a Receiver

A receiver that follows the protocol: it answers each message of the host in order, derives its
keys from what it was sent, and sends each answer once.  Between its answers the host may meet
timeouts and frames that are no messages of the authentication, as long as an answer that waits is
met within the reads the host makes.

* `Receiver.device`: the receiver as a dock, in its surroundings,
* `authenticate_agrees`: the authentication succeeds, and both sides hold the same keys.
-/

namespace Vino.Session.Handshake

open Vino.Cp.Ake Vino.Cp.Messages Vino.Cp.Seal Vino.Lib.Effect
open Vino.Haar.Records hiding fill

/-! ### The receiver -/

/-- What a receiver brings: its certificate behind the flag, its nonce and its list, and how it
reads an encrypted master key. -/
structure Receiver where
  repeater : Bool
  certificate : List UInt8
  long : 136 ≤ certificate.length
  info : List UInt8
  pairing : List UInt8
  rrx : Nonce
  receiverIdList : List UInt8
  decryptKm : List UInt8 → Option Key

/-- The payload of the certificate message. -/
def Receiver.cert (r : Receiver) : List UInt8 := (if r.repeater then 1 else 0) :: r.certificate

/-- What a receiver has learned, and the messages it has to send. -/
structure Progress where
  rtx : Option Nonce
  km : Option Key
  rn : Option Nonce
  session : Option (Key × Nonce)
  acknowledged : Bool
  outbox : List (UInt8 × List UInt8)

def Progress.start : Progress := ⟨none, none, none, none, false, []⟩

/-- The first sixteen bytes. -/
def keyOf (payload : List UInt8) : Key := Vector.ofFn fun i => payload.getD i 0

def Progress.answer (p : Progress) (messages : List (UInt8 × List UInt8)) : Progress :=
  { p with outbox := p.outbox ++ messages }

section Receiver

variable (c : Crypto) (lib : Library) (r : Receiver)

/-- The list of a repeater, with the front half of `V` behind it. -/
def Receiver.provenList (km : Key) (rtx : Nonce) : List UInt8 :=
  r.receiverIdList ++ (computeVFull lib (deriveKd c km rtx r.rrx) r.receiverIdList).take 16

/-- What a receiver does with a message, by its id. -/
def Receiver.take (p : Progress) (id : UInt8) (payload : List UInt8) : Progress :=
  if id = MessageId.akeInit then
    { p with rtx := some (nonceOf payload) }.answer [(MessageId.akeSendCert, r.cert)]
  else if id = MessageId.akeTransmitterInfo then p.answer [(0x14, r.info)]
  else if id = MessageId.akeNoStoredKm then
    match p.rtx, r.decryptKm (payload.take 128) with
    | some rtx, some km =>
        { p with km := some km }.answer
          [(MessageId.akeSendRrx, r.rrx.toList),
            (MessageId.akeSendHPrime, computeH lib (deriveKd c km rtx r.rrx) rtx r.repeater),
            (0x08, r.pairing)]
    | _, _ => p
  else if id = MessageId.lcInit then
    match p.rtx, p.km with
    | some rtx, some km =>
        { p with rn := some (nonceOf payload) }.answer
          [(MessageId.lcSendLPrime, computeL lib (deriveKd c km rtx r.rrx) r.rrx (nonceOf payload))]
    | _, _ => p
  else if id = MessageId.skeSendEks then
    match p.rtx, p.km, p.rn with
    | some rtx, some km, some rn =>
        -- The mask comes off as it went on.
        { p with session := some (computeEks c km rtx r.rrx rn (keyOf payload),
          nonceOf (payload.drop 16)) }.answer
          (if r.repeater then
            [(MessageId.repeaterauthSendReceiveridList, r.provenList c lib km rtx)] else [])
    | _, _, _ => p
  else if id = MessageId.repeaterauthSendAck then
    match p.rtx, p.km with
    | some rtx, some km =>
        { p with acknowledged := decide (payload.take 16 =
          (computeVFull lib (deriveKd c km rtx r.rrx) r.receiverIdList).drop 16) }
    | _, _ => p
  else if id = MessageId.repeaterauthStreamManage then
    p.answer [(MessageId.repeaterauthStreamReady, [])]
  else p

/-- What a receiver does with a frame. -/
def Receiver.takeFrame (p : Progress) (frame : List UInt8) : Progress :=
  match hostMessage? frame with
  | none => p
  | some (id, payload) => r.take c lib p id payload

/-- What the host may meet between the answers: timeouts, and frames that are none of the
authentication, but never for as long as it is willing to read. -/
structure Noise where
  between : ℕ → Option (Except UsbError (List UInt8))
  harmless : ∀ t reply, between t = some reply →
    reply = .error .timeout ∨ ∃ frame, reply = .ok frame ∧ hdcpMessage? frame = none
  patient : ∀ t, ∃ k < 24, between (t + k) = none

/-- A receiver as the host meets it. -/
def Receiver.device (noise : Noise) : Device (Progress × ℕ) where
  write s frame := (none, (r.takeFrame c lib s.1 frame, s.2))
  read s :=
    match noise.between s.2 with
    | some reply => (reply, (s.1, s.2 + 1))
    | none =>
        match s.1.outbox with
        | [] => (.error .timeout, (s.1, s.2 + 1))
        | m :: rest => (.ok (dockFrame 0 0 m), ({ s.1 with outbox := rest }, s.2 + 1))

end Receiver

/-! ### What the bytes carry -/

theorem nonceOf_append (n : Nonce) (l : List UInt8) : nonceOf (n.toList ++ l) = n := by
  ext i hi
  simp [nonceOf, List.getD_eq_getElem?_getD, List.getElem?_append_left]

theorem keyOf_append (k : Key) (l : List UInt8) : keyOf (k.toList ++ l) = k := by
  ext i hi
  simp [keyOf, List.getD_eq_getElem?_getD, List.getElem?_append_left]

/-- **The mask comes off as it went on.** -/
theorem computeEks_computeEks (c : Crypto) (km : Key) (rtx rrx rn : Nonce) (ks : Key) :
    computeEks c km rtx rrx rn (computeEks c km rtx rrx rn ks) = ks := by
  ext i hi
  simp [computeEks, Vector.get_eq_getElem]

section Frames

variable {c : Crypto} {lib : Library} {r : Receiver} {p : Progress}

theorem takeFrame_hdcpFrame (len : ℕ) (subSize subLenDw : UInt16) (hdcpSeq seq : UInt32)
    (msgId : UInt8) (payload : List UInt8) :
    r.takeFrame c lib p (hdcpFrame len subSize subLenDw hdcpSeq seq msgId payload) =
      r.take c lib p msgId (payload ++ List.replicate (len - 28 - payload.length) 0) := by
  unfold Receiver.takeFrame
  rw [hostMessage?_hdcpFrame]

theorem takeFrame_sessionInitAck : r.takeFrame c lib p (sessionInitAck 1 0) = p := by
  obtain ⟨payload, h⟩ := hostMessage?_sessionInitAck 1 0
  unfold Receiver.takeFrame
  rw [h]
  rfl

/-- The receiver learns the host's nonce. -/
theorem takeFrame_akeInit (rtx : Nonce) (txCaps : Vector UInt8 3) :
    r.takeFrame c lib p (akeInit 2 0 rtx txCaps) =
      { p with rtx := some rtx }.answer [(MessageId.akeSendCert, r.cert)] := by
  rw [akeInit, takeFrame_hdcpFrame, List.append_assoc, Receiver.take, if_pos rfl, nonceOf_append]

theorem takeFrame_akeTransmitterInfo :
    r.takeFrame c lib p (akeTransmitterInfo 3 0) = p.answer [(0x14, r.info)] := by
  rw [akeTransmitterInfo, takeFrame_hdcpFrame]
  rfl

/-- The receiver reads the master key, and proves it. -/
theorem takeFrame_akeNoStoredKm {encryptedKm : Vector UInt8 128} {rtx : Nonce} {km : Key}
    (hrtx : p.rtx = some rtx) (hkm : r.decryptKm encryptedKm.toList = some km) :
    r.takeFrame c lib p (akeNoStoredKm 4 0 encryptedKm) =
      { p with km := some km }.answer
        [(MessageId.akeSendRrx, r.rrx.toList),
          (MessageId.akeSendHPrime, computeH lib (deriveKd c km rtx r.rrx) rtx r.repeater),
          (0x08, r.pairing)] := by
  have htake (l : List UInt8) : (encryptedKm.toList ++ l).take 128 = encryptedKm.toList := by
    simp
  rw [akeNoStoredKm, takeFrame_hdcpFrame, Receiver.take, if_neg (by decide), if_neg (by decide),
    if_pos rfl, htake, hrtx, hkm]

theorem takeFrame_lcInit {rtx rn : Nonce} {km : Key} (hrtx : p.rtx = some rtx)
    (hkm : p.km = some km) :
    r.takeFrame c lib p (lcInit 5 0 rn) =
      { p with rn := some rn }.answer
        [(MessageId.lcSendLPrime, computeL lib (deriveKd c km rtx r.rrx) r.rrx rn)] := by
  rw [lcInit, takeFrame_hdcpFrame, Receiver.take, if_neg (by decide), if_neg (by decide),
    if_neg (by decide), if_pos rfl, hrtx, hkm, nonceOf_append]

/-- **The receiver unmasks the session key.** -/
theorem takeFrame_skeSendEks {rtx rn riv : Nonce} {km ks : Key} (hrtx : p.rtx = some rtx)
    (hkm : p.km = some km) (hrn : p.rn = some rn) :
    r.takeFrame c lib p (skeSendEks 6 0 (computeEks c km rtx r.rrx rn ks) riv) =
      { p with session := some (ks, riv) }.answer
        (if r.repeater then
          [(MessageId.repeaterauthSendReceiveridList, r.provenList c lib km rtx)] else []) := by
  have hdrop (k : Key) (l : List UInt8) : (k.toList ++ l).drop 16 = l := by
    rw [List.drop_append, List.drop_of_length_le (by simp)]
    simp
  rw [skeSendEks, takeFrame_hdcpFrame, List.append_assoc, Receiver.take, if_neg (by decide),
    if_neg (by decide), if_neg (by decide), if_neg (by decide), if_pos rfl, hrtx, hkm, hrn,
    keyOf_append, hdrop, nonceOf_append]
  dsimp only
  rw [computeEks_computeEks]

theorem takeFrame_repeaterAuthSendAck {rtx : Nonce} {km : Key} {v : List UInt8}
    (hv : v.length = 16) (hrtx : p.rtx = some rtx) (hkm : p.km = some km) :
    r.takeFrame c lib p (repeaterAuthSendAck 7 0 v) =
      { p with acknowledged := decide (v =
        (computeVFull lib (deriveKd c km rtx r.rrx) r.receiverIdList).drop 16) } := by
  have htake (l : List UInt8) : (v ++ l).take 16 = v := by simp [hv]
  rw [repeaterAuthSendAck, takeFrame_hdcpFrame, Receiver.take, if_neg (by decide),
    if_neg (by decide), if_neg (by decide), if_neg (by decide), if_neg (by decide), if_pos rfl,
    hrtx, hkm]
  dsimp only
  rw [htake]

theorem takeFrame_repeaterAuthStreamManage :
    r.takeFrame c lib p (repeaterAuthStreamManage 8 0) =
      p.answer [(MessageId.repeaterauthStreamReady, [])] := by
  rw [repeaterAuthStreamManage, takeFrame_hdcpFrame]
  rfl

end Frames

/-! ### Reading and writing -/

/-- Where the receiver is. -/
def Here (p : Progress) (l : Line (Progress × ℕ)) : Prop := l.device.1 = p

section Reading

variable {c : Crypto} {lib : Library} {r : Receiver} {noise : Noise} {p : Progress}

theorem sendPlain_here (frame : List UInt8) :
    Triple (Here p) (sendPlain (r.device c lib noise) frame)
      (fun _ => Here (r.takeFrame c lib p frame)) (fun _ => False) := by
  rintro ⟨⟨_, t⟩, log⟩ rfl
  rfl

/-- A read that meets what is between the answers. -/
theorem recvFrame_between {t : ℕ} {reply : Except UsbError (List UInt8)}
    (h : noise.between t = some reply) :
    Triple (fun l => l.device = (p, t)) (recvFrame (r.device c lib noise))
      (fun reply' l => reply' = reply ∧ l.device = (p, t + 1)) (fun _ => False) := by
  rintro ⟨_, log⟩ rfl
  unfold recvFrame Receiver.device
  simp only [h]
  exact ⟨trivial, trivial⟩

/-- A read that meets an answer. -/
theorem recvFrame_answer {t : ℕ} {m : UInt8 × List UInt8} {rest : List (UInt8 × List UInt8)}
    (h : noise.between t = none) (hout : p.outbox = m :: rest) :
    Triple (fun l => l.device = (p, t)) (recvFrame (r.device c lib noise))
      (fun reply l => reply = .ok (dockFrame 0 0 m) ∧
        l.device = ({ p with outbox := rest }, t + 1)) (fun _ => False) := by
  rintro ⟨_, log⟩ rfl
  unfold recvFrame Receiver.device
  simp only [h, hout]
  exact ⟨trivial, trivial⟩

/-- **An answer that waits is met**, when the reads last for what is in front of it. -/
theorem receiveHdcp_waiting {m : UInt8 × List UInt8} {rest : List (UInt8 × List UInt8)}
    (hid : m.1 ≠ 0) (hout : p.outbox = m :: rest) : ∀ n t : ℕ,
    (∃ k < n, noise.between (t + k) = none) →
      Triple (fun l => l.device = (p, t)) (receiveHdcp (r.device c lib noise) n)
        (fun m' l => m' = m ∧ Here { p with outbox := rest } l) (fun _ => False)
  | 0, _, h => by
    obtain ⟨k, hk, -⟩ := h
    exact absurd hk (Nat.not_lt_zero k)
  | n + 1, t, h => by
    cases hbetween : noise.between t with
    | none =>
      refine Triple.bind (recvFrame_answer hbetween hout) fun reply => Triple.given fun hreply => ?_
      subst hreply
      dsimp only
      rw [hdcpMessage?_dockFrame 0 0 hid]
      exact Triple.pure fun l hl => ⟨rfl, congrArg Prod.fst hl⟩
    | some reply =>
      have hagain : Triple (fun l => l.device = (p, t + 1)) (receiveHdcp (r.device c lib noise) n)
          (fun m' l => m' = m ∧ Here { p with outbox := rest } l) (fun _ => False) := by
        refine receiveHdcp_waiting hid hout n (t + 1) ?_
        obtain ⟨k, hk, hnone⟩ := h
        cases k with
        | zero => exact absurd (hbetween.symm.trans hnone) (by simp)
        | succ k => exact ⟨k, by omega, by rwa [Nat.add_right_comm, Nat.add_assoc]⟩
      refine Triple.bind (recvFrame_between hbetween) fun reply' => Triple.given fun hreply => ?_
      subst hreply
      rcases noise.harmless t reply' hbetween with rfl | ⟨frame, rfl, hframe⟩
      · exact hagain
      · dsimp only
        rw [hframe]
        exact hagain

/-- The host receives what waits. -/
theorem receiveHdcp_here {id : UInt8} {payload : List UInt8} {rest : List (UInt8 × List UInt8)}
    (hid : id ≠ 0) (hout : p.outbox = (id, payload) :: rest) :
    Triple (Here p) (receiveHdcp (r.device c lib noise) 24)
      (fun m l => m = (id, payload) ∧ Here { p with outbox := rest } l) (fun _ => False) := by
  rintro ⟨⟨_, t⟩, log⟩ rfl
  exact receiveHdcp_waiting hid hout 24 t (noise.patient t) ⟨(_, t), log⟩ rfl

/-- Where the receiver is, when some of its answers may have been met. -/
def Around (p : Progress) (l : Line (Progress × ℕ)) : Prop :=
  ∃ outbox, Here { p with outbox := outbox } l ∧ (p.outbox = [] → outbox = [])

theorem recvFrame_around :
    Triple (Around p) (recvFrame (r.device c lib noise)) (fun _ => Around p) (fun _ => False) := by
  rintro ⟨⟨_, t⟩, log⟩ ⟨outbox, rfl, hempty⟩
  unfold recvFrame Receiver.device
  dsimp only
  cases noise.between t with
  | some reply => exact ⟨outbox, rfl, hempty⟩
  | none =>
    cases outbox with
    | nil => exact ⟨[], rfl, fun _ => rfl⟩
    | cons m rest => exact ⟨rest, rfl, fun h => absurd (hempty h) (by simp)⟩

theorem paceCapAck_around (wantedCounter : UInt16) : ∀ n : ℕ,
    Keeps (Around p) (fun _ => False) (paceCapAck (r.device c lib noise) wantedCounter n)
  | 0 => Keeps.pure _
  | n + 1 => by
    refine Keeps.bind recvFrame_around fun reply => ?_
    cases reply with
    | error e => exact Keeps.pure _
    | ok reply =>
      dsimp only
      split_ifs
      · exact Keeps.pure _
      · exact paceCapAck_around wantedCounter n

theorem waitCapComplete_around : ∀ (n quiet : ℕ) (sawCapabilityEnd sawStreamReady : Bool),
    Keeps (Around p) (fun _ => False)
      (waitCapComplete (r.device c lib noise) n quiet sawCapabilityEnd sawStreamReady)
  | 0, _, _, _ => Keeps.pure _
  | n + 1, quiet, sawCapabilityEnd, sawStreamReady => by
    refine Keeps.bind recvFrame_around fun reply => ?_
    dsimp only
    split
    · split_ifs
      · exact Keeps.pure _
      · exact waitCapComplete_around n _ _ _
    · split_ifs
      · exact Keeps.pure _
      · exact waitCapComplete_around n _ _ _
      · exact waitCapComplete_around n _ _ _

theorem Here.around {l : Line (Progress × ℕ)} (h : Here p l) : Around p l := ⟨p.outbox, h, id⟩

/-- The host waits while nothing is on its way. -/
theorem paceCapAck_here (hout : p.outbox = []) (wantedCounter : UInt16) (n : ℕ) :
    Keeps (Here p) (fun _ => False) (paceCapAck (r.device c lib noise) wantedCounter n) := by
  refine (paceCapAck_around wantedCounter n).mono (fun _ hl => hl.around) ?_ fun _ h => h
  rintro _ l ⟨outbox, hl, hempty⟩
  have hsame : { p with outbox := outbox } = p := by rw [hempty hout, ← hout]
  rwa [hsame] at hl

end Reading

/-! ### Agreement -/

section Agreement

variable {c : Crypto} {lib : Library} {r : Receiver} {noise : Noise} {x : Draws}

/-- The certificate message says what the receiver is. -/
theorem certRepeater_cert : certRepeater r.cert = r.repeater := by
  unfold Receiver.cert certRepeater
  cases r.repeater with
  | false => rfl
  | true => rfl

/-- What the receiver knows when it has been asked for its certificate. -/
def Progress.asked (x : Draws) : Progress := { Progress.start with rtx := some x.rtx }

/-- What it knows when it has the master key. -/
def Progress.keyed (x : Draws) : Progress := { Progress.asked x with km := some x.km }

/-- What it knows when it has answered the fresh nonce. -/
def Progress.checked (x : Draws) : Progress := { Progress.keyed x with rn := some x.rn }

/-- What it knows when it has the session key. -/
def Progress.shared (x : Draws) : Progress :=
  { Progress.checked x with session := some (x.rawSessionKey, x.deliveredNonce) }

theorem askCertificate_agrees :
    Triple (Here Progress.start) (askCertificate (r.device c lib noise) x)
      (fun cert l => cert = r.cert ∧ Here (Progress.asked x) l) (fun _ => False) := by
  refine Triple.bind (sendPlain_here _) fun _ => ?_
  rw [takeFrame_sessionInitAck]
  refine Triple.bind (paceCapAck_here rfl 1 8) fun _ => ?_
  refine Triple.bind (sendPlain_here _) fun _ => ?_
  rw [takeFrame_akeInit]
  refine Triple.bind (receiveHdcp_here (by decide) rfl) fun m => Triple.given ?_
  rintro rfl
  have hlength : ¬(MessageId.akeSendCert ≠ MessageId.akeSendCert ∨ r.cert.length < 137) := by
    have := r.long
    simp only [Receiver.cert, List.length_cons]
    simpa using this
  dsimp only
  rw [if_neg hlength]
  exact Triple.pure fun l hl => ⟨rfl, hl⟩

theorem sendMasterKey_agrees {rsa : Key → Rng → Except Errno (Vector UInt8 128)}
    {encryptedKm : Vector UInt8 128}
    (hrsa : lib.rsaPublicKey (certModulus r.cert) (certExponent r.cert) = .ok rsa)
    (hkm : rsa x.km x.seed = .ok encryptedKm)
    (hdecrypt : r.decryptKm encryptedKm.toList = some x.km) :
    Triple (Here (Progress.asked x)) (sendMasterKey lib (r.device c lib noise) x r.cert)
      (fun rsa' l => rsa' = rsa ∧ Here ((Progress.keyed x).answer
        [(MessageId.akeSendRrx, r.rrx.toList),
          (MessageId.akeSendHPrime, computeH lib (deriveKd c x.km x.rtx r.rrx) x.rtx r.repeater),
          (0x08, r.pairing)]) l) (fun _ => False) := by
  refine Triple.bind (sendPlain_here _) fun _ => ?_
  rw [takeFrame_akeTransmitterInfo]
  refine Triple.bind (receiveHdcp_here (by decide) rfl) fun _ => Triple.given fun _ => ?_
  rw [hrsa]
  refine Triple.bind (Q := fun rsa' l => rsa' = rsa ∧ Here (Progress.asked x) l)
    (Triple.pure fun l hl => ⟨rfl, hl⟩) fun rsa' => Triple.given ?_
  rintro rfl
  rw [hkm]
  refine Triple.bind (Q := fun ekm l => ekm = encryptedKm ∧ Here (Progress.asked x) l)
    (Triple.pure fun l hl => ⟨rfl, hl⟩) fun ekm => Triple.given ?_
  rintro rfl
  refine Triple.bind (sendPlain_here _) fun _ => ?_
  rw [takeFrame_akeNoStoredKm rfl hdecrypt]
  exact Triple.pure fun l hl => ⟨rfl, hl⟩

theorem nonceOf_toList (n : Nonce) : nonceOf n.toList = n := by
  have h := nonceOf_append n []
  rwa [List.append_nil] at h

theorem length_hmac (lib : Library) (kd message : List UInt8) :
    (lib.hmacSha256 kd message).toList.length = 32 := by simp

theorem verifyReceiver_agrees :
    Triple (Here ((Progress.keyed x).answer
        [(MessageId.akeSendRrx, r.rrx.toList),
          (MessageId.akeSendHPrime, computeH lib (deriveKd c x.km x.rtx r.rrx) x.rtx r.repeater),
          (0x08, r.pairing)]))
      (verifyReceiver c lib (r.device c lib noise) x r.repeater)
      (fun rrx l => rrx = r.rrx ∧ Here (Progress.checked x) l) (fun _ => False) := by
  have htake (l : List UInt8) (h : l.length = 32) : l.take 32 = l := List.take_of_length_le h.le
  refine Triple.bind (receiveHdcp_here (by decide) rfl) fun m => Triple.given ?_
  rintro rfl
  dsimp only
  rw [if_neg (by simp), nonceOf_toList]
  refine Triple.bind (receiveHdcp_here (by decide) rfl) fun m => Triple.given ?_
  rintro rfl
  dsimp only
  have hlength := length_hmac lib (deriveKd c x.km x.rtx r.rrx)
    (x.rtx.toList.take 7 ++ [x.rtx.get (Fin.last 7) ^^^ if r.repeater then 1 else 0])
  rw [if_neg (by rw [computeH, htake _ hlength, hlength]; simp)]
  refine Triple.bind (receiveHdcp_here (by decide) rfl) fun _ => Triple.given fun _ => ?_
  refine Triple.bind (sendPlain_here _) fun _ => ?_
  rw [takeFrame_lcInit rfl rfl]
  refine Triple.bind (receiveHdcp_here (by decide) rfl) fun m => Triple.given ?_
  rintro rfl
  dsimp only
  have hlength := length_hmac lib ((deriveKd c x.km x.rtx r.rrx).take 24 ++
    List.zipWith (· ^^^ ·) ((deriveKd c x.km x.rtx r.rrx).drop 24) r.rrx.toList) x.rn.toList
  rw [if_neg (by rw [computeL, htake _ hlength, hlength]; simp)]
  exact Triple.pure fun l hl => ⟨rfl, hl⟩

/-- **A repeater is authenticated**, and checks the host's half of `V`. -/
theorem authenticateRepeater_agrees {p : Progress} (hrtx : p.rtx = some x.rtx)
    (hkm : p.km = some x.km) (hout : p.outbox = []) :
    Triple (Here (p.answer [(MessageId.repeaterauthSendReceiveridList,
        r.provenList c lib x.km x.rtx)]))
      (authenticateRepeater lib (r.device c lib noise) (deriveKd c x.km x.rtx r.rrx))
      (fun list l => list = r.receiverIdList ∧ l.device.1.session = p.session ∧
        l.device.1.acknowledged = true) (fun _ => False) := by
  set kd := deriveKd c x.km x.rtx r.rrx with hkd
  set v := computeVFull lib kd r.receiverIdList with hv
  have hvlength : v.length = 32 := length_hmac lib kd r.receiverIdList
  have hlist : r.provenList c lib x.km x.rtx = r.receiverIdList ++ v.take 16 := rfl
  have hsplit : (r.provenList c lib x.km x.rtx).length - 16 = r.receiverIdList.length := by
    rw [hlist, List.length_append, List.length_take, hvlength]
    omega
  have htake : (r.provenList c lib x.km x.rtx).take r.receiverIdList.length =
      r.receiverIdList := by
    rw [hlist, List.take_left]
  have hdrop : (r.provenList c lib x.km x.rtx).drop r.receiverIdList.length = v.take 16 := by
    rw [hlist, List.drop_left]
  have hlong : ¬(r.provenList c lib x.km x.rtx).length < 16 := by
    rw [hlist, List.length_append, List.length_take, hvlength]
    omega
  have hempty : { p.answer [(MessageId.repeaterauthSendReceiveridList,
      r.provenList c lib x.km x.rtx)] with outbox := [] } = p := by
    rw [← hout]
    rfl
  have hwaits : (p.answer [(MessageId.repeaterauthSendReceiveridList,
      r.provenList c lib x.km x.rtx)]).outbox =
        [(MessageId.repeaterauthSendReceiveridList, r.provenList c lib x.km x.rtx)] := by
    rw [Progress.answer, hout, List.nil_append]
  refine Triple.bind (receiveHdcp_here (by decide) hwaits) fun m => Triple.given ?_
  rintro rfl
  rw [hempty]
  dsimp only
  rw [if_neg (by simp [hlong]), hsplit, htake, hdrop, ← hv, if_neg (by simp)]
  refine Triple.bind (sendPlain_here _) fun _ => ?_
  rw [takeFrame_repeaterAuthSendAck (by simp [hvlength]) hrtx hkm, ← hkd, ← hv,
    decide_eq_true rfl]
  refine Triple.bind (paceCapAck_here (p := { p with acknowledged := true }) hout 7 8) fun _ => ?_
  refine Triple.bind (sendPlain_here _) fun _ => ?_
  rw [takeFrame_repeaterAuthStreamManage]
  refine Triple.bind ((paceCapAck_around 8 8).mono (fun _ hl => hl.around) (fun _ _ h => h)
    fun _ h => h) fun _ => ?_
  refine Triple.bind (waitCapComplete_around 48 0 false false) fun _ => Triple.pure ?_
  rintro l ⟨outbox, hl, -⟩
  exact ⟨rfl, by rw [hl]; rfl, by rw [hl]; rfl⟩

end Agreement

/-- **Both sides agree.**  With a receiver that follows the protocol, and that can read what is
encrypted under the key of its certificate, the authentication succeeds behind any noise: the keys
of the host are those of the session key and the nonce that the receiver holds.  A repeater's list
is returned, and the repeater has checked the host's half of `V`. -/
theorem authenticate_agrees (c : Crypto) (lib : Library) (r : Receiver) (noise : Noise)
    (x : Draws) (rsa : Key → Rng → Except Errno (Vector UInt8 128))
    (encryptedKm : Vector UInt8 128)
    (hrsa : lib.rsaPublicKey (certModulus r.cert) (certExponent r.cert) = .ok rsa)
    (hkm : rsa x.km x.seed = .ok encryptedKm)
    (hdecrypt : r.decryptKm encryptedKm.toList = some x.km) :
    ∃ keys l, authenticate c lib (r.device c lib noise) x ⟨(Progress.start, 0), []⟩ = .ok keys l ∧
      ∃ ks riv, l.device.1.session = some (ks, riv) ∧ keys.controlKey = cpSessionKey ks ∧
        keys.controlNonce = controlNonceOf riv ∧
        keys.receiverIdList = (if r.repeater then r.receiverIdList else []) ∧
        (r.repeater = true → l.device.1.acknowledged = true) := by
  have hspec : Triple (Here Progress.start) (authenticate c lib (r.device c lib noise) x)
      (fun keys l => ∃ ks riv, l.device.1.session = some (ks, riv) ∧
        keys.controlKey = cpSessionKey ks ∧ keys.controlNonce = controlNonceOf riv ∧
        keys.receiverIdList = (if r.repeater then r.receiverIdList else []) ∧
        (r.repeater = true → l.device.1.acknowledged = true)) (fun _ => False) := by
    refine Triple.bind askCertificate_agrees fun cert => Triple.given ?_
    rintro rfl
    refine Triple.bind (sendMasterKey_agrees hrsa hkm hdecrypt) fun rsa' => Triple.given fun _ => ?_
    rw [certRepeater_cert]
    refine Triple.bind verifyReceiver_agrees fun rrx => Triple.given ?_
    rintro rfl
    refine Triple.bind (sendPlain_here _) fun _ => ?_
    rw [takeFrame_skeSendEks rfl rfl rfl]
    cases hrepeater : r.repeater with
    | false =>
      refine Triple.bind (Q := fun list l => list = [] ∧ Here (Progress.shared x) l)
        (Triple.pure fun l hl => ⟨rfl, hl⟩) fun list => Triple.given ?_
      rintro rfl
      refine Triple.pure fun l hl => ?_
      exact ⟨x.rawSessionKey, x.deliveredNonce, by rw [hl]; rfl, rfl, rfl, rfl, nofun⟩
    | true =>
      refine Triple.bind (authenticateRepeater_agrees (p := Progress.shared x) rfl rfl rfl)
        fun list => Triple.given ?_
      rintro rfl
      refine Triple.pure fun l hl => ?_
      exact ⟨x.rawSessionKey, x.deliveredNonce, hl.1, rfl, rfl, rfl, fun _ => hl.2⟩
  have hrun := hspec ⟨(Progress.start, 0), []⟩ rfl
  cases hauth : authenticate c lib (r.device c lib noise) x ⟨(Progress.start, 0), []⟩ with
  | error e l =>
    rw [hauth] at hrun
    exact hrun.elim
  | ok keys l =>
    rw [hauth] at hrun
    exact ⟨keys, l, rfl, hrun⟩

/-- A repeater that reads the master key where it is written. -/
def steadyReceiver : Receiver where
  repeater := true
  certificate := List.replicate 136 0
  long := by simp
  info := []
  pairing := []
  rrx := Vector.replicate 8 3
  receiverIdList := [1, 2]
  decryptKm payload := some (keyOf payload)

def steadyCrypto : Crypto := ⟨fun _ b => b, fun _ _ => Vector.replicate 16 0⟩

def steadyLibrary : Library :=
  ⟨fun _ _ => .ok fun _ _ => .ok (Vector.replicate 128 9), fun _ _ => Vector.replicate 32 0⟩

def steadyDraws : Draws :=
  ⟨Vector.replicate 8 1, Vector.replicate 16 9, fun _ => 0, Vector.replicate 8 2,
    Vector.replicate 16 4, Vector.replicate 8 5⟩

/-- Behind a steady repeater the authentication succeeds. -/
theorem authenticate_agrees_steady : ∃ keys l, authenticate steadyCrypto steadyLibrary
    (steadyReceiver.device steadyCrypto steadyLibrary ⟨fun _ => none, nofun, fun _ => ⟨0, by simp⟩⟩)
    steadyDraws ⟨(Progress.start, 0), []⟩ = .ok keys l ∧
      ∃ ks riv, l.device.1.session = some (ks, riv) ∧ keys.controlKey = cpSessionKey ks ∧
        keys.controlNonce = controlNonceOf riv ∧
        keys.receiverIdList =
          (if steadyReceiver.repeater then steadyReceiver.receiverIdList else []) ∧
        (steadyReceiver.repeater = true → l.device.1.acknowledged = true) :=
  authenticate_agrees steadyCrypto steadyLibrary steadyReceiver _ steadyDraws
    (fun _ _ => .ok (Vector.replicate 128 9)) (Vector.replicate 128 9) rfl rfl
    (congrArg some (by decide +kernel))

end Vino.Session.Handshake
