import Vino.Cp.Replies

/-!
# The Decoders of the Dock's Messages

Every decoder of an inbound message has its own loop over the nonces a message may be sealed with
and its own filter on the plaintext.  If no two of the nonces verify the same body, the loops agree:
each decoder returns what its filter makes of the one plaintext there is.  The DDC/CI reader is the
exception.  It derives the second connector's nonces in its own way, and does not find a message
that is sealed with the ones the others use.

* `firstOpened_of_unique`: a loop over the nonces reads the plaintext that verifies,
* `decoders_agree_iff`: when all decoders read the same message,
* `ddcci_misses_second_connector`: a DDC/CI reply that only its own reader does not see.
-/

namespace Vino.Cp.Decoders

open Vino.Cp.Replies Vino.Cp.Seal Vino.Haar.Records Vino.Lib.Bits

/-! ### Decoders -/

/-- The sub-ids a header is checked against. -/
def knownSubs : List UInt16 :=
  [0x00, 0x04, 0x0b, 0x0c, 0x10, 0x20, 0x21, 0x22, 0x24, 0x25, 0x2a, 0x30, 0x31, 0x41, 0x42, 0x43,
    0x45, 0x4a, 0x4b, 0x4c, 0x75, 0x84, 0x86]

def isKnownSub (sub : UInt16) : Bool := knownSubs.contains sub

/-- The id, the sub-id and the counter of a header. -/
def readHeader (plaintext : List UInt8) : UInt16 × UInt16 × UInt16 :=
  (wordAt 0 plaintext, wordAt 2 plaintext, wordAt 4 plaintext)

def readAck (plaintext : List UInt8) : Option (UInt16 × UInt16 × UInt16) :=
  if plaintext.length < 8 then none
  else if wordAt 0 plaintext < 0x400 ∧ isKnownSub (wordAt 2 plaintext) ∧ wordAt 6 plaintext = 0 then
    some (readHeader plaintext)
  else none

/-- An acknowledgement of the session: a small id, a known sub-id and a zero pad. -/
def verifyInAck (c : Crypto) (ks : Key) (outRiv : Nonce) (wire : List UInt8) :
    Option (UInt16 × UInt16 × UInt16) :=
  readReply c ks outRiv wire readAck

def readInner (plaintext : List UInt8) : Option (List UInt8) :=
  if 8 ≤ plaintext.length then some plaintext else none

/-- The inner plaintext of a frame, sealed or in the clear. -/
def innerPlaintext (c : Crypto) (ks : Key) (outRiv : Nonce) (wire : List UInt8) :
    Option (List UInt8) :=
  if wire.length ≤ 16 then none
  else if wordAt 8 wire = 0x25 then some (wire.drop 16)
  else if wordAt 8 wire = 0x45 then
    firstOpened c ks (u32At 12 wire) (wire.drop 16) readInner (inboundReplyRivs outRiv)
  else none

/-- A downstream HDCP message: its id, the padded region behind it, and how much of that came. -/
structure PerheadHdcpPush where
  msgId : UInt8
  payload : List UInt8
  payloadLen : ℕ
  deriving DecidableEq, Repr

def copyPush (inner : List UInt8) : Option PerheadHdcpPush :=
  if inner.length < 10 then none
  else if wordAt 2 inner ≠ 0x84 then none
  else
    let n := min (inner.length - 10) 38
    some
      { msgId := inner.getD 9 0
        payload := (inner.drop 10).take n ++ List.replicate (38 - n) 0
        payloadLen := n }

/-- A connector's HDCP push, sealed or in the clear. -/
def perConnectorHdcpPush (c : Crypto) (ks : Key) (outRiv : Nonce) (wire : List UInt8) :
    Option PerheadHdcpPush :=
  if wire.length ≤ 16 then none
  else if wordAt 8 wire = 0x25 then copyPush (wire.drop 16)
  else if wordAt 8 wire ≠ 0x45 then none
  else firstOpened c ks (u32At 12 wire) (wire.drop 16) copyPush (inboundReplyRivs outRiv)

/-! ### One plaintext -/

section Unique

variable {α : Type} {c : Crypto} {key : Key} {seq : UInt32} {body : List UInt8}
  {read : List UInt8 → Option α}

theorem firstOpened_eq_none : ∀ {rivs : List Nonce},
    (∀ riv ∈ rivs, ∀ p, openIn c key riv seq body = .ok p → read p = none) →
      firstOpened c key seq body read rivs = none
  | [], _ => rfl
  | riv :: rivs, h => by
      have hrest : firstOpened c key seq body read rivs = none :=
        firstOpened_eq_none fun riv' hmem => h riv' (List.mem_cons_of_mem riv hmem)
      unfold firstOpened
      split
      · exact hrest
      · rename_i p hopen
        rw [h riv List.mem_cons_self p hopen]
        exact hrest

/-- **A loop over the nonces reads the plaintext that verifies.** -/
theorem firstOpened_of_unique {riv : Nonce} {p : List UInt8}
    (hopen : openIn c key riv seq body = .ok p) : ∀ {rivs : List Nonce}, riv ∈ rivs →
    (∀ riv' ∈ rivs, ∀ p', openIn c key riv' seq body = .ok p' → p' = p) →
      firstOpened c key seq body read rivs = read p
  | [], hmem, _ => absurd hmem List.not_mem_nil
  | riv' :: rivs, hmem, hunique => by
      unfold firstOpened
      split
      · rename_i e herror
        have hmem' : riv ∈ rivs := by
          rcases List.mem_cons.1 hmem with rfl | hmem'
          · rw [hopen] at herror
            cases herror
          · exact hmem'
        exact firstOpened_of_unique hopen hmem' fun r hr =>
          hunique r (List.mem_cons_of_mem riv' hr)
      · rename_i p' hopen'
        obtain rfl := hunique riv' List.mem_cons_self p' hopen'
        cases hread : read p' with
        | some a => rfl
        | none =>
            refine firstOpened_eq_none fun r hr p hp => ?_
            rw [hunique r (List.mem_cons_of_mem riv' hr) p hp]
            exact hread

end Unique

/-! ### Agreement -/

/-- The nonces any of the decoders tries. -/
def triedRivs (outRiv : Nonce) : List Nonce := inboundReplyRivs outRiv ++ ddcciReplyRivs outRiv

/-- No two of the nonces verify the body of a frame. -/
def Separated (c : Crypto) (key : Key) (wire : List UInt8) (rivs : List Nonce) : Prop :=
  ∀ riv ∈ rivs, ∀ riv' ∈ rivs, ∀ p p',
    openIn c key riv (u32At 12 wire) (wire.drop 16) = .ok p →
    openIn c key riv' (u32At 12 wire) (wire.drop 16) = .ok p' → riv = riv'

/-- Every decoder returns what its filter makes of the plaintext, and the DDC/CI reader accepts it
exactly when its payload fits. -/
structure ReadAs (c : Crypto) (key : Key) (outRiv : Nonce) (wire p : List UInt8) : Prop where
  inner : innerPlaintext c key outRiv wire = some p
  lenient : decodeInLenient c key outRiv wire = some (readHeader p)
  ack : verifyInAck c key outRiv wire = readAck p
  push : perConnectorHdcpPush c key outRiv wire = copyPush p
  status : probeReplyStatus c key outRiv wire = readProbeStatus p
  ready : edidPollReady c key outRiv wire = readPollReady p
  edid : parseEdidFromReply c key outRiv wire = readEdid p
  ddcci : ∀ payload, parseReply c key outRiv wire = .ok (some payload) ↔
    readDdcci p = some (.ok payload)

/-- None of the decoders sees a message. -/
structure Unread (c : Crypto) (key : Key) (outRiv : Nonce) (wire : List UInt8) : Prop where
  inner : innerPlaintext c key outRiv wire = none
  lenient : decodeInLenient c key outRiv wire = none
  ack : verifyInAck c key outRiv wire = none
  push : perConnectorHdcpPush c key outRiv wire = none
  status : probeReplyStatus c key outRiv wire = none
  ready : edidPollReady c key outRiv wire = none
  edid : parseEdidFromReply c key outRiv wire = none

/-- The decoders read the same message of a frame, or none. -/
def Agree (c : Crypto) (key : Key) (outRiv : Nonce) (wire : List UInt8) : Prop :=
  ((∀ riv ∈ inboundReplyRivs outRiv, ∀ p,
      openIn c key riv (u32At 12 wire) (wire.drop 16) = .ok p → p.length < 8) ∧
    Unread c key outRiv wire) ∨
  ∃ riv ∈ inboundReplyRivs outRiv, ∃ p,
    openIn c key riv (u32At 12 wire) (wire.drop 16) = .ok p ∧ 8 ≤ p.length ∧
      ReadAs c key outRiv wire p

/-- A DDC/CI reply is of wire type 4 and sealed for the first connector. -/
def DdcciRouted (c : Crypto) (key : Key) (outRiv : Nonce) (wire : List UInt8) : Prop :=
  ∀ riv ∈ inboundReplyRivs outRiv, ∀ p payload,
    openIn c key riv (u32At 12 wire) (wire.drop 16) = .ok p → readDdcci p = some (.ok payload) →
      u32At 4 wire = 4 ∧ (riv = inRiv outRiv ∨ riv = outRiv)

section Agree

variable {c : Crypto} {key : Key} {outRiv : Nonce} {wire : List UInt8}

theorem length_of_openIn {riv : Nonce} {seq : UInt32} {p : List UInt8}
    (h : openIn c key riv seq (wire.drop 16) = .ok p) : 32 ≤ wire.length := by
  obtain ⟨hlen, -⟩ := openIn_eq_ok.1 h
  rw [List.length_drop] at hlen
  omega

theorem readReply_eq {α : Type} (read : List UInt8 → Option α) (hlen : 16 < wire.length)
    (hsub : wordAt 8 wire = 0x45) :
    readReply c key outRiv wire read =
      firstOpened c key (u32At 12 wire) (wire.drop 16) read (inboundReplyRivs outRiv) := by
  unfold readReply
  rw [if_neg]
  rintro (hshort | hother)
  · omega
  · exact hother hsub

/-- No reader accepts a plaintext without a header. -/
theorem unread_of_short (hsub : wordAt 8 wire = 0x45)
    (hshort : ∀ riv ∈ inboundReplyRivs outRiv, ∀ p,
      openIn c key riv (u32At 12 wire) (wire.drop 16) = .ok p → p.length < 8) :
    Unread c key outRiv wire := by
  have hnone : ∀ {α : Type} (read : List UInt8 → Option α),
      (∀ p : List UInt8, p.length < 8 → read p = none) →
        firstOpened c key (u32At 12 wire) (wire.drop 16) read (inboundReplyRivs outRiv) = none :=
    fun read hread => firstOpened_eq_none fun riv hriv p hp => hread p (hshort riv hriv p hp)
  have hreply : ∀ {α : Type} (read : List UInt8 → Option α),
      (∀ p : List UInt8, p.length < 8 → read p = none) →
        readReply c key outRiv wire read = none := by
    intro α read hread
    unfold readReply
    split
    · rfl
    · exact hnone read hread
  refine ⟨?_, ?_, ?_, ?_, ?_, ?_, ?_⟩
  · unfold innerPlaintext
    rw [hsub, if_neg (by decide : ¬(0x45 : UInt16) = 0x25), if_pos rfl]
    split
    · rfl
    · exact hnone _ fun p hp => by rw [readInner, if_neg (by omega)]
  · exact hreply _ fun p hp => by rw [if_pos hp]
  · exact hreply _ fun p hp => by rw [readAck, if_pos hp]
  · unfold perConnectorHdcpPush
    rw [hsub, if_neg (by decide : ¬(0x45 : UInt16) = 0x25),
      if_neg (fun h : (0x45 : UInt16) ≠ 0x45 => h rfl)]
    split
    · rfl
    · exact hnone _ fun p hp => by rw [copyPush, if_pos (by omega)]
  · exact hreply _ fun p hp => by
      unfold readProbeStatus
      dsimp only
      rw [if_pos hp]
  · exact hreply _ fun p hp => by rw [readPollReady, if_pos (by omega)]
  · exact hreply _ fun p hp => by rw [readEdid, if_pos (by omega)]

theorem mem_triedRivs {riv : Nonce} :
    riv ∈ triedRivs outRiv ↔ riv ∈ inboundReplyRivs outRiv ∨ riv ∈ ddcciReplyRivs outRiv :=
  List.mem_append

/-- Only the nonces of the first connector are tried by all decoders. -/
theorem first_connector_of_mem {riv : Nonce} (hin : riv ∈ inboundReplyRivs outRiv)
    (hddcci : riv ∈ ddcciReplyRivs outRiv) : riv = inRiv outRiv ∨ riv = outRiv := by
  have hbyte : riv[0] = outRiv[0] := by
    simp only [ddcciReplyRivs, List.mem_cons, List.not_mem_nil, or_false] at hddcci
    rcases hddcci with rfl | rfl | rfl | rfl <;> simp [inRiv, flipByte]
  have hflip : ∀ b : UInt8, b ^^^ 0x80 ≠ b := by
    intro b h
    have hzero := congrArg (b ^^^ ·) h
    simp at hzero
  simp only [inboundReplyRivs, List.mem_cons, List.not_mem_nil, or_false] at hin
  rcases hin with rfl | rfl | rfl | rfl
  · exact .inl rfl
  · simp [inRiv, hflip] at hbyte
  · exact .inr rfl
  · simp [hflip] at hbyte

theorem mem_ddcciReplyRivs {riv : Nonce} (h : riv = inRiv outRiv ∨ riv = outRiv) :
    riv ∈ ddcciReplyRivs outRiv := by
  rcases h with rfl | rfl <;> simp [ddcciReplyRivs]

theorem parseReply_eq_some {payload : List UInt8} (hlen : 32 ≤ wire.length)
    (hsub : wordAt 8 wire = 0x45) :
    parseReply c key outRiv wire = .ok (some payload) ↔
      u32At 4 wire = 4 ∧ firstOpened c key (u32At 12 wire) (wire.drop 16) readDdcci
        (ddcciReplyRivs outRiv) = some (.ok payload) := by
  unfold parseReply
  by_cases htype : u32At 4 wire = 4
  · rw [if_neg (by simp [htype, hsub, hlen])]
    split
    · rename_i hnone
      simp [hnone]
    · rename_i e herror
      simp [herror]
    · rename_i payload' hsome
      simp [hsome, htype]
  · rw [if_pos (.inr (.inl htype))]
    simp [htype]

/-- **A message that verifies is read by all decoders**, unless it is a DDC/CI reply that its
reader does not look for. -/
theorem readAs_iff {riv : Nonce} {p : List UInt8} (hsub : wordAt 8 wire = 0x45)
    (hsep : Separated c key wire (triedRivs outRiv)) (hriv : riv ∈ inboundReplyRivs outRiv)
    (hopen : openIn c key riv (u32At 12 wire) (wire.drop 16) = .ok p) (hp : 8 ≤ p.length) :
    ReadAs c key outRiv wire p ↔ ∀ payload, readDdcci p = some (.ok payload) →
      u32At 4 wire = 4 ∧ (riv = inRiv outRiv ∨ riv = outRiv) := by
  have hlen : 32 ≤ wire.length := length_of_openIn hopen
  have hin : riv ∈ triedRivs outRiv := mem_triedRivs.2 (.inl hriv)
  have hunique : ∀ riv' ∈ triedRivs outRiv, ∀ p',
      openIn c key riv' (u32At 12 wire) (wire.drop 16) = .ok p' → p' = p := by
    intro riv' hriv' p' hopen'
    obtain rfl := hsep riv' hriv' riv hin p' p hopen' hopen
    rw [hopen] at hopen'
    exact (Except.ok.inj hopen').symm
  have hfirst : ∀ {α : Type} (read : List UInt8 → Option α),
      firstOpened c key (u32At 12 wire) (wire.drop 16) read (inboundReplyRivs outRiv) = read p :=
    fun read => firstOpened_of_unique hopen hriv fun r hr => hunique r (mem_triedRivs.2 (.inl hr))
  have hreply : ∀ {α : Type} (read : List UInt8 → Option α),
      readReply c key outRiv wire read = read p :=
    fun read => (readReply_eq read (by omega) hsub).trans (hfirst read)
  have hddcci : ∀ payload, parseReply c key outRiv wire = .ok (some payload) →
      readDdcci p = some (.ok payload) ∧ u32At 4 wire = 4 ∧
        (riv = inRiv outRiv ∨ riv = outRiv) := by
    intro payload h
    obtain ⟨htype, hfound⟩ := (parseReply_eq_some hlen hsub).1 h
    obtain ⟨riv', hriv', p', hopen', hread⟩ := mem_of_firstOpened hfound
    have hin' : riv' ∈ triedRivs outRiv := mem_triedRivs.2 (.inr hriv')
    obtain rfl := hsep riv' hin' riv hin p' p hopen' hopen
    obtain rfl := hunique riv' hin' p' hopen'
    exact ⟨hread, htype, first_connector_of_mem hriv hriv'⟩
  constructor
  · intro h payload hread
    exact (hddcci payload ((h.ddcci payload).2 hread)).2
  · intro h
    refine ⟨?_, ?_, hreply readAck, ?_, hreply readProbeStatus, hreply readPollReady,
      hreply readEdid, fun payload => ⟨fun hsome => (hddcci payload hsome).1, fun hread => ?_⟩⟩
    · unfold innerPlaintext
      rw [if_neg (by omega), hsub, if_neg (by decide : ¬(0x45 : UInt16) = 0x25), if_pos rfl,
        hfirst, readInner, if_pos hp]
    · exact (hreply _).trans (if_neg (by omega))
    · unfold perConnectorHdcpPush
      rw [if_neg (by omega), hsub, if_neg (by decide : ¬(0x45 : UInt16) = 0x25),
        if_neg (fun h : (0x45 : UInt16) ≠ 0x45 => h rfl), hfirst]
    · obtain ⟨htype, hfirst'⟩ := h payload hread
      refine (parseReply_eq_some hlen hsub).2 ⟨htype, ?_⟩
      rw [firstOpened_of_unique hopen (mem_ddcciReplyRivs hfirst') fun r hr =>
        hunique r (mem_triedRivs.2 (.inr hr))]
      exact hread

theorem length_of_readDdcci {p : List UInt8} {r : Except Errno (List UInt8)}
    (h : readDdcci p = some r) : 23 ≤ p.length := by
  unfold readDdcci at h
  split at h
  · cases h
  · omega

/-- **The decoders read the same message of a frame exactly when a DDC/CI reply is of wire type 4
and sealed for the first connector.** -/
theorem decoders_agree_iff (hsub : wordAt 8 wire = 0x45)
    (hsep : Separated c key wire (triedRivs outRiv)) :
    Agree c key outRiv wire ↔ DdcciRouted c key outRiv wire := by
  by_cases hshort : ∀ riv ∈ inboundReplyRivs outRiv, ∀ p,
      openIn c key riv (u32At 12 wire) (wire.drop 16) = .ok p → p.length < 8
  · have hagree : Agree c key outRiv wire := .inl ⟨hshort, unread_of_short hsub hshort⟩
    have hrouted : DdcciRouted c key outRiv wire := by
      intro riv hriv p payload hopen hread
      have hlt := hshort riv hriv p hopen
      have hle := length_of_readDdcci hread
      omega
    exact ⟨fun _ => hrouted, fun _ => hagree⟩
  · constructor
    · rintro (⟨h, -⟩ | ⟨riv, hriv, p, hopen, hp, hread⟩) riv' hriv' p' payload hopen' hpayload
      · exact absurd h hshort
      · have hin : ∀ r ∈ inboundReplyRivs outRiv, r ∈ triedRivs outRiv := fun r hr =>
          mem_triedRivs.2 (.inl hr)
        obtain rfl := hsep riv' (hin riv' hriv') riv (hin riv hriv) p' p hopen' hopen
        rw [hopen] at hopen'
        obtain rfl := Except.ok.inj hopen'
        exact (readAs_iff hsub hsep hriv hopen hp).1 hread payload hpayload
    · intro h
      push Not at hshort
      obtain ⟨riv, hriv, p, hopen, hp⟩ := hshort
      exact .inr ⟨riv, hriv, p, hopen, hp,
        (readAs_iff hsub hsep hriv hopen hp).2 fun payload => h riv hriv p payload hopen⟩

end Agree

/-! ### A reply for the second connector -/

/-- A cipher that changes nothing, and a tag that is the head of the message it covers. -/
def echoCrypto : Crypto where
  encryptBlock _ block := block
  aesCmac _ message := Vector.ofFn fun i => message.getD i 0

theorem dl3cmacTag_echoCrypto_inj {key : Key} {riv riv' : Nonce} {n : ℕ} {ct : List UInt8}
    (h : dl3cmacTag echoCrypto key riv n ct = dl3cmacTag echoCrypto key riv' n ct) :
    riv = riv' := by
  have hbyte : ∀ i < 8, (riv.set 0 (riv[0] ^^^ 0x80)).toList.getD i 0 =
      (riv'.set 0 (riv'[0] ^^^ 0x80)).toList.getD i 0 := by
    intro i hi
    have hi' := congrArg (fun l => l.getD i 0) h
    simpa [dl3cmacTag, echoCrypto, List.getD_eq_getElem?_getD, hi, Nat.lt_of_lt_of_le hi] using hi'
  refine Vector.ext fun i hi => ?_
  have hi' := hbyte i hi
  by_cases hzero : i = 0
  · subst hzero
    simpa using hi'
  · simpa [List.getD_eq_getElem?_getD, hi, Vector.getElem_set_ne, Ne.symm hzero] using hi'

theorem separated_echoCrypto (key : Key) (wire : List UInt8) (rivs : List Nonce) :
    Separated echoCrypto key wire rivs := by
  intro riv _ riv' _ p p' hopen hopen'
  obtain ⟨-, htag, -⟩ := openIn_eq_ok.1 hopen
  obtain ⟨-, htag', -⟩ := openIn_eq_ok.1 hopen'
  exact dl3cmacTag_echoCrypto_inj (htag.symm.trans htag')

/-- A DDC/CI reply of one byte, sealed under `riv`. -/
def ddcciFrame (riv : Nonce) : List UInt8 :=
  sealLivemac echoCrypto (Vector.replicate 16 0) riv (wireHeader 24 0x45 0 0)
    ([0x20, 0, 0x25, 0, 1, 0, 0, 0] ++ List.replicate 14 0 ++ [1, 0x51])

/-- The frame as the dock seals it for its second connector. -/
def secondConnectorFrame : List UInt8 := ddcciFrame (flipByte (inRiv (Vector.replicate 8 0)) 0 0x80)

/-- **The DDC/CI reader misses a reply that is sealed for the second connector.** -/
theorem ddcci_misses_second_connector :
    wordAt 8 secondConnectorFrame = 0x45 ∧
      Separated echoCrypto (Vector.replicate 16 0) secondConnectorFrame
        (triedRivs (Vector.replicate 8 0)) ∧
      ¬Agree echoCrypto (Vector.replicate 16 0) (Vector.replicate 8 0) secondConnectorFrame := by
  have hinner : innerPlaintext echoCrypto (Vector.replicate 16 0) (Vector.replicate 8 0)
      secondConnectorFrame =
        some ([0x20, 0, 0x25, 0, 1, 0, 0, 0] ++ List.replicate 14 0 ++ [1, 0x51]) := by
    decide +kernel
  have hmissed : parseReply echoCrypto (Vector.replicate 16 0) (Vector.replicate 8 0)
      secondConnectorFrame = .ok none := by
    decide +kernel
  refine ⟨by decide +kernel, separated_echoCrypto _ _ _, ?_⟩
  rintro (⟨-, h⟩ | ⟨riv, -, p, -, -, h⟩)
  · rw [h.inner] at hinner
    cases hinner
  · obtain rfl := Option.some_inj.1 (h.inner.symm.trans hinner)
    have hread := (h.ddcci [0x51]).2 (by decide +kernel)
    rw [hmissed] at hread
    cases hread

/-- The frame as the dock seals it for its first connector. -/
def firstConnectorFrame : List UInt8 := ddcciFrame (inRiv (Vector.replicate 8 0))

/-- All decoders read the same reply when it is sealed for the first connector. -/
theorem decoders_agree_first_connector :
    Agree echoCrypto (Vector.replicate 16 0) (Vector.replicate 8 0) firstConnectorFrame := by
  refine (decoders_agree_iff (by decide +kernel) (separated_echoCrypto _ _ _)).2 ?_
  intro riv hriv p payload hopen hread
  have hopen' : openIn echoCrypto (Vector.replicate 16 0) (inRiv (Vector.replicate 8 0))
      (u32At 12 firstConnectorFrame) (firstConnectorFrame.drop 16) =
        .ok ([0x20, 0, 0x25, 0, 1, 0, 0, 0] ++ List.replicate 14 0 ++ [1, 0x51]) := by
    decide +kernel
  refine ⟨by decide +kernel, .inl ?_⟩
  exact separated_echoCrypto (Vector.replicate 16 0) firstConnectorFrame
    [riv, inRiv (Vector.replicate 8 0)] riv (by simp) (inRiv (Vector.replicate 8 0)) (by simp) _ _
    hopen hopen'

end Vino.Cp.Decoders
