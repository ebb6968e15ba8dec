import Vino.Haar.Records

/-!
# Sealing and Opening Control-Plane Messages

AES-CTR under the session key with a big-endian block counter, then an AES-CMAC tag over the
counter and the ciphertext.  The block cipher and the CMAC come from the kernel's crypto library
and are a parameter here.  The same construction seals the messages of the control channel and,
under a connector's own key, the records of its video stream; the dock's replies are opened under
one of four nonces.

* `ctrBlocks_eq`: the block loop of both directions computes `aesCtr`,
* `openIn_seal`: what was sealed is opened under the nonce and the counter it was sealed with,
* `sealing_round_trip`: the same of whole frames, and nothing else is opened.
-/

namespace Vino.Cp.Seal

open Vino.Lib.Bits Vino.Haar.Records

/-- An AES-128 key. -/
abbrev Key := Vector UInt8 16

/-- An AES-CTR content nonce. -/
abbrev Nonce := Vector UInt8 8

/-- The primitives of the crypto library. -/
structure Crypto where
  encryptBlock : Key → Vector UInt8 16 → Vector UInt8 16
  aesCmac : Key → List UInt8 → Vector UInt8 16

/-- The big-endian bytes of a number. -/
def beBytes (n v : ℕ) : List UInt8 := (leBytes n v).reverse

/-- The little-endian 32-bit field at an offset, zero past the end. -/
def u32At (off : ℕ) (l : List UInt8) : UInt32 :=
  ((l.getD off 0).toNat + 256 * (l.getD (off + 1) 0).toNat + 65536 * (l.getD (off + 2) 0).toNat +
    16777216 * (l.getD (off + 3) 0).toNat).toUInt32

/-! ### The cipher -/

/-- The counter block: the nonce, four zero bytes, the counter. -/
def ctrIv (riv : Nonce) (counter : UInt32) : Vector UInt8 16 :=
  Vector.ofFn fun i => (riv.toList ++ List.replicate 4 0 ++ beBytes 4 counter.toNat).getD i 0

/-- The keystream byte at position `k` of a message sealed at block counter `seq`. -/
def keystream (c : Crypto) (key : Key) (riv : Nonce) (seq : UInt32) (k : ℕ) : UInt8 :=
  (c.encryptBlock key (ctrIv riv (seq + UInt32.ofNat (k / 16)))).toList.getD (k % 16) 0

/-- AES-CTR, sixteen bytes a block; the same in both directions. -/
def aesCtr (c : Crypto) (key : Key) (riv : Nonce) (seq : UInt32) (content : List UInt8) :
    List UInt8 :=
  content.mapIdx fun k p => p ^^^ keystream c key riv seq k

/-- The AES blocks a message consumes. -/
def blocks (len : ℕ) : ℕ := (len + 15) / 16

/-- The loop over the blocks of a message, the last of which may be short. -/
def ctrBlocks (c : Crypto) (key : Key) (riv : Nonce) (seq : UInt32) (content : List UInt8) :
    List UInt8 :=
  (List.range (blocks content.length)).flatMap fun i =>
    List.zipWith (· ^^^ ·) ((content.drop (16 * i)).take 16)
      (c.encryptBlock key (ctrIv riv (seq + UInt32.ofNat i))).toList

/-- The integrity tag of a control message: the MAC nonce differs from the content nonce in the
top bit of its first byte. -/
def dl3cmacTag (c : Crypto) (key : Key) (riv : Nonce) (wireSeq : ℕ) (ciphertext : List UInt8) :
    List UInt8 :=
  let macNonce := (riv.set 0 (riv[0] ^^^ 0x80)).toList
  (c.aesCmac key (macNonce ++ beBytes 8 wireSeq ++ ciphertext)).toList

/-- Seal behind a clear wire header, which supplies the counter. -/
def sealLivemac (c : Crypto) (key : Key) (riv : Nonce) (header content : List UInt8) :
    List UInt8 :=
  let seq := u32At 12 header
  let ct := aesCtr c key riv seq content
  header.take 16 ++ ct ++ dl3cmacTag c key riv seq.toNat ct

/-- The sixteen-byte wire header of a sealed record with `contentLen` bytes of content. -/
def wireHeader (contentLen : ℕ) (sub aux : UInt16) (seq : UInt32) : List UInt8 :=
  let size := UInt16.ofNat (16 + (contentLen + 16) - 4)
  [0, 0] ++ u16Bytes size ++ leBytes 4 4 ++ u16Bytes sub ++ u16Bytes aux ++ leBytes 4 seq.toNat

/-- The auxiliary value of the wire header for an inner message id. -/
def auxForId (id : UInt16) (bodyLen : ℕ) : UInt16 :=
  if id = 0x14 then 0x0a
  else if id = 0x15 then 0x09
  else if id = 0x16 then 0x08
  else if id = 0x19 then 0x05
  else if id = 0x1a then 0x04
  else if id = 0x1b then 0x03
  else if id = 0x1c then 0x02
  else if id = 0x1e then 0x00
  else if id = 0x1f then 0x0f
  else if id = 0x22 then 0x0c
  else if id = 0x26 then 0x08
  else if id = 0x2a then 0x04
  else if id = 0x32 then 0x0c
  else if id = 0x36 then 0x08
  else if id = 0x48 then 0x06
  else if id = 0x9a then 0x04
  else UInt16.ofNat (bodyLen / 4)

/-- A sealed frame of the control channel. -/
def sealInteractive (c : Crypto) (key : Key) (riv : Nonce) (id : UInt16) (wireSeq : UInt32)
    (content : List UInt8) : List UInt8 :=
  sealLivemac c key riv
    (wireHeader content.length 0x24 (auxForId id (content.length + 16)) wireSeq) content

/-- A sealed record of a connector's video stream. -/
def sealVideoArm (c : Crypto) (key : Key) (riv : Nonce) (sub aux : UInt16) (seq : UInt32)
    (content : List UInt8) : List UInt8 :=
  sealLivemac c key riv (wireHeader content.length sub aux seq) content

/-! ### Opening -/

/-- The primary nonce of the other direction. -/
def inRiv (outRiv : Nonce) : Nonce := outRiv.set 7 (outRiv[7] ^^^ 0x01)

/-- Flip the bits of `mask` in byte `i`. -/
def flipByte (riv : Nonce) (i : Fin 8) (mask : UInt8) : Nonce :=
  riv.set i (riv.get i ^^^ mask) i.isLt

/-- The nonces a reply may be sealed with, in order of preference. -/
def inboundReplyRivs (outRiv : Nonce) : List Nonce :=
  let inHead0 := inRiv outRiv
  [inHead0, inHead0.set 0 (inHead0[0] ^^^ 0x80), outRiv, outRiv.set 0 (outRiv[0] ^^^ 0x80)]

/-- Authenticate and decrypt the body of a reply. -/
def openIn (c : Crypto) (key : Key) (riv : Nonce) (seq : UInt32) (body : List UInt8) :
    Except Errno (List UInt8) :=
  if body.length < 16 then .error .EINVAL
  else
    let ct := body.take (body.length - 16)
    let wireTag := body.drop (body.length - 16)
    if wireTag ≠ dl3cmacTag c key riv seq.toNat ct then .error .EINVAL
    else .ok (aesCtr c key riv seq ct)

/-- The first plaintext under a nonce that verifies and that the reader accepts. -/
def firstOpened {α : Type} (c : Crypto) (key : Key) (seq : UInt32) (body : List UInt8)
    (read : List UInt8 → Option α) : List Nonce → Option α
  | [] => none
  | riv :: rivs =>
      match openIn c key riv seq body with
      | .error _ => firstOpened c key seq body read rivs
      | .ok inner =>
          match read inner with
          | some a => some a
          | none => firstOpened c key seq body read rivs

/-- Read a sealed reply: the wire header must name the reply channel. -/
def readReply {α : Type} (c : Crypto) (key : Key) (outRiv : Nonce) (wire : List UInt8)
    (read : List UInt8 → Option α) : Option α :=
  if wire.length ≤ 16 ∨ (u16At 8 wire).getD 0 ≠ 0x45 then none
  else firstOpened c key (u32At 12 wire) (wire.drop 16) read (inboundReplyRivs outRiv)

/-- The id, the sub-id and the echoed counter of a reply. -/
def decodeInLenient (c : Crypto) (key : Key) (outRiv : Nonce) (wire : List UInt8) :
    Option (UInt16 × UInt16 × UInt16) :=
  readReply c key outRiv wire fun plaintext =>
    if plaintext.length < 8 then none
    else some ((u16At 0 plaintext).getD 0, (u16At 2 plaintext).getD 0, (u16At 4 plaintext).getD 0)

/-! ### Round trip -/

variable {c : Crypto} {key : Key} {riv : Nonce} {seq : UInt32} {content : List UInt8}

@[simp]
theorem length_aesCtr : (aesCtr c key riv seq content).length = content.length := by
  simp [aesCtr]

@[simp]
theorem length_dl3cmacTag {n : ℕ} {ct : List UInt8} : (dl3cmacTag c key riv n ct).length = 16 := by
  simp [dl3cmacTag]

/-- One block of the loop. -/
theorem ctrBlock_eq (i : ℕ) :
    List.zipWith (· ^^^ ·) ((content.drop (16 * i)).take 16)
      (c.encryptBlock key (ctrIv riv (seq + UInt32.ofNat i))).toList =
      ((aesCtr c key riv seq content).drop (16 * i)).take 16 := by
  refine List.ext_getElem (by simp) fun j h1 h2 => ?_
  have hj : j < 16 := by simp at h2; omega
  have hdiv : (16 * i + j) / 16 = i := by omega
  have hmod : (16 * i + j) % 16 = j := by omega
  simp [aesCtr, keystream, hdiv, hmod, hj]

/-- **The loop over the blocks is counter mode.** -/
theorem ctrBlocks_eq : ctrBlocks c key riv seq content = aesCtr c key riv seq content := by
  have htake : ∀ n, (List.range n).flatMap (fun i =>
      List.zipWith (· ^^^ ·) ((content.drop (16 * i)).take 16)
        (c.encryptBlock key (ctrIv riv (seq + UInt32.ofNat i))).toList) =
      (aesCtr c key riv seq content).take (16 * n) := by
    intro n
    induction n with
    | zero => rfl
    | succ n ih =>
        rw [List.range_succ, List.flatMap_append, ih, List.flatMap_singleton, ctrBlock_eq,
          ← List.take_add]
        rfl
  rw [ctrBlocks, htake]
  refine List.take_of_length_le ?_
  rw [length_aesCtr, blocks]
  omega

theorem aesCtr_aesCtr : aesCtr c key riv seq (aesCtr c key riv seq content) = content := by
  refine List.ext_getElem (by simp) fun k h1 h2 => ?_
  simp [aesCtr]

/-- **What was sealed is opened.** -/
theorem openIn_seal : openIn c key riv seq
    (aesCtr c key riv seq content ++
      dl3cmacTag c key riv seq.toNat (aesCtr c key riv seq content)) = .ok content := by
  have hlen : (aesCtr c key riv seq content ++
      dl3cmacTag c key riv seq.toNat (aesCtr c key riv seq content)).length =
        content.length + 16 := by simp
  have hsplit : content.length + 16 - 16 = (aesCtr c key riv seq content).length := by simp
  unfold openIn
  rw [if_neg (by omega)]
  dsimp only
  rw [hlen, hsplit, List.take_left, List.drop_left, if_neg (by simp), aesCtr_aesCtr]

/-- **A body is opened exactly when it ends in its own tag.** -/
theorem openIn_eq_ok {body plaintext : List UInt8} :
    openIn c key riv seq body = .ok plaintext ↔
      16 ≤ body.length ∧ body.drop (body.length - 16) =
        dl3cmacTag c key riv seq.toNat (body.take (body.length - 16)) ∧
      plaintext = aesCtr c key riv seq (body.take (body.length - 16)) := by
  unfold openIn
  by_cases hshort : body.length < 16
  · rw [if_pos hshort]
    constructor
    · nofun
    · rintro ⟨hlen, -⟩
      omega
  · rw [if_neg hshort]
    dsimp only
    by_cases htag : body.drop (body.length - 16) =
        dl3cmacTag c key riv seq.toNat (body.take (body.length - 16))
    · rw [if_neg (by simpa using htag)]
      constructor
      · intro h
        exact ⟨by omega, htag, (Except.ok.inj h).symm⟩
      · rintro ⟨-, -, rfl⟩
        rfl
    · rw [if_pos htag]
      constructor
      · nofun
      · rintro ⟨-, htag', -⟩
        exact absurd htag' htag

/-- Sealing what was opened gives the body back. -/
theorem seal_of_openIn {body plaintext header : List UInt8} (hheader : u32At 12 header = seq)
    (h : openIn c key riv seq body = .ok plaintext) :
    sealLivemac c key riv header plaintext = header.take 16 ++ body := by
  obtain ⟨-, htag, rfl⟩ := openIn_eq_ok.1 h
  unfold sealLivemac
  dsimp only
  rw [hheader, aesCtr_aesCtr, ← htag, List.append_assoc, List.take_append_drop]

/-- **Authenticated sealing.**  A sealed frame is opened to its content; a body is opened exactly
when its last sixteen bytes are the tag of the rest, and sealing what it held gives it back. -/
theorem sealing_round_trip (c : Crypto) (key : Key) (riv : Nonce) (header : List UInt8)
    (hheader : 16 ≤ header.length) :
    (∀ content, openIn c key riv (u32At 12 header)
      ((sealLivemac c key riv header content).drop 16) = .ok content) ∧
    ∀ body,
      ((∃ plaintext, openIn c key riv (u32At 12 header) body = .ok plaintext) ↔
        16 ≤ body.length ∧ body.drop (body.length - 16) =
          dl3cmacTag c key riv (u32At 12 header).toNat (body.take (body.length - 16))) ∧
      ∀ plaintext, openIn c key riv (u32At 12 header) body = .ok plaintext →
        sealLivemac c key riv header plaintext = header.take 16 ++ body := by
  refine ⟨fun content => ?_, fun body => ⟨?_, fun plaintext h => seal_of_openIn rfl h⟩⟩
  · have hdrop : (sealLivemac c key riv header content).drop 16 =
        aesCtr c key riv (u32At 12 header) content ++
          dl3cmacTag c key riv (u32At 12 header).toNat
            (aesCtr c key riv (u32At 12 header) content) := by
      have hlen : (header.take 16).length = 16 := by simpa using hheader
      unfold sealLivemac
      dsimp only
      rw [List.append_assoc, List.drop_left' hlen]
    rw [hdrop]
    exact openIn_seal
  · constructor
    · rintro ⟨plaintext, h⟩
      obtain ⟨hlen, htag, -⟩ := openIn_eq_ok.1 h
      exact ⟨hlen, htag⟩
    · rintro ⟨hlen, htag⟩
      exact ⟨_, openIn_eq_ok.2 ⟨hlen, htag, rfl⟩⟩

/-- Two blocks across the wrap of the counter, the second short, under a cipher that changes nothing. -/
theorem sealing_round_trip_sample :
    openIn ⟨fun _ b => b, fun _ _ => Vector.replicate 16 7⟩ (Vector.replicate 16 1)
      (Vector.replicate 8 2) 0xffffffff
      ((sealLivemac ⟨fun _ b => b, fun _ _ => Vector.replicate 16 7⟩ (Vector.replicate 16 1)
        (Vector.replicate 8 2) (List.replicate 16 0xff) (List.replicate 21 5)).drop 16) =
      .ok (List.replicate 21 5) :=
  (sealing_round_trip ⟨fun _ b => b, fun _ _ => Vector.replicate 16 7⟩ (Vector.replicate 16 1)
    (Vector.replicate 8 2) (List.replicate 16 0xff) (by decide)).1 _

@[simp]
theorem length_wireHeader (n : ℕ) (sub aux : UInt16) : (wireHeader n sub aux seq).length = 16 := by
  simp [wireHeader]

/-- **A four-byte little-endian field is read back.** -/
theorem u32At_append {l m : List UInt8} {v : UInt32} {off : ℕ} (hl : l.length = off) :
    u32At off (l ++ (leBytes 4 v.toNat ++ m)) = v := by
  have hv : v.toNat < 4294967296 := v.toNat_lt
  have hbyte : ∀ j < 4, (l ++ (leBytes 4 v.toNat ++ m)).getD (off + j) 0 =
      UInt8.ofNat (v.toNat >>> (8 * j)) := by
    intro j hj
    rw [List.getD_eq_getElem?_getD, List.getElem?_append_right (by omega),
      List.getElem?_append_left (by simp; omega)]
    simp [hl, leBytes, hj]
  have h0 := hbyte 0 (by omega)
  rw [Nat.add_zero] at h0
  unfold u32At
  rw [h0, hbyte 1 (by omega), hbyte 2 (by omega), hbyte 3 (by omega)]
  simp only [UInt8.toNat_ofNat', Nat.shiftRight_eq_div_pow]
  have hsum : v.toNat / 2 ^ (8 * 0) % 2 ^ 8 + 256 * (v.toNat / 2 ^ (8 * 1) % 2 ^ 8) +
      65536 * (v.toNat / 2 ^ (8 * 2) % 2 ^ 8) + 16777216 * (v.toNat / 2 ^ (8 * 3) % 2 ^ 8) =
        v.toNat := by
    norm_num
    omega
  rw [hsum]
  exact UInt32.ofNat_toNat

theorem u32At_wireHeader (n : ℕ) (sub aux : UInt16) (m : List UInt8) :
    u32At 12 (wireHeader n sub aux seq ++ m) = seq := by
  unfold wireHeader
  rw [List.append_assoc]
  exact u32At_append (by simp)

end Vino.Cp.Seal
