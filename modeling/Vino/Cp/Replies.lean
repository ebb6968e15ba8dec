import Vino.Cp.Seal

/-!
# Reading the Dock's Replies

The readers of the messages the dock sends back: the status behind a presence probe, the readiness
bit of an EDID probe, the EDID itself, and the result of a DDC/CI read.  Each tries the nonces a
reply may be sealed with and takes the first plaintext that passes its filter.

* `mem_of_firstOpened`: what a reader returns was read from a plaintext that verified,
* `readReply_seal`: a reply sealed under the primary nonce is read.
-/

namespace Vino.Cp.Replies

open Vino.Cp.Seal Vino.Haar.Records Vino.Lib.Bits

/-- A little-endian 16-bit field, zero past the end. -/
def wordAt (off : ℕ) (l : List UInt8) : UInt16 := (u16At off l).getD 0

/-! ### Presence and readiness -/

def readProbeStatus (inner : List UInt8) : Option (UInt16 × UInt32 × Bool) :=
  let id := wordAt 0 inner
  if inner.length < 8 then none
  else if 0x400 ≤ id ∨ wordAt 6 inner ≠ 0 then none
  -- Only a capability or EDID handler, or the generic negative answer, answers a probe.
  else if ¬(0x14 < id ∧ wordAt 2 inner = 0x0020) ∧ id ≠ 0x14 then none
  else
    let status := if 26 ≤ inner.length then u32At 22 inner else 0
    let ready := decide (27 ≤ inner.length) && inner.getD 26 0 &&& 0x80 != 0
    some (id, status, ready)

/-- The id, the status word and the ready bit of a probe reply. -/
def probeReplyStatus (c : Crypto) (ks : Key) (outRiv : Nonce) (wire : List UInt8) :
    Option (UInt16 × UInt32 × Bool) :=
  readReply c ks outRiv wire readProbeStatus

def readPollReady (inner : List UInt8) : Option Bool :=
  if inner.length < 27 then none
  else if wordAt 0 inner ≠ 0x44 ∨ wordAt 2 inner ≠ 0x20 then none
  else some (inner.getD 26 0 &&& 0x80 != 0)

/-- The ready bit of an EDID-readiness reply. -/
def edidPollReady (c : Crypto) (ks : Key) (outRiv : Nonce) (wire : List UInt8) : Option Bool :=
  readReply c ks outRiv wire readPollReady

/-! ### EDID -/

/-- How many EDID bytes a reply id says it carries. -/
def edidReplyLen (id : UInt16) : Option ℕ :=
  let n := id.toNat - 0x14
  if 0x14 ≤ id.toNat ∧ 128 ≤ n ∧ n % 128 = 0 then some n else none

/-- The sum of the bytes modulo 256. -/
def byteSum (b : List UInt8) : UInt8 := b.foldl (· + ·) 0

def edidMagic : List UInt8 := [0x00, 0xff, 0xff, 0xff, 0xff, 0xff, 0xff, 0x00]

/-- The dock's own bridge descriptor. -/
def bridgeId : List UInt8 := [0x3a, 0xd4, 0x9c, 0x07]

/-- Count the blocks that are wholly present and sum to zero, from `blocks` on. -/
def keptBlocks (edid : List UInt8) (limit : ℕ) : ℕ → ℕ → ℕ
  | 0, kept => kept
  | fuel + 1, kept =>
      if kept * 128 + 128 ≤ limit then
        if byteSum ((edid.drop (kept * 128)).take 128) ≠ 0 then kept
        else keptBlocks edid limit fuel (kept + 1)
      else kept

/-- The kept blocks, with the extension count and the checksum made to agree with them. -/
def salvage (edid : List UInt8) (kept : ℕ) : List UInt8 :=
  let out := edid.take (kept * 128)
  let count := UInt8.ofNat (kept - 1)
  if out.getD 126 0 ≠ count then
    let out := (out.set 126 count).set 127 0
    out.set 127 (0 - byteSum (out.take 128))
  else out

def readEdid (inner : List UInt8) : Option (List UInt8) :=
  if inner.length < 22 + 128 then none
  else
    match (edidReplyLen (wordAt 0 inner)).filter fun _ => wordAt 2 inner == 0x21 with
    | none => none
    | some declared =>
        let edid := inner.drop 22
        if edid.take 8 ≠ edidMagic then none
        else if byteSum (edid.take 128) ≠ 0 then none
        else if (edid.drop 8).take 4 = bridgeId then none
        else
          -- The reply says how much it carries, the base block how much the monitor has.
          let limit := min (min ((1 + (edid.getD 126 0).toNat) * 128) edid.length) declared
          some (salvage edid (keptBlocks edid limit (limit / 128) 1))

/-- The EDID of a reply. -/
def parseEdidFromReply (c : Crypto) (ks : Key) (outRiv : Nonce) (wire : List UInt8) :
    Option (List UInt8) :=
  readReply c ks outRiv wire readEdid

/-! ### DDC/CI -/

/-- The nonces the DDC/CI reader tries.  It selects the connector in byte 7, where
`inboundReplyRivs` selects it in byte 0. -/
def ddcciReplyRivs (outbound : Nonce) : List Nonce :=
  let primary := inRiv outbound
  [primary, flipByte primary (Fin.last 7) 0x80, outbound, flipByte outbound (Fin.last 7) 0x80]

/-- A payload that runs past the plaintext ends the reading with an error. -/
def readDdcci (plaintext : List UInt8) : Option (Except Errno (List UInt8)) :=
  if plaintext.length < 23 then none
  else if wordAt 0 plaintext ≠ 0x20 ∨ wordAt 2 plaintext ≠ 0x25 ∨ wordAt 6 plaintext ≠ 0 then none
  else
    let length := (plaintext.getD 22 0).toNat
    if plaintext.length < 23 + length then some (.error .EPROTO)
    else some (.ok ((plaintext.drop 23).take length))

/-- The result of a DDC/CI read. -/
def parseReply (c : Crypto) (key : Key) (outboundRiv : Nonce) (wire : List UInt8) :
    Except Errno (Option (List UInt8)) :=
  if wire.length < 32 ∨ u32At 4 wire ≠ 4 ∨ wordAt 8 wire ≠ 0x45 then .ok none
  else
    match firstOpened c key (u32At 12 wire) (wire.drop 16) readDdcci
        (ddcciReplyRivs outboundRiv) with
    | none => .ok none
    | some (.error e) => .error e
    | some (.ok payload) => .ok (some payload)

/-! ### What a reader has seen -/

variable {α : Type} {c : Crypto} {key : Key} {seq : UInt32} {body : List UInt8}
  {read : List UInt8 → Option α}

/-- **A reader returns what a plaintext that verified reads as.** -/
theorem mem_of_firstOpened {a : α} : ∀ {rivs : List Nonce},
    firstOpened c key seq body read rivs = some a →
      ∃ riv ∈ rivs, ∃ inner, openIn c key riv seq body = .ok inner ∧ read inner = some a
  | [], h => by simp [firstOpened] at h
  | riv :: rivs, h => by
      unfold firstOpened at h
      split at h
      · obtain ⟨riv', hmem, hread⟩ := mem_of_firstOpened h
        exact ⟨riv', List.mem_cons_of_mem riv hmem, hread⟩
      · rename_i inner hopen
        split at h
        · rename_i b hb
          rw [Option.some_inj] at h
          subst h
          exact ⟨riv, List.mem_cons_self, inner, hopen, hb⟩
        · obtain ⟨riv', hmem, hread⟩ := mem_of_firstOpened h
          exact ⟨riv', List.mem_cons_of_mem riv hmem, hread⟩

/-- The first nonce decides when its plaintext verifies and is accepted. -/
theorem firstOpened_cons_of_ok {riv : Nonce} {rivs : List Nonce} {inner : List UInt8} {a : α}
    (hopen : openIn c key riv seq body = .ok inner) (hread : read inner = some a) :
    firstOpened c key seq body read (riv :: rivs) = some a := by
  simp [firstOpened, hopen, hread]

theorem wordAt_wireHeader (n : ℕ) (sub aux : UInt16) (m : List UInt8) :
    wordAt 8 (wireHeader n sub aux seq ++ m) = sub := by
  have hdrop : (wireHeader n sub aux seq ++ m).drop 8 =
      u16Bytes sub ++ (u16Bytes aux ++ leBytes 4 seq.toNat ++ m) := by
    simp [wireHeader, u16Bytes, leBytes, List.range_succ]
  rw [wordAt, u16At_eq hdrop]
  rfl

/-- **A reply that the dock seals under the primary nonce is read.** -/
theorem readReply_seal {outRiv : Nonce} {content : List UInt8} {a : α} (n : ℕ) (aux : UInt16)
    (hread : read content = some a) :
    readReply c key outRiv
      (sealLivemac c key (inRiv outRiv) (wireHeader n 0x45 aux seq) content) read = some a := by
  have hseq : u32At 12 (wireHeader n 0x45 aux seq) = seq := by
    simpa using @u32At_wireHeader seq n 0x45 aux []
  have hwire : sealLivemac c key (inRiv outRiv) (wireHeader n 0x45 aux seq) content =
      wireHeader n 0x45 aux seq ++ (aesCtr c key (inRiv outRiv) seq content ++
        dl3cmacTag c key (inRiv outRiv) seq.toNat (aesCtr c key (inRiv outRiv) seq content)) := by
    unfold sealLivemac
    rw [hseq, List.take_of_length_le (by simp), List.append_assoc]
  rw [hwire]
  unfold readReply
  rw [u32At_wireHeader, List.drop_left' (by simp), if_neg]
  · exact firstOpened_cons_of_ok openIn_seal hread
  · rintro (hshort | hsub)
    · simp at hshort
    · exact hsub (wordAt_wireHeader n 0x45 aux _)

end Vino.Cp.Replies
