import Vino.Cp.Replies

/-!
# The Blocks of an EDID

What the reader of an EDID reply hands over: the base block and the extensions behind it, up to the
first that does not check out, with the count and the checksum of the base block made to agree with
what is kept.

* `keptBlocks_spec`: the loop over the extensions keeps the longest run that checks out,
* `readEdid_published`: every EDID that is handed over is well formed.
-/

namespace Vino.Cp.EdidBlocks

open Vino.Cp.Replies Vino.Cp.Seal

/-- Block `k` of an EDID. -/
def block (edid : List UInt8) (k : ℕ) : List UInt8 := (edid.drop (k * 128)).take 128

/-! ### Checksums -/

theorem byteSum_eq_sum (l : List UInt8) : byteSum l = l.sum := by
  rw [byteSum, List.sum_eq_foldl]

/-- The byte that `salvage` computes makes a block sum to zero. -/
theorem byteSum_set_last {l : List UInt8} (hl : l.length = 128) :
    byteSum (l.set 127 (0 - byteSum (l.set 127 0))) = 0 := by
  simp [byteSum_eq_sum, List.sum_set', hl]

/-! ### The loop over the extensions -/

theorem keptBlocks_succ (edid : List UInt8) (limit fuel kept : ℕ) :
    keptBlocks edid limit (fuel + 1) kept =
      if kept * 128 + 128 ≤ limit then
        if byteSum (block edid kept) ≠ 0 then kept else keptBlocks edid limit fuel (kept + 1)
      else kept := rfl

/-- **The longest run of blocks that check out within the limit.** -/
theorem keptBlocks_spec (edid : List UInt8) (limit : ℕ) : ∀ fuel kept : ℕ,
    limit < (kept + fuel) * 128 + 128 → kept * 128 ≤ limit →
      kept ≤ keptBlocks edid limit fuel kept ∧ keptBlocks edid limit fuel kept * 128 ≤ limit ∧
      (∀ k, kept ≤ k → k < keptBlocks edid limit fuel kept → byteSum (block edid k) = 0) ∧
      (keptBlocks edid limit fuel kept * 128 + 128 ≤ limit →
        byteSum (block edid (keptBlocks edid limit fuel kept)) ≠ 0)
  | 0, kept, hfuel, hkept => by
      simp only [keptBlocks]
      exact ⟨le_rfl, hkept, fun k hk hk' => by omega, fun h => by omega⟩
  | fuel + 1, kept, hfuel, hkept => by
      by_cases hroom : kept * 128 + 128 ≤ limit
      · by_cases hsum : byteSum (block edid kept) = 0
        · have hstep : keptBlocks edid limit (fuel + 1) kept =
              keptBlocks edid limit fuel (kept + 1) := by
            rw [keptBlocks_succ, if_pos hroom, if_neg (not_not.2 hsum)]
          obtain ⟨hle, hlimit, hgood, hnext⟩ :=
            keptBlocks_spec edid limit fuel (kept + 1) (by omega) (by omega)
          rw [hstep]
          refine ⟨by omega, hlimit, fun k hk hk' => ?_, hnext⟩
          rcases eq_or_lt_of_le hk with rfl | hlt
          · exact hsum
          · exact hgood k hlt hk'
        · have hstop : keptBlocks edid limit (fuel + 1) kept = kept := by
            rw [keptBlocks_succ, if_pos hroom, if_pos hsum]
          rw [hstop]
          exact ⟨le_rfl, hkept, fun k hk hk' => by omega, fun _ => hsum⟩
      · have hstop : keptBlocks edid limit (fuel + 1) kept = kept := by
          rw [keptBlocks_succ, if_neg hroom]
        rw [hstop]
        exact ⟨le_rfl, hkept, fun k hk hk' => by omega, fun h => absurd h hroom⟩

/-! ### The count and the checksum -/

section Salvage

variable {edid : List UInt8} {kept : ℕ}

@[simp]
theorem length_salvage : (salvage edid kept).length = min (kept * 128) edid.length := by
  unfold salvage
  dsimp only
  split <;> simp

theorem salvage_agrees {i : ℕ} (hi : i < kept * 128) (h126 : i ≠ 126) (h127 : i ≠ 127) :
    (salvage edid kept)[i]? = edid[i]? := by
  unfold salvage
  dsimp only
  split
  · rw [List.getElem?_set_ne (Ne.symm h127), List.getElem?_set_ne (Ne.symm h127),
      List.getElem?_set_ne (Ne.symm h126), List.getElem?_take_of_lt hi]
  · rw [List.getElem?_take_of_lt hi]

theorem salvage_count (hkept : 1 ≤ kept) (hlen : kept * 128 ≤ edid.length) :
    (salvage edid kept).getD 126 0 = UInt8.ofNat (kept - 1) := by
  have h126 : 126 < kept * 128 := by omega
  unfold salvage
  dsimp only
  split
  · rw [List.getD_eq_getElem?_getD, List.getElem?_set_ne (by omega),
      List.getElem?_set_ne (by omega), List.getElem?_set_self (by simp; omega)]
    rfl
  · rename_i h
    exact not_not.1 h

/-- The kept extensions are the ones that came. -/
theorem block_salvage {k : ℕ} (hk : 1 ≤ k) (hlt : k < kept) :
    block (salvage edid kept) k = block edid k := by
  refine List.ext_getElem? fun i => ?_
  unfold block
  by_cases hi : i < 128
  · rw [List.getElem?_take_of_lt hi, List.getElem?_take_of_lt hi, List.getElem?_drop,
      List.getElem?_drop]
    exact salvage_agrees (by omega) (by omega) (by omega)
  · rw [List.getElem?_take_eq_none (by omega), List.getElem?_take_eq_none (by omega)]

/-- **The base block still sums to zero.** -/
theorem byteSum_base_salvage (hkept : 1 ≤ kept) (hlen : kept * 128 ≤ edid.length)
    (hsum : byteSum (edid.take 128) = 0) : byteSum (block (salvage edid kept) 0) = 0 := by
  unfold block salvage
  dsimp only
  rw [Nat.zero_mul, List.drop_zero]
  split
  · simp only [List.set_set, List.take_set]
    refine byteSum_set_last ?_
    simp
    omega
  · rw [List.take_take, Nat.min_eq_left (by omega)]
    exact hsum

end Salvage

/-! ### What is handed over -/

/-- How far the blocks of a reply may reach: the bytes its id declares, the blocks the base block
counts, and the bytes that came. -/
def reach (inner : List UInt8) : ℕ :=
  min (min ((1 + ((inner.drop 22).getD 126 0).toNat) * 128) (inner.drop 22).length)
    ((wordAt 0 inner).toNat - 0x14)

/-- An EDID that may be handed over for the plaintext of a reply. -/
structure Published (inner out : List UInt8) : Prop where
  base : 128 ≤ out.length
  whole : 128 ∣ out.length
  magic : out.take 8 = edidMagic
  bridge : (out.drop 8).take 4 ≠ bridgeId
  checksum : ∀ k < out.length / 128, byteSum (block out k) = 0
  count : (out.getD 126 0).toNat + 1 = out.length / 128
  agrees : ∀ i < out.length, i ≠ 126 → i ≠ 127 → out[i]? = (inner.drop 22)[i]?
  longest : out.length + 128 ≤ reach inner →
    byteSum (block (inner.drop 22) (out.length / 128)) ≠ 0

theorem edidReplyLen_eq_some {id : UInt16} {n : ℕ} (h : edidReplyLen id = some n) :
    n = id.toNat - 0x14 ∧ 128 ≤ n := by
  unfold edidReplyLen at h
  dsimp only at h
  split at h
  · rename_i hcond
    rw [Option.some_inj] at h
    omega
  · cases h

theorem readEdid_eq_some {inner out : List UInt8} (h : readEdid inner = some out) :
    22 + 128 ≤ inner.length ∧ 128 ≤ (wordAt 0 inner).toNat - 0x14 ∧
      (inner.drop 22).take 8 = edidMagic ∧ byteSum ((inner.drop 22).take 128) = 0 ∧
      ((inner.drop 22).drop 8).take 4 ≠ bridgeId ∧
      out = salvage (inner.drop 22) (keptBlocks (inner.drop 22) (reach inner)
        (reach inner / 128) 1) := by
  unfold readEdid at h
  split at h
  · cases h
  · rename_i hlen
    split at h
    · cases h
    · rename_i declared hdeclared
      obtain ⟨hreply, -⟩ := Option.filter_eq_some_iff.1 hdeclared
      obtain ⟨rfl, hle⟩ := edidReplyLen_eq_some hreply
      dsimp only at h
      split at h
      · cases h
      · rename_i hmagic
        split at h
        · cases h
        · rename_i hsum
          split at h
          · cases h
          · rename_i hbridge
            exact ⟨by omega, hle, not_not.1 hmagic, not_not.1 hsum, hbridge,
              (Option.some_inj.1 h).symm⟩

/-- **The EDID that is read from a plaintext is well formed**, and the longest that is. -/
theorem readEdid_published {inner out : List UInt8} (h : readEdid inner = some out) :
    Published inner out := by
  obtain ⟨hlen, hdeclared, hmagic, hsum, hbridge, rfl⟩ := readEdid_eq_some h
  have hreach : reach inner ≤ (inner.drop 22).length ∧ reach inner ≤ 256 * 128 ∧
      128 ≤ reach inner := by
    have hcount := ((inner.drop 22).getD 126 0).toNat_lt
    have hdrop : (inner.drop 22).length = inner.length - 22 := List.length_drop
    unfold reach
    omega
  obtain ⟨hle, hlimit, hgood, hnext⟩ := keptBlocks_spec (inner.drop 22) (reach inner)
    (reach inner / 128) 1 (by omega) (by omega)
  generalize keptBlocks (inner.drop 22) (reach inner) (reach inner / 128) 1 = kept at *
  generalize hedid : inner.drop 22 = edid at *
  have hkept : kept * 128 ≤ edid.length := by omega
  have hout : (salvage edid kept).length = kept * 128 := by
    rw [length_salvage, Nat.min_eq_left hkept]
  have hblocks : (salvage edid kept).length / 128 = kept := by omega
  have hsame : ∀ n ≤ 126, (salvage edid kept).take n = edid.take n := by
    intro n hn
    refine List.ext_getElem? fun i => ?_
    by_cases hi : i < n
    · rw [List.getElem?_take_of_lt hi, List.getElem?_take_of_lt hi]
      exact salvage_agrees (by omega) (by omega) (by omega)
    · rw [List.getElem?_take_eq_none (by omega), List.getElem?_take_eq_none (by omega)]
  refine ⟨by omega, ⟨kept, by omega⟩, ?_, ?_, ?_, ?_, ?_, ?_⟩
  · rw [hsame 8 (by omega), hmagic]
  · rw [List.take_drop, hsame 12 (by omega)]
    rwa [List.take_drop] at hbridge
  · rw [hblocks]
    intro k hk
    rcases Nat.eq_zero_or_pos k with rfl | hpos
    · exact byteSum_base_salvage hle hkept hsum
    · rw [block_salvage hpos hk]
      exact hgood k hpos hk
  · rw [hblocks, salvage_count hle hkept, UInt8.toNat_ofNat']
    omega
  · intro i hi h126 h127
    rw [hedid]
    exact salvage_agrees (by omega) h126 h127
  · rw [hblocks, hout, hedid]
    exact hnext

/-- **Only well-formed EDIDs are published.** -/
theorem parseEdidFromReply_published (c : Crypto) (ks : Key) (outRiv : Nonce)
    (wire out : List UInt8) (h : parseEdidFromReply c ks outRiv wire = some out) :
    ∃ riv ∈ inboundReplyRivs outRiv, ∃ inner,
      openIn c ks riv (u32At 12 wire) (wire.drop 16) = .ok inner ∧ Published inner out := by
  unfold parseEdidFromReply readReply at h
  split at h
  · cases h
  · obtain ⟨riv, hriv, inner, hopen, hread⟩ := mem_of_firstOpened h
    exact ⟨riv, hriv, inner, hopen, readEdid_published hread⟩

/-- A base block that counts one extension, and an extension that does not sum to zero. -/
def damagedPlaintext : List UInt8 :=
  [0x14, 0x01, 0x21, 0x00] ++ List.replicate 18 0 ++ edidMagic ++ List.replicate 118 0 ++ [1, 5] ++
    List.replicate 127 0 ++ [1]

/-- The primitives for a sealed reply in the open: no keystream and a fixed tag. -/
def openCrypto : Crypto := ⟨fun _ _ => Vector.replicate 16 0, fun _ _ => Vector.replicate 16 7⟩

def damagedReply : List UInt8 :=
  sealLivemac openCrypto (Vector.replicate 16 1) (inRiv (Vector.replicate 8 2))
    (wireHeader 278 0x45 0 9) damagedPlaintext

/-- Its base block is published, with the count and the checksum rewritten. -/
theorem damagedReply_published :
    ∃ riv ∈ inboundReplyRivs (Vector.replicate 8 2), ∃ inner,
      openIn openCrypto (Vector.replicate 16 1) riv (u32At 12 damagedReply)
        (damagedReply.drop 16) = .ok inner ∧
      Published inner (edidMagic ++ List.replicate 118 0 ++ [0, 6]) :=
  parseEdidFromReply_published _ _ _ damagedReply _ (readReply_seal 278 0 (by decide +kernel))

end Vino.Cp.EdidBlocks
