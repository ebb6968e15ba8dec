import Vino.Stream

/-!
# The Ring Between Frames

The record that closes a frame names the buffer the frame filled.  A Ridge and an Ella name the next
buffer there too; a Navarro names the previous one in the record that opens a frame.  All of them
derive the buffer from the frame's 32-bit sequence number modulo three, and the sessions advance the
number with wrapping additions, although `2 ^ 32` is no multiple of three.

* `ring_continuous_iff`: a frame is in step with the ones behind it, and nothing overflows, exactly
  when the sequence does not wrap within the frames that fill the dock's buffers.
* `ring_breaks`: the frame behind the last sequence number writes the buffer of that frame again.
-/

namespace Vino.RingContinuity

open Vino.Haar.Strip Vino.Haar.Records Vino.Profile Vino.Stream Vino.Lib.Bits

/-! ### Checked arithmetic -/

/-- A sum of bytes. -/
def addU8 (a b : UInt8) : Option UInt8 := if a.toNat + b.toNat < 2 ^ 8 then some (a + b) else none

/-- A product of bytes. -/
def mulU8 (a b : UInt8) : Option UInt8 := if a.toNat * b.toNat < 2 ^ 8 then some (a * b) else none

/-- A sum of 16-bit words. -/
def addU16 (a b : UInt16) : Option UInt16 :=
  if a.toNat + b.toNat < 2 ^ 16 then some (a + b) else none

/-- A product of 16-bit words. -/
def mulU16 (a b : UInt16) : Option UInt16 :=
  if a.toNat * b.toNat < 2 ^ 16 then some (a * b) else none

/-- A sum of 32-bit words. -/
def addU32 (a b : UInt32) : Option UInt32 :=
  if a.toNat + b.toNat < 2 ^ 32 then some (a + b) else none

/-- A product of 32-bit words. -/
def mulU32 (a b : UInt32) : Option UInt32 :=
  if a.toNat * b.toNat < 2 ^ 32 then some (a * b) else none

/-- A difference of 32-bit words. -/
def subU32 (a b : UInt32) : Option UInt32 := if b.toNat ≤ a.toNat then some (a - b) else none

/-! ### The arithmetic of the builders -/

/-- The phases of a frame's buffer and of the next one. -/
def ringPhaseChecked (seq0 : UInt32) : Option (UInt8 × UInt8) := do
  let phase ← mulU8 (seq0 % 3).toUInt8 2
  let next ← addU8 phase 2
  return (phase, next % 6)

/-- The slot of a buffer of a connector. -/
def navarroPipeSlotChecked (connector : UInt8) (index : UInt16) : Option UInt16 := do
  addU16 (← mulU16 connector.toUInt16 8) index

/-- Where a slot's ring lies. -/
def navarroPipeRingChecked (connector : UInt8) (index : UInt16) : Option UInt32 := do
  let slot ← navarroPipeSlotChecked connector index
  subU32 0x6fcc (← mulU32 slot.toUInt32 0x21c)

/-- The closing record, if nothing overflows while it is built. -/
def frameTrailerChecked (d : Dock) (head : UInt8) (seq : UInt32) : Option (List UInt8) :=
  if d.videoOnCtrlPipe then do
    let _ ← addU32 seq 1
    return ellaFrameClose d.geometry head seq
  else if d.armBurst then do
    let (phase, next) ← ringPhaseChecked seq
    let _ ← mulU8 phase 4
    let _ ← mulU8 next 4
    return armFrameTrailer d.geometry head seq
  else do
    let (phase, _) ← ringPhaseChecked seq
    let _ ← navarroPipeSlotChecked head phase.toUInt16
    let _ ← navarroPipeRingChecked head phase.toUInt16
    return navarroFrameTrailer d.geometry head seq

/-- The opening record, if the dock uses one and nothing overflows while it is built. -/
def frameOpenerChecked (d : Dock) (head : UInt8) (seq : UInt32) : Option (Option (List UInt8)) :=
  if d.armBurst ∨ d.videoOnCtrlPipe then some none
  else do
    let (phase, _) ← ringPhaseChecked seq
    let prev ← addU8 phase 4
    let _ ← navarroPipeSlotChecked head phase.toUInt16
    let _ ← navarroPipeRingChecked head phase.toUInt16
    let _ ← navarroPipeRingChecked head (prev % 6).toUInt16
    return some (navarroFrameOpener d.geometry head seq)

/-! ### What the records name -/

section Fields

variable (d : Dock) (head : UInt8) (seq : UInt32)

/-- A byte of the record that closes a frame. -/
def closeByte (i : ℕ) : UInt8 := (frameTrailer d head seq).getD i 0

/-- The bytes of a closing record that name the next buffer, each with the byte in which the next
frame names that buffer as its own. -/
def nextFields : List (ℕ × ℕ) :=
  if d.videoOnCtrlPipe then [(29, 19), (33, 23)]
  else if d.armBurst then [(51, 19), (55, 23), (83, 19), (87, 23)]
  else []

/-- **A frame is in step with those behind it.** -/
structure InStep : Prop where
  next : ∀ f ∈ nextFields d, closeByte d head seq f.1 = closeByte d head (seq + 1) f.2
  ring : ∀ opener, frameOpener d head (seq + 1) = some opener →
    u16At 26 opener = u16At 22 (frameTrailer d head seq)
  slots : ∀ i j : ℕ, i < j → j < d.dockBuffers →
    closeByte d head (seq + UInt32.ofNat i) 19 ≠ closeByte d head (seq + UInt32.ofNat j) 19
  close : frameTrailerChecked d head seq = some (frameTrailer d head seq)
  opener : frameOpenerChecked d head seq = some (frameOpener d head seq)

end Fields

/-! ### Sequence numbers modulo three -/

/-- The number of the buffer a frame fills. -/
def buffer (seq : UInt32) : ℕ := seq.toNat % 3

theorem buffer_lt (seq : UInt32) : buffer seq < 3 := Nat.mod_lt _ (by decide)

theorem mod_three (seq : UInt32) : seq % 3 = UInt32.ofNat (buffer seq) := by
  have hlt : buffer seq < 2 ^ 32 := (buffer_lt seq).trans (by decide)
  refine UInt32.toNat_inj.1 ?_
  rw [UInt32.toNat_ofNat', Nat.mod_eq_of_lt hlt, UInt32.toNat_mod]
  rfl

theorem buffer_add {seq : UInt32} {i : ℕ} (h : seq.toNat + i < 2 ^ 32) :
    buffer (seq + UInt32.ofNat i) = (seq.toNat + i) % 3 := by
  have hi : (UInt32.ofNat i).toNat = i := by
    rw [UInt32.toNat_ofNat', Nat.mod_eq_of_lt (by omega)]
  rw [buffer, UInt32.toNat_add, hi, Nat.mod_eq_of_lt h]

theorem ringPhase_eq (seq : UInt32) :
    ringPhase seq = (UInt8.ofNat (2 * buffer seq), UInt8.ofNat (2 * ((buffer seq + 1) % 3))) := by
  have hlt := buffer_lt seq
  have hall : ∀ k < 3, ((UInt32.ofNat k).toUInt8 * 2, ((UInt32.ofNat k).toUInt8 * 2 + 2) % 6) =
      (UInt8.ofNat (2 * k), UInt8.ofNat (2 * ((k + 1) % 3))) := by decide
  rw [ringPhase, mod_three]
  exact hall _ hlt

theorem ringPhaseChecked_eq (seq : UInt32) : ringPhaseChecked seq = some (ringPhase seq) := by
  have hall : ∀ k < 3, (do
      let phase ← mulU8 (UInt32.ofNat k).toUInt8 2
      let next ← addU8 phase 2
      return (phase, next % 6)) =
      some ((UInt32.ofNat k).toUInt8 * 2, ((UInt32.ofNat k).toUInt8 * 2 + 2) % 6) := by decide
  rw [ringPhaseChecked, ringPhase, mod_three]
  exact hall _ (buffer_lt seq)

/-- The slot fields of a Navarro connector do not overflow below its seventh. -/
theorem pipeSlotChecked_eq (head : UInt8) {k : ℕ} (hk : k < 3) :
    navarroPipeSlotChecked head (UInt8.ofNat (2 * k)).toUInt16 =
      some (navarroPipeSlot head (UInt8.ofNat (2 * k)).toUInt16) := by
  have hhead := UInt8.toNat_lt head
  have hk' : (UInt8.ofNat (2 * k)).toNat = 2 * k := by
    rw [UInt8.toNat_ofNat', Nat.mod_eq_of_lt (by omega)]
  have hmul : mulU16 head.toUInt16 8 = some (head.toUInt16 * 8) := by
    refine if_pos ?_
    rw [UInt8.toNat_toUInt16]
    change head.toNat * 8 < 2 ^ 16
    omega
  rw [navarroPipeSlotChecked, hmul]
  refine if_pos ?_
  rw [UInt16.toNat_mul, UInt8.toNat_toUInt16, UInt8.toNat_toUInt16, hk']
  change head.toNat * 8 % 2 ^ 16 + 2 * k < 2 ^ 16
  omega

theorem toNat_pipeSlot (head : UInt8) {k : ℕ} (hk : k < 3) :
    (navarroPipeSlot head (UInt8.ofNat (2 * k)).toUInt16).toNat = 8 * head.toNat + 2 * k := by
  have hhead := UInt8.toNat_lt head
  have hk' : (UInt8.ofNat (2 * k)).toNat = 2 * k := by
    rw [UInt8.toNat_ofNat', Nat.mod_eq_of_lt (by omega)]
  rw [navarroPipeSlot, UInt16.toNat_add, UInt16.toNat_mul, UInt8.toNat_toUInt16,
    UInt8.toNat_toUInt16, hk']
  change (head.toNat * 8 % 2 ^ 16 + 2 * k) % 2 ^ 16 = _
  omega

theorem pipeRingChecked_eq (head : UInt8) {k : ℕ} (hk : k < 3) :
    navarroPipeRingChecked head (UInt8.ofNat (2 * k)).toUInt16 =
      if head.toNat ≤ 6 then some (navarroPipeRing head (UInt8.ofNat (2 * k)).toUInt16)
      else none := by
  have hhead := UInt8.toNat_lt head
  have hslot := toNat_pipeSlot head hk
  have hlt : (8 * head.toNat + 2 * k) * 540 < 2 ^ 32 := by omega
  have hprod :
      (navarroPipeSlot head (UInt8.ofNat (2 * k)).toUInt16).toUInt32.toNat * 540 < 2 ^ 32 := by
    rw [UInt16.toNat_toUInt32, hslot]
    exact hlt
  have hmul : mulU32 (navarroPipeSlot head (UInt8.ofNat (2 * k)).toUInt16).toUInt32 0x21c =
      some ((navarroPipeSlot head (UInt8.ofNat (2 * k)).toUInt16).toUInt32 * 0x21c) := if_pos hprod
  rw [navarroPipeRingChecked, pipeSlotChecked_eq head hk]
  simp only [Option.bind_eq_bind, Option.bind_some, hmul]
  refine if_congr ?_ rfl rfl
  rw [UInt32.toNat_mul, UInt16.toNat_toUInt32, hslot]
  change (8 * head.toNat + 2 * k) * 540 % 2 ^ 32 ≤ 28620 ↔ _
  rw [Nat.mod_eq_of_lt hlt]
  omega

/-! ### Each dock -/

section Docks

variable {d : Dock} {head : UInt8} {seq : UInt32}

/-- The records name a buffer by a value of its own. -/
theorem closeByte_inj (hd : d.Known) (head : UInt8) (seq seq' : UInt32) :
    closeByte d head seq 19 = closeByte d head seq' 19 ↔ buffer seq = buffer seq' := by
  have hlt := buffer_lt seq
  have hlt' := buffer_lt seq'
  unfold closeByte frameTrailer
  rcases hd.1 with h | h | h
  · have hctrl : d.videoOnCtrlPipe = true := by rw [Dock.videoOnCtrlPipe, h]; rfl
    have hall : ∀ k < 3, ∀ k' < 3, (UInt32.ofNat k).toUInt8 = (UInt32.ofNat k').toUInt8 ↔
        k = k' := by decide
    rw [if_pos hctrl, if_pos hctrl]
    change (seq % 3).toUInt8 = (seq' % 3).toUInt8 ↔ _
    rw [mod_three, mod_three]
    exact hall _ hlt _ hlt'
  · have hctrl : ¬d.videoOnCtrlPipe = true := by rw [Dock.videoOnCtrlPipe, h]; decide
    have harm : d.armBurst = true := by rw [Dock.armBurst, h]; rfl
    have hall : ∀ k < 3, ∀ k' < 3, UInt8.ofNat (2 * k) = UInt8.ofNat (2 * k') ↔ k = k' := by decide
    rw [if_neg hctrl, if_neg hctrl, if_pos harm, if_pos harm]
    change (ringPhase seq).1 = (ringPhase seq').1 ↔ _
    rw [ringPhase_eq, ringPhase_eq]
    exact hall _ hlt _ hlt'
  · have hctrl : ¬d.videoOnCtrlPipe = true := by rw [Dock.videoOnCtrlPipe, h]; decide
    have harm : ¬d.armBurst = true := by rw [Dock.armBurst, h]; decide
    rw [if_neg hctrl, if_neg hctrl, if_neg harm, if_neg harm]
    change (navarroPipeSlot head (ringPhase seq).1.toUInt16).toUInt8 =
      (navarroPipeSlot head (ringPhase seq').1.toUInt16).toUInt8 ↔ _
    rw [ringPhase_eq, ringPhase_eq, ← UInt8.toNat_inj, UInt16.toNat_toUInt8, UInt16.toNat_toUInt8,
      toNat_pipeSlot head hlt, toNat_pipeSlot head hlt']
    omega

theorem dockBuffers_bounds (hd : d.Known) : 2 ≤ d.dockBuffers ∧ d.dockBuffers ≤ 3 := by
  rcases hd.1 with h | h | h <;> rw [Dock.dockBuffers, h] <;> decide

/-- Frames of distinct buffers do not wrap. -/
theorem nowrap_of_slots (hd : d.Known) (h : InStep d head seq) :
    seq.toNat + d.dockBuffers ≤ 2 ^ 32 := by
  obtain ⟨hlo, hhi⟩ := dockBuffers_bounds hd
  have hseq := UInt32.toNat_lt seq
  by_contra hwrap
  have hadd : ∀ i : ℕ, i < 3 → (seq + UInt32.ofNat i).toNat = (seq.toNat + i) % 2 ^ 32 := by
    intro i hi
    rw [UInt32.toNat_add, UInt32.toNat_ofNat', Nat.mod_eq_of_lt (a := i) (by omega)]
  -- the last sequence number and the one behind it
  have hlast := hadd (2 ^ 32 - 1 - seq.toNat) (by omega)
  have hfirst := hadd (2 ^ 32 - seq.toNat) (by omega)
  refine h.slots (2 ^ 32 - 1 - seq.toNat) (2 ^ 32 - seq.toNat) (by omega) (by omega) ?_
  rw [closeByte_inj hd, buffer, buffer, hlast, hfirst]
  omega

theorem head_of_close (h : frameTrailerChecked d head seq = some (frameTrailer d head seq))
    (hp : d.profile = profileNavarro) : head.toNat ≤ 6 := by
  have hctrl : ¬d.videoOnCtrlPipe = true := by rw [Dock.videoOnCtrlPipe, hp]; decide
  have harm : ¬d.armBurst = true := by rw [Dock.armBurst, hp]; decide
  by_contra hhead
  rw [frameTrailerChecked, if_neg hctrl, if_neg harm, ringPhaseChecked_eq, ringPhase_eq] at h
  simp only [Option.bind_eq_bind, Option.bind_some, pipeSlotChecked_eq head (buffer_lt seq),
    pipeRingChecked_eq head (buffer_lt seq), if_neg hhead, Option.bind_none] at h
  cases h

theorem slots_of_nowrap (hd : d.Known) (h : seq.toNat + d.dockBuffers ≤ 2 ^ 32) (i j : ℕ)
    (hij : i < j) (hj : j < d.dockBuffers) :
    closeByte d head (seq + UInt32.ofNat i) 19 ≠ closeByte d head (seq + UInt32.ofNat j) 19 := by
  have hhi := (dockBuffers_bounds hd).2
  rw [Ne, closeByte_inj hd, buffer_add (by omega), buffer_add (by omega)]
  omega

/-- Without a wrap the buffers follow one another. -/
theorem ringPhase_succ (h : seq.toNat + 1 < 2 ^ 32) :
    (ringPhase (seq + 1)).1 = (ringPhase seq).2 := by
  have hsucc : buffer (seq + 1) = (buffer seq + 1) % 3 := by
    have hadd : buffer (seq + 1) = (seq.toNat + 1) % 3 := buffer_add h
    rw [hadd, buffer, Nat.mod_add_mod]
  rw [ringPhase_eq, ringPhase_eq, hsucc]

theorem inStep_of_nowrap (hd : d.Known) (h : seq.toNat + d.dockBuffers ≤ 2 ^ 32)
    (hhead : d.profile = profileNavarro → head.toNat ≤ 6) : InStep d head seq := by
  have hlo := (dockBuffers_bounds hd).1
  have hnext : seq.toNat + 1 < 2 ^ 32 := by omega
  have hphase := ringPhase_succ hnext
  have hslots (i j : ℕ) (hij : i < j) (hj : j < d.dockBuffers) :
      closeByte d head (seq + UInt32.ofNat i) 19 ≠ closeByte d head (seq + UInt32.ofNat j) 19 :=
    slots_of_nowrap hd h i j hij hj
  rcases hd.1 with hp | hp | hp
  · have hctrl : d.videoOnCtrlPipe = true := by rw [Dock.videoOnCtrlPipe, hp]; rfl
    refine ⟨fun f hf => ?_, fun opener hopener => ?_, hslots, ?_, ?_⟩
    · rw [nextFields, if_pos hctrl] at hf
      unfold closeByte frameTrailer
      rw [if_pos hctrl, if_pos hctrl]
      simp only [List.mem_cons, List.not_mem_nil, or_false] at hf
      rcases hf with rfl | rfl <;> rfl
    · rw [frameOpener, if_pos (.inr hctrl)] at hopener
      cases hopener
    · have hadd : addU32 seq 1 = some (seq + 1) := if_pos hnext
      rw [frameTrailerChecked, if_pos hctrl, hadd, frameTrailer, if_pos hctrl]
      rfl
    · rw [frameOpenerChecked, if_pos (.inr hctrl), frameOpener, if_pos (.inr hctrl)]
  · have hctrl : ¬d.videoOnCtrlPipe = true := by rw [Dock.videoOnCtrlPipe, hp]; decide
    have harm : d.armBurst = true := by rw [Dock.armBurst, hp]; rfl
    refine ⟨fun f hf => ?_, fun opener hopener => ?_, hslots, ?_, ?_⟩
    · rw [nextFields, if_neg hctrl, if_pos harm] at hf
      unfold closeByte frameTrailer
      rw [if_neg hctrl, if_neg hctrl, if_pos harm, if_pos harm]
      simp only [List.mem_cons, List.not_mem_nil, or_false] at hf
      rcases hf with rfl | rfl | rfl | rfl
      · exact hphase.symm
      · exact congrArg (· * 4) hphase.symm
      · exact hphase.symm
      · exact congrArg (· * 4) hphase.symm
    · rw [frameOpener, if_pos (.inl harm)] at hopener
      cases hopener
    · have hall : ∀ k < 3, mulU8 (UInt8.ofNat (2 * k)) 4 = some (UInt8.ofNat (2 * k) * 4) := by
        decide
      rw [frameTrailerChecked, if_neg hctrl, if_pos harm, ringPhaseChecked_eq, ringPhase_eq,
        frameTrailer, if_neg hctrl, if_pos harm]
      simp only [Option.bind_eq_bind, Option.bind_some, hall _ (buffer_lt seq),
        hall _ (Nat.mod_lt _ (by decide : 0 < 3))]
      rfl
    · rw [frameOpenerChecked, if_pos (.inl harm), frameOpener, if_pos (.inl harm)]
  · have hctrl : ¬d.videoOnCtrlPipe = true := by rw [Dock.videoOnCtrlPipe, hp]; decide
    have harm : ¬d.armBurst = true := by rw [Dock.armBurst, hp]; decide
    have hneither : ¬(d.armBurst = true ∨ d.videoOnCtrlPipe = true) := by
      rw [not_or]
      exact ⟨harm, hctrl⟩
    have hk := buffer_lt seq
    refine ⟨fun f hf => ?_, fun opener hopener => ?_, hslots, ?_, ?_⟩
    · rw [nextFields, if_neg hctrl, if_neg harm] at hf
      cases hf
    · rw [frameOpener, if_neg hneither, Option.some_inj] at hopener
      have hprev : ((ringPhase (seq + 1)).1 + 4) % 6 = (ringPhase seq).1 := by
        have hall : ∀ k < 3, (UInt8.ofNat (2 * ((k + 1) % 3)) + 4) % 6 = UInt8.ofNat (2 * k) := by
          decide
        rw [hphase, ringPhase_eq]
        exact hall _ hk
      have hopen : u16At 26 (navarroFrameOpener d.geometry head (seq + 1)) =
          some (navarroPipeRing head
            (((ringPhase (seq + 1)).1 + 4) % 6).toUInt16).toUInt16 :=
        u16At_eq (m := List.replicate 4 0) rfl
      have hclose : u16At 22 (navarroFrameTrailer d.geometry head seq) =
          some (navarroPipeRing head (ringPhase seq).1.toUInt16).toUInt16 :=
        u16At_eq (m := [0, seq.toUInt8 + 1] ++ List.replicate 6 0) rfl
      rw [← hopener, hopen, hprev, frameTrailer, if_neg hctrl, if_neg harm, hclose]
    · rw [frameTrailerChecked, if_neg hctrl, if_neg harm, ringPhaseChecked_eq, ringPhase_eq,
        frameTrailer, if_neg hctrl, if_neg harm]
      simp only [Option.bind_eq_bind, Option.bind_some, pipeSlotChecked_eq head hk,
        pipeRingChecked_eq head hk, if_pos (hhead hp)]
      rfl
    · have hadd : ∀ k < 3, addU8 (UInt8.ofNat (2 * k)) 4 = some (UInt8.ofNat (2 * k) + 4) := by
        decide
      have hprev : ∀ k < 3, (UInt8.ofNat (2 * k) + 4) % 6 = UInt8.ofNat (2 * ((k + 2) % 3)) := by
        decide
      rw [frameOpenerChecked, if_neg hneither, ringPhaseChecked_eq, ringPhase_eq, frameOpener,
        if_neg hneither]
      simp only [Option.bind_eq_bind, Option.bind_some, hadd _ hk, hprev _ hk,
        pipeSlotChecked_eq head hk, pipeRingChecked_eq head hk,
        pipeRingChecked_eq head (Nat.mod_lt (buffer seq + 2) (by decide : 0 < 3)), if_pos (hhead hp)]
      rfl

end Docks

/-- **The ring between frames.**  A frame is in step with those behind it exactly when the sequence
number does not wrap within the dock's buffers and, on a Navarro, the connector is one of the first
seven, whose ring addresses exist. -/
theorem ring_continuous_iff (d : Dock) (hd : d.Known) (head : UInt8) (seq : UInt32) :
    InStep d head seq ↔ seq.toNat + d.dockBuffers ≤ 2 ^ 32 ∧
      (d.profile = profileNavarro → head.toNat ≤ 6) :=
  ⟨fun h => ⟨nowrap_of_slots hd h, head_of_close h.close⟩,
    fun h => inStep_of_nowrap hd h.1 h.2⟩

/-- The first frame of a Ridge. -/
theorem first_frame_inStep : InStep ⟨profileRidge, false, false⟩ 1 0 :=
  (ring_continuous_iff ⟨profileRidge, false, false⟩ ⟨.inr (.inl rfl), nofun⟩ 1 0).2
    ⟨by decide, fun h => absurd h (by decide)⟩

/-- Behind the last sequence number a Ridge is sent the buffer it was sent just before, and not the
one that was named as the next. -/
theorem ring_breaks :
    ¬ ∀ (d : Dock), d.Known → ∀ (head : UInt8) (seq : UInt32), head.toNat < d.connectors →
      InStep d head seq := by
  intro h
  have hstep := h ⟨profileRidge, false, false⟩ ⟨.inr (.inl rfl), nofun⟩ 0 0xffffffff (by decide)
  exact absurd (hstep.next (51, 19) (by decide)) (by decide)

end Vino.RingContinuity
