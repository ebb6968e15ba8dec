import Vino.Firmware.Package
import Vino.Lib.Run

/-!
# Automatic Firmware Updates Are Counted

The driver counts the automatic updates it has tried on a device in a table of four slots, each
with the key of a device name and a count.  A probe of an update interface looks for its slot, and
counts itself with a compare-exchange before it writes the dock.  Every load and every exchange of
every probe is a step of its own.

* `flashes_bounded`: a dock is written at most twice in a run in which no record is overwritten by
  another device or made a second time.
* `third_flash`: two docks race for a slot, and one of them is written three times.
-/

namespace Vino.Firmware

open Vino.Lib.Run

/-! ### The table -/

def updateSlots : ℕ := 4

def maxUpdateAttempts : ℕ := 2

/-- FNV-1a over the name of a device. -/
def attemptKey (name : List UInt8) : UInt32 :=
  name.foldl (fun h b => (h ^^^ b.toUInt32) * 0x01000193) 0x811c9dc5

/-- A slot: a key in the upper half of the word, a count in the lower one. -/
structure Slot where
  key : UInt32
  count : ℕ
  deriving DecidableEq

/-- The word is zero. -/
def Slot.empty : Slot := ⟨0, 0⟩

abbrev Table := Fin updateSlots → Slot

def Table.new : Table := fun _ => .empty

/-- The slot that is shared by hash. -/
def sharedSlot (key : UInt32) : Fin updateSlots :=
  ⟨key.toNat % updateSlots, Nat.mod_lt _ (by decide)⟩

/-- The loop of `attempt_slot` over the slots that are left, with the first free one it has seen. -/
def slotFrom (t : Table) (key : UInt32) :
    List (Fin updateSlots) → Option (Fin updateSlots) → Fin updateSlots
  | [], free => free.getD (sharedSlot key)
  | i :: slots, free =>
      if (t i).key = key then i
      else if t i = .empty ∧ free.isNone then slotFrom t key slots (some i)
      else slotFrom t key slots free

/-- The slot of a key: its own, otherwise a free one, otherwise the shared one. -/
def Table.attemptSlot (t : Table) (key : UInt32) : Fin updateSlots :=
  slotFrom t key (List.finRange updateSlots) none

/-- The attempts a word counts for a key. -/
def Slot.countFor (cur : Slot) (key : UInt32) : ℕ := if cur.key = key then cur.count else 0

namespace Table

variable (t : Table) (key : UInt32)

def updateAttemptsLeft : Bool :=
  (t (t.attemptSlot key)).key ≠ key || (t (t.attemptSlot key)).count < maxUpdateAttempts

/-- Count another automatic write, or report that the device has had its share. -/
def claimUpdateAttempt : Bool × Table :=
  let count := (t (t.attemptSlot key)).countFor key
  if maxUpdateAttempts ≤ count then (false, t)
  else (true, Function.update t (t.attemptSlot key) ⟨key, count + 1⟩)

def clearUpdateAttempts : Table :=
  if (t (t.attemptSlot key)).key = key then Function.update t (t.attemptSlot key) .empty else t

end Table

/-! ### Concurrent probes -/

/-- How far a probe of an update interface is. -/
inductive Probe where
  | idle
  /-- In `attempt_slot`, at a slot, with the first free one it has seen; `newer` says that the
  package is newer than what the dock reports. -/
  | scanning (newer : Bool) (key : UInt32) (i : ℕ) (free : Option (Fin updateSlots))
  /-- In `claim_update_attempt`, before the load. -/
  | claiming (key : UInt32) (slot : Fin updateSlots)
  /-- Before the compare-exchange. -/
  | swapping (key : UInt32) (slot : Fin updateSlots) (cur : Slot)
  /-- In `clear_update_attempts`, before the load. -/
  | clearing (key : UInt32) (slot : Fin updateSlots)
  | erasing (key : UInt32) (slot : Fin updateSlots) (cur : Slot)

structure State where
  updateAttempts : Table
  probe : ℕ → Probe
  /-- How often a device has been written since it was last seen to run what is offered. -/
  flashed : UInt32 → ℕ

def State.initial : State := ⟨.new, fun _ => .idle, fun _ => 0⟩

inductive Event where
  /-- A probe begins, of the device with this name. -/
  | probe (p : ℕ) (name : List UInt8) (newer : Bool)
  | step (p : ℕ)

namespace State

variable (s : State) (p : ℕ)

def setProbe (pr : Probe) : State := { s with probe := Function.update s.probe p pr }

def setSlot (slot : Fin updateSlots) (v : Slot) : State :=
  { s with updateAttempts := Function.update s.updateAttempts slot v }

/-- The write of a device begins. -/
def flash (key : UInt32) : State :=
  { s with flashed := Function.update s.flashed key (s.flashed key + 1) }

/-- The device runs what is offered. -/
def current (key : UInt32) : State := { s with flashed := Function.update s.flashed key 0 }

/-- The slot is found. -/
def found (newer : Bool) (key : UInt32) (slot : Fin updateSlots) : Probe :=
  if newer then .claiming key slot else .clearing key slot

/-- The next load or exchange of a probe. -/
def advance : State :=
  match s.probe p with
  | .idle => s
  | .scanning newer key i free =>
      if h : i < updateSlots then
        let v := s.updateAttempts ⟨i, h⟩
        if v.key = key then s.setProbe p (found newer key ⟨i, h⟩)
        else if v = .empty ∧ free.isNone then
          s.setProbe p (.scanning newer key (i + 1) (some ⟨i, h⟩))
        else s.setProbe p (.scanning newer key (i + 1) free)
      else s.setProbe p (found newer key (free.getD (sharedSlot key)))
  | .claiming key slot =>
      let cur := s.updateAttempts slot
      if maxUpdateAttempts ≤ cur.countFor key then s.setProbe p .idle
      else s.setProbe p (.swapping key slot cur)
  | .swapping key slot cur =>
      if s.updateAttempts slot = cur then
        ((s.setSlot slot ⟨key, cur.countFor key + 1⟩).flash key).setProbe p .idle
      else s.setProbe p (.claiming key slot)
  | .clearing key slot =>
      let cur := s.updateAttempts slot
      if cur.key = key then s.setProbe p (.erasing key slot cur)
      else (s.current key).setProbe p .idle
  | .erasing key slot cur =>
      if s.updateAttempts slot = cur then ((s.setSlot slot .empty).current key).setProbe p .idle
      else (s.current key).setProbe p .idle

end State

/-- One step of a probe. -/
def step (s : State) : Event → State
  | .probe p name newer =>
      match s.probe p with
      | .idle => s.setProbe p (.scanning newer (attemptKey name) 0 none)
      | _ => s
  | .step p => s.advance p

/-! ### A probe alone -/

/-- So many loads and exchanges of a probe. -/
def steps (p n : ℕ) : List Event := List.replicate n (.step p)

theorem run_steps_succ (s : State) (p n : ℕ) :
    run step s (steps p (n + 1)) = run step (s.advance p) (steps p n) := rfl

theorem run_steps_one (s : State) (p : ℕ) : run step s (steps p 1) = s.advance p := rfl

theorem run_steps_add (s : State) (p n m : ℕ) :
    run step s (steps p (n + m)) = run step (run step s (steps p n)) (steps p m) := by
  rw [steps, List.replicate_add, run_append]
  rfl

theorem setProbe_setProbe (s : State) (p : ℕ) (a b : Probe) :
    (s.setProbe p a).setProbe p b = s.setProbe p b := by
  simp [State.setProbe]

/-- Without interruption the loads of a probe are the loop of `attempt_slot`. -/
theorem scan_alone {newer : Bool} {key : UInt32} {p : ℕ} :
    ∀ (k i : ℕ) (free : Option (Fin updateSlots)) (s : State), i + k = updateSlots →
      s.probe p = .scanning newer key i free →
      ∃ n, run step s (steps p n) = s.setProbe p (State.found newer key
        (slotFrom s.updateAttempts key ((List.finRange updateSlots).drop i) free))
  | 0, i, free, s, hi, hprobe => by
    refine ⟨1, ?_⟩
    have hnot : ¬ i < updateSlots := by omega
    have hdrop : (List.finRange updateSlots).drop i = [] :=
      List.drop_eq_nil_of_le (by rw [List.length_finRange]; omega)
    rw [hdrop, run_steps_one]
    simp [State.advance, hprobe, hnot, slotFrom]
  | k + 1, i, free, s, hi, hprobe => by
    have hlt : i < updateSlots := by omega
    have hdrop : (List.finRange updateSlots).drop i =
        ⟨i, hlt⟩ :: (List.finRange updateSlots).drop (i + 1) := by
      rw [List.drop_eq_getElem_cons (by rw [List.length_finRange]; exact hlt)]
      simp
    have hnext : ∀ free', s.advance p = s.setProbe p (.scanning newer key (i + 1) free') →
        ∃ n, run step s (steps p n) = s.setProbe p (State.found newer key
          (slotFrom s.updateAttempts key ((List.finRange updateSlots).drop (i + 1)) free')) := by
      intro free' hadvance
      have hthere : (s.setProbe p (.scanning newer key (i + 1) free')).probe p =
          .scanning newer key (i + 1) free' := by simp [State.setProbe]
      obtain ⟨n, hn⟩ := scan_alone k (i + 1) free' _ (by omega) hthere
      refine ⟨n + 1, ?_⟩
      rw [run_steps_succ, hadvance, hn, setProbe_setProbe]
      rfl
    rw [hdrop, slotFrom]
    split
    · rename_i hkey
      refine ⟨1, ?_⟩
      rw [run_steps_one]
      simp [State.advance, hprobe, hlt, hkey]
    · rename_i hkey
      split
      · rename_i hfree
        refine hnext _ ?_
        simp only [State.advance, hprobe, hlt, hkey, if_pos hfree, dif_pos, if_false]
      · rename_i hfree
        refine hnext _ ?_
        simp only [State.advance, hprobe, hlt, hkey, hfree, dif_pos, if_false]

/-- **A probe that is not interrupted** claims an attempt as `claim_update_attempt` does, and writes
the dock if it gets one. -/
theorem claim_alone (s : State) (p : ℕ) (name : List UInt8) (hidle : s.probe p = .idle) :
    ∃ n, run step s (.probe p name true :: steps p n) =
      { (if (s.updateAttempts.claimUpdateAttempt (attemptKey name)).1 then
          s.flash (attemptKey name) else s).setProbe p .idle with
        updateAttempts := (s.updateAttempts.claimUpdateAttempt (attemptKey name)).2 } := by
  have hbegin : step s (.probe p name true) =
      s.setProbe p (.scanning true (attemptKey name) 0 none) := by
    simp [step, hidle]
  have hthere : (s.setProbe p (.scanning true (attemptKey name) 0 none)).probe p =
      .scanning true (attemptKey name) 0 none := by simp [State.setProbe]
  obtain ⟨n, hn⟩ := scan_alone updateSlots 0 none _ (by omega) hthere
  rw [setProbe_setProbe] at hn
  have hfound : run step s (.probe p name true :: steps p n) = s.setProbe p
      (.claiming (attemptKey name) (s.updateAttempts.attemptSlot (attemptKey name))) := by
    calc run step s (.probe p name true :: steps p n)
        = run step (step s (.probe p name true)) (steps p n) := rfl
      _ = _ := by rw [hbegin, hn]; rfl
  by_cases hspent : maxUpdateAttempts ≤
      (s.updateAttempts (s.updateAttempts.attemptSlot (attemptKey name))).countFor (attemptKey name)
  · refine ⟨n + 1, ?_⟩
    have hrun : run step s (.probe p name true :: steps p (n + 1)) =
        (run step s (.probe p name true :: steps p n)).advance p := run_steps_add ..
    rw [hrun, hfound]
    simp [State.advance, State.setProbe, hspent, Table.claimUpdateAttempt]
  · refine ⟨n + 2, ?_⟩
    have hrun : run step s (.probe p name true :: steps p (n + 2)) =
        ((run step s (.probe p name true :: steps p n)).advance p).advance p := run_steps_add ..
    rw [hrun, hfound]
    simp [State.advance, State.setProbe, State.setSlot, State.flash, hspent,
      Table.claimUpdateAttempt]

/-- An exchange writes an empty slot or the record of its own device, and no other slot has a record
of that device. -/
def Unshared (s : State) : Event → Prop
  | .step p =>
      match s.probe p with
      | .swapping key slot cur =>
          s.updateAttempts slot = cur →
            (cur = .empty ∨ cur.key = key) ∧
              ∀ j, j ≠ slot → s.updateAttempts j = .empty ∨ (s.updateAttempts j).key ≠ key
      | _ => True
  | _ => True

instance decidableUnshared (s : State) (e : Event) : Decidable (Unshared s e) := by
  unfold Unshared
  split
  · split <;> infer_instance
  · infer_instance

/-- A probe exchanges a count below the limit, and erases only its own record. -/
def Probe.Fine : Probe → Prop
  | swapping key _ cur => cur.countFor key < maxUpdateAttempts
  | erasing key _ cur => cur.key = key
  | _ => True

structure Inv (s : State) : Prop where
  counts : ∀ j, (s.updateAttempts j).count ≤ maxUpdateAttempts
  probes : ∀ p, (s.probe p).Fine
  /-- The writes of a device are recorded in some slot. -/
  recorded : ∀ key, s.flashed key = 0 ∨
    ∃ j, (s.updateAttempts j).key = key ∧ s.flashed key ≤ (s.updateAttempts j).count

variable {s : State}

theorem inv_initial : Inv .initial where
  counts _ := Nat.zero_le _
  probes _ := trivial
  recorded _ := .inl rfl

theorem Inv.setProbe (hs : Inv s) {p : ℕ} {pr : Probe} (hpr : pr.Fine) :
    Inv (s.setProbe p pr) := by
  refine ⟨hs.counts, fun q => ?_, hs.recorded⟩
  by_cases heq : q = p
  · subst heq
    simpa [State.setProbe] using hpr
  · simpa [State.setProbe, heq] using hs.probes q

theorem found_fine (newer : Bool) (key : UInt32) (slot : Fin updateSlots) :
    (State.found newer key slot).Fine := by
  cases newer <;> exact trivial

theorem Inv.current (hs : Inv s) (key : UInt32) : Inv (s.current key) := by
  refine ⟨hs.counts, hs.probes, fun key' => ?_⟩
  by_cases heq : key' = key
  · exact .inl (by simp [State.current, heq])
  · simpa [State.current, heq] using hs.recorded key'

/-- The record of a device is erased once the device runs what is offered. -/
theorem Inv.erase (hs : Inv s) {key : UInt32} {slot : Fin updateSlots}
    (hkey : (s.updateAttempts slot).key = key) : Inv ((s.setSlot slot .empty).current key) := by
  refine ⟨fun j => ?_, hs.probes, fun key' => ?_⟩
  · by_cases hj : j = slot
    · simp [State.current, State.setSlot, hj, Slot.empty]
    · simpa [State.current, State.setSlot, hj] using hs.counts j
  · by_cases heq : key' = key
    · exact .inl (by simp [State.current, heq])
    · rcases hs.recorded key' with hzero | ⟨j, hj, hle⟩
      · exact .inl (by simpa [State.current, State.setSlot, heq] using hzero)
      · have hne : j ≠ slot := by
          rintro rfl
          exact heq (hj.symm.trans hkey)
        exact .inr ⟨j, by simpa [State.current, State.setSlot, hne] using hj,
          by simpa [State.current, State.setSlot, heq, hne] using hle⟩

/-- A write is counted: every other device keeps its record. -/
theorem Inv.claim (hs : Inv s) {key : UInt32} {slot : Fin updateSlots}
    (hlt : (s.updateAttempts slot).countFor key < maxUpdateAttempts)
    (hown : s.updateAttempts slot = .empty ∨ (s.updateAttempts slot).key = key)
    (hother : ∀ j, j ≠ slot → s.updateAttempts j = .empty ∨ (s.updateAttempts j).key ≠ key) :
    Inv ((s.setSlot slot ⟨key, (s.updateAttempts slot).countFor key + 1⟩).flash key) := by
  refine ⟨fun j => ?_, hs.probes, fun key' => ?_⟩
  · by_cases hj : j = slot
    · subst hj
      simpa [State.flash, State.setSlot] using hlt
    · simpa [State.flash, State.setSlot, hj] using hs.counts j
  · by_cases heq : key' = key
    · subst heq
      refine .inr ⟨slot, by simp [State.flash, State.setSlot], ?_⟩
      -- what is recorded of the device is in this slot, or nothing is
      have hle : s.flashed key' ≤ (s.updateAttempts slot).countFor key' := by
        rcases hs.recorded key' with hzero | ⟨j, hj, hle⟩
        · omega
        · by_cases hne : j = slot
          · subst hne
            simpa [Slot.countFor, hj] using hle
          · rcases hother j hne with hempty | hkey
            · have hcount : (s.updateAttempts j).count = 0 := by rw [hempty]; rfl
              omega
            · exact absurd hj hkey
      simpa [State.flash, State.setSlot] using hle
    · rcases hs.recorded key' with hzero | ⟨j, hj, hle⟩
      · exact .inl (by simpa [State.flash, State.setSlot, heq] using hzero)
      · by_cases hne : j = slot
        · subst hne
          rcases hown with hempty | hkey
          · have hcount : (s.updateAttempts j).count = 0 := by rw [hempty]; rfl
            refine .inl ?_
            simp only [State.flash, State.setSlot, ne_eq, heq, not_false_eq_true,
              Function.update_of_ne]
            omega
          · exact absurd (hj.symm.trans hkey) heq
        · exact .inr ⟨j, by simpa [State.flash, State.setSlot, hne] using hj,
            by simpa [State.flash, State.setSlot, heq, hne] using hle⟩

theorem inv_advance (hs : Inv s) {p : ℕ} (hkept : Unshared s (.step p)) : Inv (s.advance p) := by
  have hfine := hs.probes p
  unfold State.advance
  split
  · exact hs
  · split
    · dsimp only
      split
      · exact hs.setProbe (found_fine ..)
      · split <;> exact hs.setProbe trivial
    · exact hs.setProbe (found_fine ..)
  · dsimp only
    split
    · exact hs.setProbe trivial
    · rename_i hlt
      exact hs.setProbe (not_le.mp hlt)
  · rename_i key slot cur hprobe
    split
    · rename_i heq
      subst heq
      rw [hprobe] at hfine
      simp only [Unshared, hprobe, true_implies] at hkept
      exact (hs.claim hfine hkept.1 hkept.2).setProbe trivial
    · exact hs.setProbe trivial
  · rename_i key slot hprobe
    dsimp only
    split
    · rename_i hkey
      exact hs.setProbe hkey
    · exact (hs.current key).setProbe trivial
  · rename_i key slot cur hprobe
    split
    · rename_i heq
      subst heq
      rw [hprobe] at hfine
      exact (hs.erase hfine).setProbe trivial
    · exact (hs.current key).setProbe trivial

theorem inv_step (s : State) (e : Event) (hs : Inv s) (hkept : Unshared s e) : Inv (step s e) := by
  cases e with
  | probe p name newer =>
    simp only [step]
    split
    · exact hs.setProbe trivial
    · exact hs
  | step p => exact inv_advance hs hkept

/-- **Automatic updates are bounded** as long as no record is overwritten or made twice: a dock that
keeps reporting the old version is written at most `MAX_UPDATE_ATTEMPTS` times. -/
theorem flashes_bounded (es : List Event) (hkept : Along Unshared step .initial es)
    (name : List UInt8) :
    (run step .initial es).flashed (attemptKey name) ≤ maxUpdateAttempts := by
  have hs := run_invariant (P := Inv) inv_step es .initial inv_initial hkept
  rcases hs.recorded (attemptKey name) with hzero | ⟨j, -, hle⟩
  · rw [hzero]
    exact Nat.zero_le _
  · exact hle.trans (hs.counts j)

/-- The update interface of a dock on a port of the first bus: "1-n:1.1". -/
def dfuName (port : UInt8) : List UInt8 := [0x31, 0x2d, 0x30 + port, 0x3a, 0x31, 0x2e, 0x31]

/-- A dock that is probed three times, alone. -/
def loneRun : List Event :=
  .probe 0 (dfuName 1) true :: steps 0 7 ++ .probe 0 (dfuName 1) true :: steps 0 3 ++
    .probe 0 (dfuName 1) true :: steps 0 2

theorem written_twice :
    (run step .initial loneRun).flashed (attemptKey (dfuName 1)) = 2 ∧ 2 ≤ maxUpdateAttempts := by
  have htwo : (run step .initial loneRun).flashed (attemptKey (dfuName 1)) = 2 := by
    decide +kernel
  refine ⟨htwo, ?_⟩
  rw [← htwo]
  exact flashes_bounded loneRun (by decide +kernel) (dfuName 1)

/-- Every probe finds a newer package, and the devices have keys of their own. -/
def AllNewer (es : List Event) : Prop :=
  ∀ e ∈ es, ∀ e' ∈ es,
    match e, e' with
    | .probe _ name newer, .probe _ name' _ =>
        newer = true ∧ (attemptKey name = attemptKey name' → name = name')
    | _, _ => True

instance decidableAllNewer (es : List Event) : Decidable (AllNewer es) := by
  unfold AllNewer
  refine @List.decidableBAll _ _ (fun e => @List.decidableBAll _ _ (fun e' => ?_) es) es
  split <;> infer_instance

/-- Two docks find the same free slot; the second overwrites the record of the first, which is then
probed twice more. -/
def racingRun : List Event :=
  .probe 0 (dfuName 1) true :: steps 0 5 ++ .probe 1 (dfuName 2) true :: steps 1 5 ++ steps 0 2 ++
    steps 1 2 ++ .probe 0 (dfuName 1) true :: steps 0 7 ++ .probe 0 (dfuName 1) true :: steps 0 4

/-- A dock is written a third time. -/
theorem third_flash :
    ¬ ∀ (es : List Event), AllNewer es → ∀ name : List UInt8,
      (run step .initial es).flashed (attemptKey name) ≤ maxUpdateAttempts := by
  intro hall
  have hbound := hall racingRun (by decide +kernel) (dfuName 1)
  exact absurd hbound (by decide +kernel)

end Vino.Firmware
