import Vino.Firmware.Attempts

/-!
# Standing Aside for an Update

The update interface of a dock is probed beside its display interface.  The one writes a newer
package as long as the device has attempts left; the other stands aside as long as such a write is
about to come.  Each asks the table of attempts under its own device name.

* `stands_aside_iff`: when the display interface stands aside only for a write that does happen, by
  what the probes before have met.
* `stands_aside_in_vain`: the attempts of the update interface are used up, and the display
  interface still stands aside.
-/

namespace Vino.Firmware

open Vino.Lib.Run

/-! ### The two functions -/

/-- What `update_if_newer` does with the dock. -/
inductive Update where
  /-- It is left on what it runs. -/
  | left
  | flash (image : List UInt8)
  deriving DecidableEq

section Probes

-- the firmware loader, which has a file for a name or has not
variable (loader : String → Option (List UInt8))

def updateIfNewer (t : Table) (dev : List UInt8) (identity : Identity) (force : Bool) :
    Update × Table :=
  match identity.firmwareName with
  | none => (.left, t)
  | some name =>
      match loader name with
      | none => (.left, t)
      | some fw =>
          if !isPackage fw then (.left, t)
          else if (packageFamily fw).isNone ∨ packageFamily fw ≠ identity.family then (.left, t)
          else
            match packageVersion fw with
            | none => (.left, t)
            | some packaged =>
                if packaged.le identity.version && !force then
                  (.left, t.clearUpdateAttempts (attemptKey dev))
                else if force then (.flash fw, t)
                else if (t.claimUpdateAttempt (attemptKey dev)).1 then
                  (.flash fw, (t.claimUpdateAttempt (attemptKey dev)).2)
                else (.left, (t.claimUpdateAttempt (attemptKey dev)).2)

/-- Whether the automatic check will write the device the next time it runs. -/
def updatePending (t : Table) (dev : List UInt8) (identity : Identity) (force : Bool) : Bool :=
  match identity.firmwareName with
  | none => false
  | some name =>
      match loader name with
      | none => false
      | some fw =>
          if !isPackage fw then false
          else if (packageFamily fw).isNone ∨ packageFamily fw ≠ identity.family then false
          else
            match packageVersion fw with
            | none => false
            | some packaged =>
                if packaged.le identity.version && !force then false
                else force || t.updateAttemptsLeft (attemptKey dev)

/-- The valid package there is for the family of a dock, and the version it installs. -/
def offered (identity : Identity) : Option (List UInt8 × Version) :=
  match identity.firmwareName.bind loader with
  | none => none
  | some fw =>
      if isPackage fw ∧ (packageFamily fw).isSome ∧ packageFamily fw = identity.family then
        (packageVersion fw).map fun packaged => (fw, packaged)
      else none

/-- A package for the dock is there and newer than what it reports. -/
def offersNewer (identity : Identity) : Bool :=
  (offered loader identity).any fun (_, packaged) => !packaged.le identity.version

/-- The attempts the table has recorded for a device. -/
def Table.recorded (t : Table) (dev : List UInt8) : ℕ :=
  (t (t.attemptSlot (attemptKey dev))).countFor (attemptKey dev)

/-- Without a package for its family a dock is left alone, uncounted. -/
theorem updateIfNewer_eq (t : Table) (dev : List UInt8) (identity : Identity) (force : Bool) :
    updateIfNewer loader t dev identity force =
      match offered loader identity with
      | none => (.left, t)
      | some (fw, packaged) =>
          if packaged.le identity.version && !force then
            (.left, t.clearUpdateAttempts (attemptKey dev))
          else if force then (.flash fw, t)
          else if (t.claimUpdateAttempt (attemptKey dev)).1 then
            (.flash fw, (t.claimUpdateAttempt (attemptKey dev)).2)
          else (.left, (t.claimUpdateAttempt (attemptKey dev)).2) := by
  unfold updateIfNewer offered
  cases identity.firmwareName with
  | none => rfl
  | some name =>
    cases hfw : loader name with
    | none => simp [hfw]
    | some fw =>
      cases hfamily : packageFamily fw with
      | none => simp [hfw, hfamily]
      | some family =>
        cases hversion : packageVersion fw with
        | none => simp [hfw, hversion]
        | some packaged =>
          by_cases hpackage : isPackage fw = true
          · by_cases hsame : some family = identity.family
            · simp [hfw, hfamily, hversion, hpackage, ← hsame]
            · simp [hfw, hfamily, hpackage, hsame]
          · simp [hfw, hpackage]

theorem updatePending_eq (t : Table) (dev : List UInt8) (identity : Identity) (force : Bool) :
    updatePending loader t dev identity force =
      match offered loader identity with
      | none => false
      | some (_, packaged) =>
          if packaged.le identity.version && !force then false
          else force || t.updateAttemptsLeft (attemptKey dev) := by
  unfold updatePending offered
  cases identity.firmwareName with
  | none => rfl
  | some name =>
    cases hfw : loader name with
    | none => simp [hfw]
    | some fw =>
      cases hfamily : packageFamily fw with
      | none => simp [hfw, hfamily]
      | some family =>
        cases hversion : packageVersion fw with
        | none => simp [hfw, hversion]
        | some packaged =>
          by_cases hpackage : isPackage fw = true
          · by_cases hsame : some family = identity.family
            · simp [hfw, hfamily, hversion, hpackage, ← hsame]
            · simp [hfw, hfamily, hpackage, hsame]
          · simp [hfw, hpackage]

theorem claimUpdateAttempt_iff (t : Table) (dev : List UInt8) :
    (t.claimUpdateAttempt (attemptKey dev)).1 = true ↔ t.recorded dev < maxUpdateAttempts := by
  simp only [Table.claimUpdateAttempt, Table.recorded]
  split
  · rename_i hle
    simpa using hle
  · rename_i hlt
    simpa using hlt

theorem updateAttemptsLeft_iff (t : Table) (dev : List UInt8) :
    t.updateAttemptsLeft (attemptKey dev) = true ↔ t.recorded dev < maxUpdateAttempts := by
  simp only [Table.updateAttemptsLeft, Table.recorded, Slot.countFor, Bool.or_eq_true,
    decide_eq_true_eq]
  split
  · rename_i heq
    simp [heq]
  · rename_i hne
    simp [hne, maxUpdateAttempts]

/-- The display interface asks for its own attempts. -/
theorem updatePending_iff (t : Table) (dev : List UInt8) (identity : Identity) :
    updatePending loader t dev identity false = true ↔
      offersNewer loader identity = true ∧ t.recorded dev < maxUpdateAttempts := by
  rw [← updateAttemptsLeft_iff, updatePending_eq, offersNewer]
  cases offered loader identity with
  | none => simp
  | some package => cases hle : package.2.le identity.version <;> simp [hle]

/-- The update interface writes the dock if the table has attempts left for it. -/
theorem updateIfNewer_iff (t : Table) (dev : List UInt8) (identity : Identity) :
    (∃ image, (updateIfNewer loader t dev identity false).1 = .flash image) ↔
      offersNewer loader identity = true ∧ t.recorded dev < maxUpdateAttempts := by
  rw [← claimUpdateAttempt_iff, updateIfNewer_eq, offersNewer]
  cases offered loader identity with
  | none => simp
  | some package =>
    cases hle : package.2.le identity.version
    · cases (t.claimUpdateAttempt (attemptKey dev)).1 <;> simp [hle]
    · simp [hle]

/-! ### Probes in any order -/

/-- The functions of a dock the driver binds to. -/
inductive Interface where
  | dfu
  | display
  deriving DecidableEq

/-- One probe: of which function, under which device name, and what the dock reports then. -/
structure Visit where
  interface : Interface
  dev : List UInt8
  identity : Option Identity
  force : Bool

/-- What a probe leaves of the table. -/
def visit (t : Table) (v : Visit) : Table :=
  match v.interface, v.identity with
  | .dfu, some identity => (updateIfNewer loader t v.dev identity v.force).2
  | _, _ => t

/-- The count of a key after a probe.  It follows the claims, granted or not. -/
def tried (key : UInt32) (n : ℕ) (v : Visit) : ℕ :=
  match v.interface, v.identity with
  | .dfu, some identity =>
      if attemptKey v.dev ≠ key ∨ v.force then n
      else
        match offered loader identity with
        | none => n
        | some (_, packaged) => if packaged.le identity.version then 0 else n + 1
  | _, _ => n

/-- How often an update interface of this key has met a newer package, not forced to it, since one
last found its dock to run what is offered. -/
def tries (key : UInt32) (visits : List Visit) : ℕ := run (tried loader key) 0 visits

/-- The display interface stands aside only for a write of the update interface, and is accepted
once that has no attempts left. -/
def StandsAside (t : Table) (display dfu : List UInt8) (identity : Identity) : Prop :=
  (updatePending loader t display identity false = true →
      ∃ image, (updateIfNewer loader t dfu identity false).1 = .flash image) ∧
    (maxUpdateAttempts ≤ t.recorded dfu → updatePending loader t display identity false = false)

/-- The two interfaces count as one, or there is nothing newer, or the update interface has not met
it often enough to be refused. -/
def Warranted (visits : List Visit) (display dfu : List UInt8) (identity : Identity) : Prop :=
  attemptKey display = attemptKey dfu ∨ offersNewer loader identity = false ∨
    tries loader (attemptKey dfu) visits < maxUpdateAttempts

/-- One probe is a step of the count. -/
theorem visit_eq (t : Table) (v : Visit) :
    visit loader t v =
      match v.interface, v.identity with
      | .dfu, some identity =>
          match offered loader identity with
          | none => t
          | some (_, packaged) =>
              if v.force then t
              else if packaged.le identity.version then t.clearUpdateAttempts (attemptKey v.dev)
              else (t.claimUpdateAttempt (attemptKey v.dev)).2
      | _, _ => t := by
  obtain ⟨interface, dev, identity, force⟩ := v
  cases interface with
  | display => rfl
  | dfu =>
    cases identity with
    | none => rfl
    | some identity =>
      simp only [visit, updateIfNewer_eq]
      cases offered loader identity with
      | none => rfl
      | some package =>
        cases hle : package.2.le identity.version <;> cases force <;> simp only [hle] <;>
          cases (t.claimUpdateAttempt (attemptKey dev)).1 <;> rfl

/-! ### The records of any docks -/

/-- A slot that has the key is found. -/
theorem slotFrom_own {t : Table} {key : UInt32} {j : Fin updateSlots}
    (hsole : ∀ i, (t i).key = key → i = j) (hkey : (t j).key = key) :
    ∀ (slots : List (Fin updateSlots)) (free : Option (Fin updateSlots)), j ∈ slots →
      slotFrom t key slots free = j
  | i :: slots, free, hj => by
    by_cases hi : (t i).key = key
    · simpa [slotFrom, hi] using hsole i hi
    · have hrest : j ∈ slots := by
        rcases List.mem_cons.mp hj with rfl | hrest
        · exact absurd hkey hi
        · exact hrest
      rw [slotFrom, if_neg hi]
      split <;> exact slotFrom_own hsole hkey slots _ hrest

/-- One slot at most has the key, with a count of at most this. -/
structure Counted (key : UInt32) (t : Table) (n : ℕ) : Prop where
  sole : ∀ i j, (t i).key = key → (t j).key = key → i = j
  le : ∀ j, (t j).key = key → (t j).count ≤ n

variable {loader} {t : Table} {key other : UInt32} {n : ℕ}

theorem Counted.attemptSlot (ht : Counted key t n) {j : Fin updateSlots} (hj : (t j).key = key) :
    t.attemptSlot key = j :=
  slotFrom_own (fun i hi => ht.sole i j hi hj) hj _ _ (List.mem_finRange j)

theorem Counted.countFor (ht : Counted key t n) (j : Fin updateSlots) :
    (t j).countFor key ≤ n := by
  unfold Slot.countFor
  split
  · rename_i hj
    exact ht.le j hj
  · exact Nat.zero_le n

/-- A record of another key, or none, is put in a slot. -/
theorem Counted.put_other (ht : Counted key t n) (slot : Fin updateSlots) {v : Slot}
    (hv : v.key ≠ key) : Counted key (Function.update t slot v) n := by
  have hold : ∀ i, (Function.update t slot v i).key = key → (t i).key = key ∧
      Function.update t slot v i = t i := by
    intro i hi
    by_cases heq : i = slot
    · subst heq
      exact absurd (by simpa using hi) hv
    · exact ⟨by simpa [heq] using hi, by simp [heq]⟩
  refine ⟨fun i j hi hj => ht.sole i j (hold i hi).1 (hold j hj).1, fun j hj => ?_⟩
  rw [(hold j hj).2]
  exact ht.le j (hold j hj).1

/-- A record of the key is put in its slot. -/
theorem Counted.put_own (ht : Counted key t n) {m : ℕ} (hm : m ≤ n + 1) :
    Counted key (Function.update t (t.attemptSlot key) ⟨key, m⟩) (n + 1) := by
  have hslot : ∀ i, (Function.update t (t.attemptSlot key) ⟨key, m⟩ i).key = key →
      i = t.attemptSlot key := by
    intro i hi
    by_contra hne
    exact hne (ht.attemptSlot (by simpa [hne] using hi)).symm
  refine ⟨fun i j hi hj => (hslot i hi).trans (hslot j hj).symm, fun j hj => ?_⟩
  rw [hslot j hj]
  simpa using hm

theorem Counted.claim (ht : Counted key t n) :
    Counted key (t.claimUpdateAttempt key).2 (n + 1) := by
  unfold Table.claimUpdateAttempt
  dsimp only
  split
  · exact ⟨ht.sole, fun j hj => (ht.le j hj).trans (Nat.le_succ n)⟩
  · exact ht.put_own (Nat.succ_le_succ (ht.countFor _))

theorem Counted.claim_other (ht : Counted key t n) (hother : other ≠ key) :
    Counted key (t.claimUpdateAttempt other).2 n := by
  unfold Table.claimUpdateAttempt
  dsimp only
  split
  · exact ht
  · exact ht.put_other _ hother

theorem Counted.clear_other (ht : Counted key t n) (hkey : key ≠ 0) :
    Counted key (t.clearUpdateAttempts other) n := by
  unfold Table.clearUpdateAttempts
  split
  · exact ht.put_other _ hkey.symm
  · exact ht

/-- A key that is cleared is in no slot. -/
theorem Counted.clear (ht : Counted key t n) (hkey : key ≠ 0) :
    Counted key (t.clearUpdateAttempts key) 0 := by
  refine ⟨(ht.clear_other hkey).sole, fun j hj => absurd hj ?_⟩
  unfold Table.clearUpdateAttempts
  split
  · by_cases heq : j = t.attemptSlot key
    · simpa [heq, Slot.empty] using hkey.symm
    · intro hj
      exact heq (ht.attemptSlot (by simpa [heq] using hj)).symm
  · rename_i hslot
    intro hj
    exact hslot (by rwa [ht.attemptSlot hj])

/-- A probe counts for its own key only. -/
theorem Counted.visit (hkey : key ≠ 0) (v : Visit) (ht : Counted key t n) :
    Counted key (visit loader t v) (tried loader key n v) := by
  rw [visit_eq, tried]
  split
  · split
    · rw [ite_self]
      exact ht
    · by_cases hother : attemptKey v.dev = key
      · cases v.force with
        | true => simpa using ht
        | false =>
          simp only [hother, ne_eq, not_true_eq_false, Bool.false_eq_true, or_self, if_false]
          split
          · exact ht.clear hkey
          · exact ht.claim
      · simp only [ne_eq, hother, not_false_eq_true, true_or, if_true]
        split
        · exact ht
        · split
          · exact ht.clear_other hkey
          · exact ht.claim_other hother
  · exact ht

/-- Behind any probes of any docks the table has recorded no more than they tried. -/
theorem recorded_le (visits : List Visit) (dev : List UInt8) (hkey : attemptKey dev ≠ 0) :
    (run (visit loader) .new visits).recorded dev ≤ tries loader (attemptKey dev) visits := by
  have hnew : Counted (attemptKey dev) .new 0 :=
    ⟨fun i _ hi => absurd hi.symm hkey, fun j hj => absurd hj.symm hkey⟩
  have hrun : Counted (attemptKey dev) (run (visit loader) .new visits)
      (tries loader (attemptKey dev) visits) :=
    List.foldl_rel hnew fun v _ _ _ ht => ht.visit hkey v
  exact hrun.countFor _

/-! ### The records of one dock -/

def firstSlot : Fin updateSlots := ⟨0, by decide⟩

/-- The table in which only this key has been counted. -/
def held (key : UInt32) (c : ℕ) : Table :=
  if c = 0 then Table.new else Function.update Table.new firstSlot ⟨key, c⟩

theorem held_zero (key : UInt32) : held key 0 = Table.new := rfl

theorem held_pos {c : ℕ} (hc : c ≠ 0) : held key c =
    Function.update Table.new firstSlot ⟨key, c⟩ := if_neg hc

/-- The first free slot is kept if the key is in no other. -/
theorem slotFrom_free {i : Fin updateSlots} (hnone : ∀ j, (t j).key ≠ key) :
    ∀ slots : List (Fin updateSlots), slotFrom t key slots (some i) = i
  | [] => rfl
  | j :: slots => by
    have hrest := slotFrom_free (i := i) hnone slots
    simp [slotFrom, hnone j, hrest]

theorem attemptSlot_held (key : UInt32) (c : ℕ) : (held key c).attemptSlot key = firstSlot := by
  have hslots : List.finRange updateSlots = firstSlot :: (List.finRange updateSlots).tail := rfl
  rw [Table.attemptSlot, hslots, slotFrom]
  split
  · rfl
  · rename_i hfirst
    have hc : c = 0 := by
      by_contra hc
      exact hfirst (by simp [held_pos hc])
    subst hc
    rw [held_zero] at hfirst ⊢
    rw [if_pos ⟨rfl, rfl⟩]
    exact slotFrom_free (fun _ => hfirst) _

theorem countFor_held (key : UInt32) (c : ℕ) : (held key c firstSlot).countFor key = c := by
  by_cases hc : c = 0
  · subst hc
    exact ite_self 0
  · simp [held_pos hc, Slot.countFor]

theorem countFor_held_other (hother : other ≠ key) (c : ℕ) (j : Fin updateSlots) :
    (held key c j).countFor other = 0 := by
  by_cases hc : c = 0
  · subst hc
    exact ite_self 0
  · by_cases hj : j = firstSlot
    · simp [held_pos hc, hj, Slot.countFor, hother.symm]
    · simp [held_pos hc, hj, Table.new, Slot.empty, Slot.countFor]

theorem claim_held (key : UInt32) (n : ℕ) :
    ((held key (min n maxUpdateAttempts)).claimUpdateAttempt key).2 =
      held key (min (n + 1) maxUpdateAttempts) := by
  simp only [Table.claimUpdateAttempt, attemptSlot_held, countFor_held]
  split
  · rename_i hspent
    have hcount : min (n + 1) maxUpdateAttempts = min n maxUpdateAttempts := by omega
    rw [hcount]
  · rename_i hleft
    have hcount : min (n + 1) maxUpdateAttempts = min n maxUpdateAttempts + 1 := by omega
    rw [hcount, held_pos (Nat.succ_ne_zero _), held]
    split
    · rfl
    · rw [Function.update_idem]

theorem clear_held (key : UInt32) (c : ℕ) :
    (held key c).clearUpdateAttempts key = held key 0 := by
  have hempty : Function.update Table.new firstSlot Slot.empty = Table.new :=
    Function.update_eq_self firstSlot _
  rw [Table.clearUpdateAttempts, attemptSlot_held]
  by_cases hc : c = 0
  · subst hc
    rw [held_zero, hempty, ite_self]
  · simpa [held_pos hc, held_zero] using hempty

/-- The probes of one dock leave its count in the table, up to the limit. -/
theorem run_held (visits : List Visit) (dfu : List UInt8)
    (hone : ∀ v ∈ visits, v.interface = .dfu → v.dev = dfu) :
    run (visit loader) .new visits =
      held (attemptKey dfu) (min (tries loader (attemptKey dfu) visits) maxUpdateAttempts) := by
  refine List.foldl_rel (r := fun t n => t = held (attemptKey dfu) (min n maxUpdateAttempts))
    rfl fun v hv t n ht => ?_
  subst ht
  rw [visit_eq, tried]
  split
  · rename_i identity hinterface _
    have hdev : v.dev = dfu := hone v hv hinterface
    cases offered loader identity with
    | none => rw [ite_self]
    | some package =>
      cases hforce : v.force with
      | true => simp
      | false =>
        cases hle : package.2.le identity.version with
        | true => simpa [hdev, hle] using clear_held ..
        | false => simpa [hdev, hle] using claim_held ..
  · rfl

theorem recorded_own (visits : List Visit) (dfu : List UInt8)
    (hone : ∀ v ∈ visits, v.interface = .dfu → v.dev = dfu) :
    (run (visit loader) .new visits).recorded dfu =
      min (tries loader (attemptKey dfu) visits) maxUpdateAttempts := by
  rw [run_held visits dfu hone, Table.recorded, attemptSlot_held, countFor_held]

/-- Nothing is ever counted under the name of the display interface. -/
theorem recorded_display (visits : List Visit) (display dfu : List UInt8)
    (hone : ∀ v ∈ visits, v.interface = .dfu → v.dev = dfu)
    (hkeys : attemptKey display ≠ attemptKey dfu) :
    (run (visit loader) .new visits).recorded display = 0 := by
  rw [run_held visits dfu hone, Table.recorded]
  exact countFor_held_other hkeys ..

/-! ### Standing aside -/

/-- In any table the display interface stands aside rightly if and only if the update interface has
attempts left whenever it has them itself. -/
theorem standsAside_iff_recorded (t : Table) (display dfu : List UInt8) (identity : Identity) :
    StandsAside loader t display dfu identity ↔
      (offersNewer loader identity = true → t.recorded display < maxUpdateAttempts →
        t.recorded dfu < maxUpdateAttempts) := by
  simp only [StandsAside, updateIfNewer_iff, ← Bool.not_eq_true, updatePending_iff]
  constructor
  · rintro ⟨hflash, -⟩ hoffer hleft
    exact (hflash ⟨hoffer, hleft⟩).2
  · intro h
    refine ⟨fun ⟨hoffer, hleft⟩ => ⟨hoffer, h hoffer hleft⟩, fun hspent ⟨hoffer, hleft⟩ => ?_⟩
    exact absurd (h hoffer hleft) (not_lt.mpr hspent)

theorem Warranted.standsAside {visits : List Visit} {display dfu : List UInt8}
    {identity : Identity} (hkey : attemptKey dfu ≠ 0)
    (h : Warranted loader visits display dfu identity) :
    StandsAside loader (run (visit loader) .new visits) display dfu identity := by
  rw [standsAside_iff_recorded]
  intro hoffer hleft
  rcases h with hsame | hnone | htries
  · rwa [Table.recorded, hsame] at hleft
  · rw [hoffer] at hnone
    exact absurd hnone nofun
  · exact (recorded_le visits dfu hkey).trans_lt htries

/-- **Standing aside.**  Behind any probes of any docks, the display interface stands aside only for
a write that does happen if the update interface has not met a newer package too often; behind the
probes of one dock, only if. -/
theorem stands_aside_iff (visits : List Visit) (display dfu : List UInt8) (identity : Identity) :
    let t := run (visit loader) .new visits
    (attemptKey dfu ≠ 0 → Warranted loader visits display dfu identity →
        StandsAside loader t display dfu identity) ∧
      ((∀ v ∈ visits, v.interface = .dfu → v.dev = dfu) →
        (StandsAside loader t display dfu identity ↔
          Warranted loader visits display dfu identity)) := by
  intro t
  refine ⟨fun hkey h => h.standsAside hkey, fun hone => ?_⟩
  rw [standsAside_iff_recorded, recorded_own visits dfu hone]
  by_cases hkeys : attemptKey display = attemptKey dfu
  · have hsame : t.recorded display = t.recorded dfu := by rw [Table.recorded, hkeys]; rfl
    rw [hsame, recorded_own visits dfu hone]
    exact iff_of_true (fun _ hleft => hleft) (.inl hkeys)
  · rw [recorded_display visits display dfu hone hkeys, Warranted, ← Bool.not_eq_true]
    have hlimit : 0 < maxUpdateAttempts := by decide
    simp only [hkeys, false_or, hlimit, true_implies, min_lt_iff, lt_irrefl, or_false]
    exact imp_iff_not_or

end Probes

/-- The display interface of a dock on a port of the first bus: "1-n:1.0". -/
def displayName (port : UInt8) : List UInt8 := [0x31, 0x2d, 0x30 + port, 0x3a, 0x31, 0x2e, 0x30]

/-- A dock called "NavaDock" that runs 1.0.0. -/
def oldDock : Identity := ⟨⟨1, 0, 0⟩, ⟨[0x4e, 0x61, 0x76, 0x61, 0x44, 0x6f, 0x63, 0x6b], rfl⟩⟩

/-- A package for it that installs 2.0.0. -/
def newPackage : List UInt8 :=
  [0x45, 0x4c, 0x4c, 0x41, 0x52, 0x44, 8, 0, 0x4e, 0x61, 0x76, 0x61, 0x44, 0x6f, 0x63, 0x6b, 0x56,
    0x45, 3, 0, 2, 0, 0]

/-- After one write that did not take, both interfaces expect the second. -/
theorem stands_aside_once :
    StandsAside (fun _ => some newPackage) (run (visit fun _ => some newPackage) .new
      [⟨.dfu, dfuName 1, some oldDock, false⟩, ⟨.display, displayName 1, some oldDock, false⟩])
      (displayName 1) (dfuName 1) oldDock :=
  (stands_aside_iff _ _ _ _).1 (by decide) (.inr (.inr (by decide +kernel)))

/-- The dock never takes the update: behind two writes the update interface leaves it alone, and the
display interface goes on standing aside. -/
theorem stands_aside_in_vain :
    ¬ ∀ (loader : String → Option (List UInt8)) (visits : List Visit) (display dfu : List UInt8)
      (identity : Identity),
      StandsAside loader (run (visit loader) .new visits) display dfu identity := by
  intro hall
  have haside := hall (fun _ => some newPackage)
    [⟨.dfu, dfuName 1, some oldDock, false⟩, ⟨.display, displayName 1, some oldDock, false⟩,
      ⟨.dfu, dfuName 1, some oldDock, false⟩] (displayName 1) (dfuName 1) oldDock
  exact absurd (haside.2 (by decide +kernel)) (by decide +kernel)

end Vino.Firmware
