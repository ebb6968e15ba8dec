import Vino.Lib.Run

/-!
# The Card Registry

Cards are created for USB devices by writes to `add`, and torn down when their device is removed.
Adding a card is not one critical section: the device is looked up, a platform device is registered,
and only then is the card inserted under the registry lock.  Removals run from the USB notifier in
between.

* `removeUsb_eq`: a removal takes exactly the cards of its device, and its array suffices,
* `cards_follow_removal`: the registry never exceeds its limit, and no card outlives its device, in
  every run in which no card is inserted behind the removal of its device,
* `card_outlives_device`: such an insertion leaves a card behind.
-/

namespace Vino.Evdi.Registry

open Vino.Lib.Run

/-! ### Addresses -/

def maxUsbAddr : ℕ := 8

def maxCards : ℕ := 16

/-- The place of a USB device: its bus, and the ports down to it. -/
structure UsbPath where
  bus : ℕ
  ports : List ℕ
  deriving DecidableEq, Repr

def UsbPath.addr (p : UsbPath) : List ℕ := p.bus :: p.ports

/-- A decimal number of 32 bits, with an optional plus sign. -/
def parseU32 (s : List Char) : Option ℕ :=
  let digits := match s with
    | '+' :: rest => rest
    | s => s
  if digits ≠ [] ∧ digits.all Char.isDigit then
    let v := digits.foldl (fun n c => 10 * n + (c.toNat - 48)) 0
    if v < 2 ^ 32 then some v else none
  else none

/-- Cut at the first dash. -/
def splitOnce (token : List Char) : Option (List Char × List Char) :=
  match token.span (· != '-') with
  | (bus, '-' :: ports) => some (bus, ports)
  | _ => none

/-- The address in a token such as `2-1.1`. -/
def parseToken (token : List Char) : Option UsbPath := do
  let (bus, ports) ← splitOnce token
  if '-' ∈ ports then none
  else do
    let bus ← parseU32 bus
    let ports ← (ports.splitOn '.').mapM parseU32
    if ports.length < maxUsbAddr then some ⟨bus, ports⟩ else none

/-! ### The registry -/

/-- A card, with the address of its USB device; a generic card has none. -/
structure CardEntry where
  usbAddr : List ℕ
  deriving DecidableEq, Repr

/-- Take the cards of an address out of the list, into an array of `maxCards`.  `kept` has been
looked at already. -/
def removeLoop (addr : List ℕ) (kept rest dropped : List CardEntry) :
    Option (List CardEntry × List CardEntry) :=
  match rest with
  | [] => some (kept, dropped)
  | card :: rest =>
      if card.usbAddr = addr then
        if dropped.length < maxCards then removeLoop addr kept rest (dropped ++ [card]) else none
      else removeLoop addr (kept ++ [card]) rest dropped

/-- What a removal keeps and what it drops; `none` is an index outside of the array. -/
def removeUsb (p : UsbPath) (devices : List CardEntry) :
    Option (List CardEntry × List CardEntry) :=
  removeLoop p.addr [] devices []

/-- A card that is being added. -/
inductive Adding where
  | found (p : UsbPath)
  | registered (p : UsbPath)
  deriving DecidableEq, Repr

structure State where
  devices : List CardEntry
  /-- A USB device is plugged in at the path. -/
  present : UsbPath → Bool
  /-- The device at the path is gone, and its removal has not been notified yet. -/
  leaving : UsbPath → Bool
  adding : ℕ → Option Adding

def State.initial (present : UsbPath → Bool) : State :=
  ⟨[], present, fun _ => false, fun _ => none⟩

inductive Event where
  | plug (p : UsbPath)
  | unplug (p : UsbPath)
  /-- The notifier runs `remove_usb`. -/
  | removeUsb (p : UsbPath)
  /-- A write to `add` parses its token and looks the device up. -/
  | find (id : ℕ) (token : List Char)
  /-- It registers the platform device, or fails. -/
  | register (id : ℕ) (ok : Bool)
  /-- It locks the registry, checks the limit and inserts the card. -/
  | insert (id : ℕ)
  /-- A write of a number to `add`, of whose registrations the first `made` succeed. -/
  | addGeneric (count made : ℕ)
  | removeAll

def step (s : State) : Event → State
  | .plug p =>
      if s.leaving p then s else { s with present := Function.update s.present p true }
  | .unplug p =>
      if s.present p then
        { s with
          present := Function.update s.present p false
          leaving := Function.update s.leaving p true }
      else s
  | .removeUsb p =>
      if s.leaving p then
        match removeUsb p s.devices with
        | none => s
        | some (kept, _) =>
            { s with devices := kept, leaving := Function.update s.leaving p false }
      else s
  | .find id token =>
      match s.adding id, parseToken token with
      | none, some p =>
          if s.present p then { s with adding := Function.update s.adding id (some (.found p)) }
          else s
      | _, _ => s
  | .register id ok =>
      match s.adding id with
      | some (.found p) =>
          { s with
            adding := Function.update s.adding id (if ok then some (.registered p) else none) }
      | _ => s
  | .insert id =>
      match s.adding id with
      | some (.registered p) =>
          { s with
            devices := if s.devices.length < maxCards then s.devices ++ [⟨p.addr⟩] else s.devices
            adding := Function.update s.adding id none }
      | _ => s
  | .addGeneric count made =>
      if count ≤ maxCards ∧ s.devices.length + count ≤ maxCards then
        { s with devices := s.devices ++ List.replicate (min made count) ⟨[]⟩ }
      else s
  | .removeAll => { s with devices := [] }

/-! ### Removals -/

theorem removeLoop_eq (addr : List ℕ) (kept rest dropped : List CardEntry)
    (hroom : dropped.length + rest.length ≤ maxCards) :
    removeLoop addr kept rest dropped =
      some (kept ++ rest.filter (·.usbAddr ≠ addr), dropped ++ rest.filter (·.usbAddr = addr)) := by
  induction rest generalizing kept dropped with
  | nil => simp [removeLoop]
  | cons card rest ih =>
      have hlength : dropped.length + (rest.length + 1) ≤ maxCards := hroom
      unfold removeLoop
      by_cases hcard : card.usbAddr = addr
      · rw [if_pos hcard, if_pos (by omega), ih kept (dropped ++ [card]) (by simp; omega)]
        simp [hcard]
      · rw [if_neg hcard, ih (kept ++ [card]) dropped (by omega)]
        simp [hcard]

/-- **A removal takes exactly the cards of its device**, and never indexes past its array. -/
theorem removeUsb_eq (p : UsbPath) {devices : List CardEntry}
    (hlength : devices.length ≤ maxCards) :
    removeUsb p devices =
      some (devices.filter (·.usbAddr ≠ p.addr), devices.filter (·.usbAddr = p.addr)) := by
  rw [removeUsb, removeLoop_eq _ _ _ _ (by simpa using hlength)]
  simp

/-! ### The limit -/

theorem length_step (s : State) (e : Event) (h : s.devices.length ≤ maxCards) :
    (step s e).devices.length ≤ maxCards := by
  cases e with
  | plug p => simp only [step]; split_ifs <;> exact h
  | unplug p => simp only [step]; split_ifs <;> exact h
  | removeUsb p =>
      simp only [step, removeUsb_eq p h]
      split_ifs
      · exact (List.length_filter_le _ _).trans h
      · exact h
  | find id token =>
      simp only [step]
      split
      · split_ifs <;> exact h
      · exact h
  | register id ok => simp only [step]; split <;> exact h
  | insert id =>
      simp only [step]
      split
      · dsimp only
        split_ifs with hroom
        · rw [List.length_append]
          exact hroom
        · exact h
      · exact h
  | addGeneric count made =>
      simp only [step]
      split_ifs with hroom
      · rw [List.length_append, List.length_replicate]
        omega
      · exact h
  | removeAll => exact Nat.zero_le _

theorem length_run (s : State) (es : List Event) (h : s.devices.length ≤ maxCards) :
    (run step s es).devices.length ≤ maxCards :=
  run_invariant (C := fun _ _ => True) (P := fun s => s.devices.length ≤ maxCards)
    (fun s e h _ => length_step s e h) es s h
    (along_of_forall (D := fun _ => True) _ _ fun _ _ => trivial)

/-! ### Cards follow their devices -/

/-- A card is inserted only while its device is plugged in, or while its removal is still to be
notified. -/
def Event.Attached (s : State) : Event → Prop
  | .insert id => ∀ p, s.adding id = some (.registered p) → s.devices.length < maxCards →
      s.present p = true ∨ s.leaving p = true
  | _ => True

/-- Every write and every removal has finished. -/
def State.Finished (s : State) : Prop := (∀ id, s.adding id = none) ∧ ∀ p, s.leaving p = false

/-- No card outlives its device and the notification of its removal. -/
structure Inv (s : State) : Prop where
  length : s.devices.length ≤ maxCards
  attached : ∀ card ∈ s.devices, ∀ p : UsbPath, card.usbAddr = p.addr →
    s.present p = true ∨ s.leaving p = true

theorem addr_injective : Function.Injective UsbPath.addr := by
  rintro ⟨bus, ports⟩ ⟨bus', ports'⟩ h
  obtain ⟨rfl, rfl⟩ := List.cons.inj h
  rfl

theorem inv_step {s : State} (h : Inv s) {e : Event} (hattached : e.Attached s) :
    Inv (step s e) := by
  refine ⟨length_step s e h.length, ?_⟩
  cases e with
  | plug p =>
      simp only [step]
      split_ifs
      · exact h.attached
      · intro card hcard p' hp'
        by_cases hsame : p' = p
        · subst hsame
          exact .inl (Function.update_self ..)
        · simpa only [Function.update_of_ne hsame] using h.attached card hcard p' hp'
  | unplug p =>
      simp only [step]
      split_ifs
      · intro card hcard p' hp'
        by_cases hsame : p' = p
        · subst hsame
          exact .inr (Function.update_self ..)
        · simpa only [Function.update_of_ne hsame] using h.attached card hcard p' hp'
      · exact h.attached
  | removeUsb p =>
      simp only [step, removeUsb_eq p h.length]
      split_ifs
      · intro card hcard p' hp'
        obtain ⟨hmem, hkept⟩ := List.mem_filter.1 hcard
        have hother : p' ≠ p := by
          rintro rfl
          simp [hp'] at hkept
        simpa only [Function.update_of_ne hother] using h.attached card hmem p' hp'
      · exact h.attached
  | find id token =>
      simp only [step]
      split
      · split_ifs <;> exact h.attached
      · exact h.attached
  | register id ok =>
      simp only [step]
      split <;> exact h.attached
  | insert id =>
      simp only [step]
      split
      · rename_i p hadding
        dsimp only
        split_ifs with hroom
        · intro card hcard p' hp'
          rcases List.mem_append.1 hcard with hcard | hcard
          · exact h.attached card hcard p' hp'
          · obtain rfl := List.mem_singleton.1 hcard
            obtain rfl := addr_injective hp'
            exact hattached p hadding hroom
        · exact h.attached
      · exact h.attached
  | addGeneric count made =>
      simp only [step]
      split_ifs
      · intro card hcard p hp
        rcases List.mem_append.1 hcard with hcard | hcard
        · exact h.attached card hcard p hp
        · rw [List.eq_of_mem_replicate hcard] at hp
          cases hp
      · exact h.attached
  | removeAll => exact nofun

theorem inv_initial (present : UsbPath → Bool) : Inv (State.initial present) :=
  ⟨Nat.zero_le _, nofun⟩

/-- **Cards follow USB removal.**  In every run the registry stays within its limit and a removal
takes exactly the cards of its device; and when no card is inserted behind the removal of its device,
no card is left without one once everything has finished. -/
theorem cards_follow_removal (present : UsbPath → Bool) (es : List Event) :
    (run step (State.initial present) es).devices.length ≤ maxCards ∧
    (∀ p, removeUsb p (run step (State.initial present) es).devices =
      some ((run step (State.initial present) es).devices.filter (·.usbAddr ≠ p.addr),
        (run step (State.initial present) es).devices.filter (·.usbAddr = p.addr))) ∧
    (Along (fun s e => e.Attached s) step (State.initial present) es →
      (run step (State.initial present) es).Finished →
      ∀ card ∈ (run step (State.initial present) es).devices, ∀ p : UsbPath,
        card.usbAddr = p.addr → (run step (State.initial present) es).present p = true) := by
  have hlength := length_run (State.initial present) es (Nat.zero_le _)
  refine ⟨hlength, fun p => removeUsb_eq p hlength, fun hes hfinished card hcard p hp => ?_⟩
  have hinv := run_invariant (P := Inv) (fun _ _ h hC => inv_step h hC) es _
    (inv_initial present) hes
  rcases hinv.attached card hcard p hp with hpresent | hleaving
  · exact hpresent
  · rw [hfinished.2 p] at hleaving
    cases hleaving

/-! ### A removal in the middle of an add -/

/-- A dock on port 1 of a hub on port 1 of bus 2. -/
def dockPath : UsbPath := ⟨2, [1, 1]⟩

def dockToken : List Char := ['2', '-', '1', '.', '1']

/-- The dock is there. -/
def docked : UsbPath → Bool := fun p => p = dockPath

/-- A card is added for the dock and removed with it. -/
def addThenUnplug : List Event :=
  [.find 0 dockToken, .register 0 true, .insert 0, .unplug dockPath, .removeUsb dockPath]

/-- Behind these events only the add numbered 0 and the dock have been touched. -/
theorem finished_of_touched {s : State}
    (hadding : ∃ a b c, s.adding = Function.update (Function.update (Function.update
      (fun _ => none) 0 a) 0 b) 0 c ∧ c = none)
    (hleaving : ∃ a b, s.leaving = Function.update (Function.update (fun _ => false) dockPath a)
      dockPath b ∧ b = false) : s.Finished := by
  obtain ⟨a, b, c, hadding, rfl⟩ := hadding
  obtain ⟨a', b', hleaving, rfl⟩ := hleaving
  refine ⟨fun id => ?_, fun p => ?_⟩
  · rw [hadding]
    by_cases hid : id = 0 <;> simp [hid]
  · rw [hleaving]
    by_cases hp : p = dockPath <;> simp [hp]

theorem cards_follow_addThenUnplug :
    (run step (State.initial docked) addThenUnplug).Finished ∧
      ∀ card ∈ (run step (State.initial docked) addThenUnplug).devices, ∀ p : UsbPath,
        card.usbAddr = p.addr →
          (run step (State.initial docked) addThenUnplug).present p = true := by
  have hfinished : (run step (State.initial docked) addThenUnplug).Finished :=
    finished_of_touched ⟨_, _, _, rfl, rfl⟩ ⟨_, _, rfl, rfl⟩
  refine ⟨hfinished, (cards_follow_removal docked addThenUnplug).2.2 ?_ hfinished⟩
  refine ⟨trivial, trivial, fun p hp _ => .inl ?_, trivial, trivial, trivial⟩
  obtain rfl := Adding.registered.inj (Option.some.inj hp)
  decide

/-- The dock is removed between the registration and the insertion of its card. -/
def unplugDuringAdd : List Event :=
  [.find 0 dockToken, .register 0 true, .unplug dockPath, .removeUsb dockPath, .insert 0]

/-- **A card outlives its device**: everything has finished, and the dock is gone. -/
theorem card_outlives_device :
    (run step (State.initial docked) unplugDuringAdd).Finished ∧
      (run step (State.initial docked) unplugDuringAdd).devices = [⟨dockPath.addr⟩] ∧
      (run step (State.initial docked) unplugDuringAdd).present dockPath = false :=
  ⟨finished_of_touched ⟨_, _, _, rfl, rfl⟩ ⟨_, _, rfl, rfl⟩, by decide, by decide⟩

end Vino.Evdi.Registry
