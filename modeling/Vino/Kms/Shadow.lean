import Vino.Lib.Run
import Vino.Profile

/-!
# Shadow Slots and the Newest Frame

A commit copies the framebuffer into one of three shadow slots and leaves a frame that names the
slot and its generation; the scanout worker takes the frame, claims the surface of its slot, encodes
it against the strips it last submitted, and gives the surface back.  A copy into a surface the slot
still has leaves the strips alone whose hashes have not moved.  A frame whose slot has been written
since is dropped, a commit that finds an unclaimed frame is not copied at all, and behind a
frame that was sent the worker may arm a repaint of the same slot.  One connector is modelled, with
its mode active; the calls of the compositor and the steps of the worker interleave.

* `newest_submitted`: in every run in which a commit that is coalesced shows what the pending frame
  shows, no strip hash collides, in a slot or with the last frame, and no frame is sent in full under
  an older repaint it does not replace, whenever no frame is pending or in hand the last submitted
  snapshot is the last commit,
* `final_commit_lost`: the last commit before the compositor goes idle is coalesced and never sent.
-/

namespace Vino.Kms.Shadow

open Vino.Lib.Run Vino.Profile

/-! ### Commits, slots and frames -/

inductive Angle where
  | rotate0
  | rotate90
  | rotate180
  | rotate270
  deriving DecidableEq

/-- The rotation of a plane. -/
structure Rotation where
  angle : Angle
  reflectX : Bool
  reflectY : Bool
  deriving DecidableEq

def Rotation.identity (r : Rotation) : Bool := r.angle = .rotate0 && !r.reflectX && !r.reflectY

theorem Rotation.eq_of_identity {r q : Rotation} (hr : r.identity = true) (hq : q.identity = true) :
    r = q := by
  obtain ⟨angle, reflectX, reflectY⟩ := r
  obtain ⟨angle', reflectX', reflectY'⟩ := q
  simp only [Rotation.identity, Bool.and_eq_true, decide_eq_true_eq, Bool.not_eq_true'] at hr hq
  simp [hr, hq]

/-- What a commit shows: its rotation, and the strips of the output. -/
structure Desktop (n : ℕ) (σ : Type) where
  rotation : Rotation
  strips : Fin n → σ
  deriving DecidableEq

/-- The private copy of a framebuffer, with the hash of every strip that was copied last. -/
structure ShadowSurface (n : ℕ) (σ κ : Type) where
  pixels : Fin n → σ
  hashes : Fin n → κ
  deriving DecidableEq

structure ShadowSlot (n : ℕ) (σ κ : Type) where
  generation : ℕ
  /-- Missing while it is lent out for a copy or an encode. -/
  surface : Option (ShadowSurface n σ κ)

def shadowSlots : ℕ := 3

structure ShadowPool (n : ℕ) (σ κ : Type) where
  slots : ℕ → ShadowSlot n σ κ
  /-- The slot whose surface the encoder has. -/
  inflight : Option ℕ
  /-- The slot a commit is copying into. -/
  writing : Option ℕ

/-- A frame names its snapshot. -/
structure PendingScanout where
  rotation : Rotation
  shadowIdx : ℕ
  shadowGeneration : ℕ
  deriving DecidableEq

/-- How far a call of `queue_scanout` has come. -/
inductive Call (n : ℕ) (σ κ : Type) where
  | idle
  /-- Not coalesced. -/
  | reserving (c : Desktop n σ)
  /-- The slot is reserved and its surface taken. -/
  | copying (c : Desktop n σ) (idx : ℕ) (surface : Option (ShadowSurface n σ κ))
  /-- The snapshot is in its slot. -/
  | snapped (f : PendingScanout)
  /-- The armed repaint is dropped. -/
  | cleared (f : PendingScanout)
  deriving DecidableEq

/-- Where the scanout worker is. -/
inductive Scan (n : ℕ) (σ κ : Type) where
  | idle
  | top
  | selecting
  /-- A frame is selected. -/
  | holding (f : PendingScanout)
  /-- Its surface is claimed; `was` says whether a keyframe was owed. -/
  | claimed (f : PendingScanout) (was : Bool) (shadow : ShadowSurface n σ κ)
  /-- `encode_and_send` is over; `full` says whether it was encoded in full. -/
  | encoded (f : PendingScanout) (was full : Bool) (shadow : ShadowSurface n σ κ)
  /-- The surface is given back. -/
  | returned (f : PendingScanout) (was full : Bool)
  | waiting
  | leaving
  deriving DecidableEq

/-- The training window of a mode set. -/
inductive Sustain where
  | none
  | live
  | expired
  deriving DecidableEq

structure State (n : ℕ) (σ κ : Type) where
  pool : ShadowPool n σ κ
  shadowRr : ℕ
  call : Call n σ κ
  pendingScanout : Option PendingScanout
  /-- An armed repaint, and whether it goes out as a keyframe. -/
  settleRepaint : Option (PendingScanout × Bool)
  keyframePending : Bool
  /-- The hashes of the strips last submitted, under the identity rotation. -/
  stripHashes : Option (Fin n → κ)
  dirtyTtl : Fin n → ℕ
  settleBudget : ℕ
  sustainUntil : Sustain
  armPrefixPending : Bool
  scanQueued : Bool
  scan : Scan n σ κ
  /-- The newest commit, and the snapshot last submitted to the dock. -/
  committed : Option (Desktop n σ)
  submitted : Option (Desktop n σ)

variable {n : ℕ} {σ κ : Type}

/-- A mode set has just landed. -/
def State.initial (arm : Bool) (sustain : Sustain) : State n σ κ where
  pool := ⟨fun _ => ⟨0, none⟩, none, none⟩
  shadowRr := 0
  call := .idle
  pendingScanout := none
  settleRepaint := none
  keyframePending := true
  stripHashes := none
  dirtyTtl := fun _ => 0
  settleBudget := 1
  sustainUntil := sustain
  armPrefixPending := arm
  scanQueued := false
  scan := .idle
  committed := none
  submitted := none

inductive Event (n : ℕ) (σ : Type) where
  /-- A commit reaches `queue_scanout` and looks at the coalescing slot. -/
  | queueScanout (c : Desktop n σ)
  | reserve
  /-- The copy is made; `resized` says that the slot's surface has another geometry. -/
  | snapshot (resized : Bool)
  | clearSettle
  | publish
  | scanStart
  /-- The worker claims the endpoint; a stream command may block it. -/
  | scanCheck (blocked : Bool)
  | selectScanout (budgetWait cadenceDue settleDue : Bool)
  | scanWake
  /-- It looks at the pending slot once more before it exits. -/
  | scanLeave
  | claim
  /-- `described` says whether a monitor has described the socket. -/
  | encodeAndSend (described : Bool)
  /-- The surface goes back, if nothing else holds the pixels. -/
  | giveBack (unique : Bool)
  | armSettle
  /-- The training window ends. -/
  | expire

/-! ### The pool -/

/-- `snapshot_to_shadow`: in a surface there is already, a strip is copied if its hash moved. -/
def ShadowSurface.write [DecidableEq κ] (hash : Fin n → σ → κ)
    (old : Option (ShadowSurface n σ κ)) (strips : Fin n → σ) : ShadowSurface n σ κ where
  pixels i :=
    match old with
    | some s => if s.hashes i = hash i (strips i) then s.pixels i else strips i
    | none => strips i
  hashes i := hash i (strips i)

namespace ShadowPool

/-- The first slot from `start` on that is neither encoded from nor written to. -/
def freeSlot (p : ShadowPool n σ κ) (start : ℕ) : Option ℕ :=
  ((List.range shadowSlots).map fun i => (start + i) % shadowSlots).find? fun idx =>
    p.inflight ≠ some idx && p.writing ≠ some idx

/-- Take the surface out of a slot. -/
def take (p : ShadowPool n σ κ) (idx : ℕ) : ShadowPool n σ κ :=
  { p with slots := Function.update p.slots idx { p.slots idx with surface := none } }

/-- Put a new snapshot into a slot. -/
def store (p : ShadowPool n σ κ) (idx : ℕ) (shadow : ShadowSurface n σ κ) : ShadowPool n σ κ :=
  { p with slots := Function.update p.slots idx ⟨(p.slots idx).generation + 1, some shadow⟩ }

/-- Give the surface of a frame back, unless its slot has moved on. -/
def restore (p : ShadowPool n σ κ) (f : PendingScanout) (shadow : Option (ShadowSurface n σ κ)) :
    ShadowPool n σ κ :=
  if p.inflight = some f.shadowIdx then
    if (p.slots f.shadowIdx).generation = f.shadowGeneration ∧
        (p.slots f.shadowIdx).surface.isNone then
      { p with
        slots := Function.update p.slots f.shadowIdx
          { p.slots f.shadowIdx with surface := shadow }
        inflight := none }
    else { p with inflight := none }
  else p

/-- The surface a frame names, if it is still there. -/
def surfaceOf (p : ShadowPool n σ κ) (f : PendingScanout) : Option (ShadowSurface n σ κ) :=
  if (p.slots f.shadowIdx).generation = f.shadowGeneration then (p.slots f.shadowIdx).surface
  else none

/-- What a frame shows, if its snapshot is still there. -/
def shows (p : ShadowPool n σ κ) (f : PendingScanout) : Option (Desktop n σ) :=
  (p.surfaceOf f).map fun shadow => ⟨f.rotation, shadow.pixels⟩

end ShadowPool

/-! ### The operations -/

/-- Account one accepted submission against the debt of every strip. -/
def payDamageDebt (full : Bool) (debt : Fin n → ℕ) : Fin n → ℕ :=
  fun i => if full then 0 else debt i - 1

namespace State

/-- A commit is not copied while an unclaimed frame of its geometry is pending and no keyframe is
owed. -/
def coalesces (s : State n σ κ) (r : Rotation) : Bool :=
  match s.pendingScanout with
  | some queued => queued.rotation = r && !s.keyframePending
  | none => false

def queueScanout (s : State n σ κ) (c : Desktop n σ) : State n σ κ :=
  match s.call with
  | .idle =>
      if s.coalesces c.rotation then { s with committed := some c }
      else { s with committed := some c, call := .reserving c }
  | _ => s

def reserve (s : State n σ κ) : State n σ κ :=
  match s.call with
  | .reserving c =>
      match s.pool.freeSlot s.shadowRr with
      | some idx =>
          { s with
            pool := { s.pool.take idx with writing := some idx }
            shadowRr := s.shadowRr + 1
            call := .copying c idx (s.pool.slots idx).surface }
      | none => { s with shadowRr := s.shadowRr + 1, call := .idle }
  | _ => s

def snapshot [DecidableEq κ] (s : State n σ κ) (hash : Fin n → σ → κ) (resized : Bool) :
    State n σ κ :=
  match s.call with
  | .copying c idx surface =>
      { s with
        pool := { s.pool.store idx (.write hash (surface.filter fun _ => !resized) c.strips) with
          writing := none }
        call := .snapped ⟨c.rotation, idx, (s.pool.slots idx).generation + 1⟩ }
  | _ => s

def clearSettle (s : State n σ κ) : State n σ κ :=
  match s.call with
  | .snapped f => { s with settleRepaint := none, call := .cleared f }
  | _ => s

def publish (s : State n σ κ) : State n σ κ :=
  match s.call with
  | .cleared f => { s with pendingScanout := some f, scanQueued := true, call := .idle }
  | _ => s

def scanStart (s : State n σ κ) : State n σ κ :=
  match s.scan with
  | .idle => if s.scanQueued then { s with scanQueued := false, scan := .top } else s
  | _ => s

def scanCheck (s : State n σ κ) (blocked : Bool) : State n σ κ :=
  match s.scan with
  | .top => { s with scan := if blocked then .idle else .selecting }
  | _ => s

/-- Take the armed repaint if it is due. -/
def selectSettle (s : State n σ κ) (settleDue : Bool) : State n σ κ :=
  match s.settleRepaint with
  | some (f, asKeyframe) =>
      if settleDue then
        { s with
          settleRepaint := none
          keyframePending := s.keyframePending || asKeyframe
          scan := .holding f }
      else { s with scan := .waiting }
  | none => { s with scan := if s.pendingScanout.isSome then .waiting else .leaving }

/-- Choose the next frame or a wait. -/
def selectScanout (s : State n σ κ) (budgetWait cadenceDue settleDue : Bool) : State n σ κ :=
  match s.scan with
  | .selecting =>
      if budgetWait then { s with scan := .waiting }
      else
        match s.pendingScanout with
        | some f =>
            if cadenceDue then
              { s with
                pendingScanout := none
                keyframePending := s.keyframePending || s.sustainUntil = .live
                scan := .holding f }
            else s.selectSettle settleDue
        | none => s.selectSettle settleDue
  | _ => s

def scanWake (s : State n σ κ) : State n σ κ :=
  match s.scan with
  | .waiting => { s with scan := .top }
  | _ => s

def scanLeave (s : State n σ κ) : State n σ κ :=
  match s.scan with
  | .leaving => { s with scan := if s.pendingScanout.isSome then .top else .idle }
  | _ => s

/-- The front of `run_pending_scanout`: validate the slot and take its surface. -/
def claim (s : State n σ κ) : State n σ κ :=
  match s.scan with
  | .holding f =>
      if f.shadowIdx < shadowSlots ∧ s.pool.inflight.isNone then
        match s.pool.surfaceOf f with
        | some shadow =>
            { s with
              pool := { s.pool.take f.shadowIdx with inflight := some f.shadowIdx }
              scan := .claimed f s.keyframePending shadow }
        | none => { s with scan := .top }
      else { s with scan := .top }
  | _ => s

/-- The debt with every strip charged whose content moved. -/
def charged [DecidableEq κ] (s : State n σ κ) (damageFrames : ℕ) (hashes : Fin n → κ) : Fin n → ℕ :=
  fun i =>
    match s.stripHashes with
    | some baseline => if baseline i ≠ hashes i then damageFrames else s.dirtyTtl i
    | none => s.dirtyTtl i

/-- A submitted frame is published as the new baseline, and pays its debt. -/
def submit (s : State n σ κ) (f : PendingScanout) (full : Bool) (shadow : ShadowSurface n σ κ) :
    State n σ κ :=
  { s with
    dirtyTtl := payDamageDebt full s.dirtyTtl
    stripHashes := if f.rotation.identity then some shadow.hashes else none
    keyframePending := !full && s.keyframePending
    sustainUntil :=
      if s.armPrefixPending ∧ s.sustainUntil ≠ .none then .live else s.sustainUntil
    armPrefixPending := false
    submitted := some ⟨f.rotation, shadow.pixels⟩ }

/-- A keyframe is owed, or there is nothing to compare the frame against. -/
def full (s : State n σ κ) (f : PendingScanout) : Bool :=
  s.keyframePending || !f.rotation.identity || s.stripHashes.isNone

/-- What the strips of a frame owe. -/
def debt [DecidableEq κ] (s : State n σ κ) (damageFrames : ℕ) (f : PendingScanout)
    (shadow : ShadowSurface n σ κ) : Fin n → ℕ :=
  if s.full f then s.dirtyTtl else s.charged damageFrames shadow.hashes

def encodeAndSend [DecidableEq κ] (damageFrames : ℕ) (s : State n σ κ) (described : Bool) :
    State n σ κ :=
  match s.scan with
  | .claimed f was shadow =>
      if described then
        let t := { s with
          dirtyTtl := s.debt damageFrames f shadow, scan := .encoded f was (s.full f) shadow }
        if s.full f = true ∨ ∃ i, 0 < s.debt damageFrames f shadow i then
          t.submit f (s.full f) shadow
        else t
      else { s with scan := .encoded f was false shadow }
  | _ => s

def giveBack (s : State n σ κ) (unique : Bool) : State n σ κ :=
  match s.scan with
  | .encoded f was full shadow =>
      { s with
        pool := s.pool.restore f (if unique then some shadow else none)
        scan := .returned f was full }
  | _ => s

/-- Arm the repaint behind a frame: training and keepalive are exempt from the budget. -/
def armSettle (s : State n σ κ) (keepalive : Bool) : State n σ κ :=
  match s.scan with
  | .returned f was _ =>
      let s := { s with scan := .top }
      if was then
        if s.sustainUntil = .live || keepalive then { s with settleRepaint := some (f, true) }
        else if 0 < s.settleBudget then
          { s with settleRepaint := some (f, false), settleBudget := s.settleBudget - 1 }
        else s
      else if ∃ i, 0 < s.dirtyTtl i then { s with settleRepaint := some (f, false) }
      else s
  | _ => s

def expire (s : State n σ κ) : State n σ κ :=
  { s with sustainUntil := if s.sustainUntil = .live then .expired else s.sustainUntil }

end State

/-- One step of a commit or of the worker; a step that is not due changes nothing. -/
def step [DecidableEq κ] (hash : Fin n → σ → κ) (d : Dock) (keepalive : Bool) (s : State n σ κ) :
    Event n σ → State n σ κ
  | .queueScanout c => s.queueScanout c
  | .reserve => s.reserve
  | .snapshot resized => s.snapshot hash resized
  | .clearSettle => s.clearSettle
  | .publish => s.publish
  | .scanStart => s.scanStart
  | .scanCheck blocked => s.scanCheck blocked
  | .selectScanout budgetWait cadenceDue settleDue =>
      s.selectScanout budgetWait cadenceDue settleDue
  | .scanWake => s.scanWake
  | .scanLeave => s.scanLeave
  | .claim => s.claim
  | .encodeAndSend described => s.encodeAndSend d.damageFrames described
  | .giveBack unique => s.giveBack unique
  | .armSettle => s.armSettle keepalive
  | .expire => s.expire

/-- What is asked of a step:

* a commit that is coalesced shows what the pending frame shows,
* a commit is copied into a surface of its geometry in which no strip that differs has its hash,
* a frame is encoded for a monitor that has described itself, and no strip has the hash of a
  different one of the snapshot last submitted,
* a frame that was encoded in full without a keyframe being owed ends with no repaint armed that
  shows something else: it leaves no debt, and so arms nothing in its place. -/
def Event.Sound (hash : Fin n → σ → κ) (s : State n σ κ) : Event n σ → Prop
  | .queueScanout c =>
      match s.call with
      | .idle =>
          s.coalesces c.rotation = true → ∀ f ∈ s.pendingScanout, s.pool.shows f = some c
      | _ => True
  | .snapshot resized =>
      match s.call with
      | .copying c _ surface =>
          ∀ old ∈ surface.filter fun _ => !resized,
            ∀ i, old.hashes i = hash i (c.strips i) → old.pixels i = c.strips i
      | _ => True
  | .encodeAndSend described =>
      match s.scan with
      | .claimed _ _ shadow =>
          described = true ∧ ∀ b ∈ s.stripHashes, ∀ r ∈ s.submitted,
            ∀ i, b i = shadow.hashes i → shadow.pixels i = r.strips i
      | _ => True
  | .armSettle =>
      match s.scan with
      | .returned _ false true =>
          ∀ g ∈ s.settleRepaint, ∀ c ∈ s.pool.shows g.1, s.submitted = some c
      | _ => True
  | _ => True

/-! ### Frames and the pool -/

/-- The snapshot a call has taken. -/
def Call.frame : Call n σ κ → Option PendingScanout
  | .snapped f | .cleared f => some f
  | _ => none

/-- The slot a call copies into. -/
def Call.target : Call n σ κ → Option ℕ
  | .copying _ idx _ => some idx
  | _ => none

/-- The commit a call has yet to copy. -/
def Call.source : Call n σ κ → Option (Desktop n σ)
  | .reserving c | .copying c _ _ => some c
  | _ => none

namespace Scan

/-- The frame in the worker's hand. -/
def hand : Scan n σ κ → Option PendingScanout
  | .holding f | .claimed f .. | .encoded f .. | .returned f .. => some f
  | _ => none

/-- The frame whose surface is lent to the encoder. -/
def lent : Scan n σ κ → Option PendingScanout
  | .claimed f .. | .encoded f .. => some f
  | _ => none

/-- A keyframe was owed when the frame in hand was claimed. -/
def wasKeyframe : Scan n σ κ → Bool
  | .claimed _ was _ | .encoded _ was .. | .returned _ was _ => was
  | _ => false

/-- The frame in hand has been through the encoder. -/
def ended : Scan n σ κ → Bool
  | .encoded .. | .returned .. => true
  | _ => false

end Scan

/-- The frames somebody may still take the surface of, oldest first. -/
def State.frames (s : State n σ κ) : List PendingScanout :=
  (s.settleRepaint.map Prod.fst).toList ++ (s.scan.hand.toList ++ (s.pendingScanout.toList ++
    s.call.frame.toList))

/-- Of two frames of one slot the later one has the greater generation. -/
def Older (f g : PendingScanout) : Prop :=
  f.shadowIdx = g.shadowIdx → f.shadowGeneration < g.shadowGeneration

/-- Without a collision the surface shows the commit. -/
theorem ShadowSurface.write_pixels [DecidableEq κ] {hash : Fin n → σ → κ}
    {old : Option (ShadowSurface n σ κ)} {strips : Fin n → σ}
    (h : ∀ s ∈ old, ∀ i, s.hashes i = hash i (strips i) → s.pixels i = strips i) :
    (ShadowSurface.write hash old strips).pixels = strips := by
  funext i
  unfold ShadowSurface.write
  cases old with
  | none => rfl
  | some s =>
    dsimp only
    split
    next hsame => exact h s rfl i hsame
    next => rfl

namespace ShadowPool

variable {p : ShadowPool n σ κ} {f g : PendingScanout}

theorem shows_eq_some {c : Desktop n σ} :
    p.shows f = some c ↔ (p.slots f.shadowIdx).generation = f.shadowGeneration ∧
      c.rotation = f.rotation ∧
        ∃ shadow, (p.slots f.shadowIdx).surface = some shadow ∧ shadow.pixels = c.strips := by
  unfold shows surfaceOf
  obtain ⟨rotation, strips⟩ := c
  split
  next h =>
    simp only [h, true_and, Option.map_eq_some_iff, Desktop.mk.injEq]
    constructor
    · rintro ⟨shadow, hshadow, hrotation, hpixels⟩
      exact ⟨hrotation.symm, shadow, hshadow, hpixels⟩
    · rintro ⟨hrotation, shadow, hshadow, hpixels⟩
      exact ⟨shadow, hshadow, hrotation.symm, hpixels⟩
  next h => simp [h]

theorem generation_take (idx i : ℕ) :
    ((p.take idx).slots i).generation = (p.slots i).generation := by
  unfold take
  by_cases hi : i = idx
  · subst hi
    simp
  · simp [hi]

theorem surface_take_self (idx : ℕ) : ((p.take idx).slots idx).surface = none := by
  simp [take]

theorem slots_take_ne {idx i : ℕ} (h : i ≠ idx) : (p.take idx).slots i = p.slots i := by
  simp [take, h]

theorem shows_take {idx : ℕ} {c : Desktop n σ} (h : (p.take idx).shows f = some c) :
    f.shadowIdx ≠ idx ∧ p.shows f = some c := by
  have hne : f.shadowIdx ≠ idx := by
    rintro rfl
    obtain ⟨shadow, hshadow, -⟩ := (shows_eq_some.mp h).2.2
    rw [surface_take_self] at hshadow
    cases hshadow
  rw [shows_eq_some, slots_take_ne hne] at h
  exact ⟨hne, shows_eq_some.mpr h⟩

theorem slots_store_self (idx : ℕ) (shadow : ShadowSurface n σ κ) :
    (p.store idx shadow).slots idx = ⟨(p.slots idx).generation + 1, some shadow⟩ := by
  simp [store]

theorem slots_store_ne {idx i : ℕ} (shadow : ShadowSurface n σ κ) (h : i ≠ idx) :
    (p.store idx shadow).slots i = p.slots i := by
  simp [store, h]

/-- A frame that was taken before a slot was written shows the new snapshot to nobody. -/
theorem shows_store {idx : ℕ} {shadow : ShadowSurface n σ κ} {c : Desktop n σ}
    (hle : f.shadowGeneration ≤ (p.slots f.shadowIdx).generation)
    (h : (p.store idx shadow).shows f = some c) : p.shows f = some c := by
  have hne : f.shadowIdx ≠ idx := by
    rintro rfl
    have hgen := (shows_eq_some.mp h).1
    rw [slots_store_self] at hgen
    dsimp only at hgen
    omega
  rw [shows_eq_some, slots_store_ne shadow hne] at h
  exact shows_eq_some.mpr h

theorem generation_le_store (idx i : ℕ) (shadow : ShadowSurface n σ κ) :
    (p.slots i).generation ≤ ((p.store idx shadow).slots i).generation := by
  by_cases hi : i = idx
  · subst hi
    rw [slots_store_self]
    exact Nat.le_succ _
  · rw [slots_store_ne shadow hi]

/-- A surface comes back to its own slot. -/
theorem restore_eq (hinflight : p.inflight = some f.shadowIdx)
    (hgen : (p.slots f.shadowIdx).generation = f.shadowGeneration)
    (hnone : (p.slots f.shadowIdx).surface = none) (shadow : Option (ShadowSurface n σ κ)) :
    p.restore f shadow =
      { p with
        slots := Function.update p.slots f.shadowIdx ⟨f.shadowGeneration, shadow⟩
        inflight := none } := by
  unfold restore
  rw [if_pos hinflight, if_pos ⟨hgen, by rw [hnone]; rfl⟩]
  dsimp only
  rw [hgen]

theorem freeSlot_spec {start idx : ℕ} (h : p.freeSlot start = some idx) :
    idx < shadowSlots ∧ p.inflight ≠ some idx := by
  have hmem := List.mem_of_find?_eq_some h
  have hfree := List.find?_some h
  obtain ⟨i, -, rfl⟩ := List.mem_map.mp hmem
  refine ⟨Nat.mod_lt _ (by decide), ?_⟩
  simp only [Bool.and_eq_true, decide_eq_true_eq] at hfree
  exact hfree.1

/-- With three slots, one of which is encoded from, there is always one to copy into. -/
theorem freeSlot_ne_none (hwriting : p.writing = none) (start : ℕ) : p.freeSlot start ≠ none := by
  intro h
  have hall := List.find?_eq_none.mp h
  have hbusy : ∀ i < 3, p.inflight = some ((start + i) % 3) := by
    intro i hi
    have := hall ((start + i) % 3) (List.mem_map.mpr ⟨i, List.mem_range.mpr hi, rfl⟩)
    simpa [hwriting] using this
  have h0 := hbusy 0 (by omega)
  have h1 := hbusy 1 (by omega)
  rw [h0, Option.some_inj] at h1
  omega

end ShadowPool

namespace Scan

variable {scan : Scan n σ κ}

theorem lent_of_hand (h : scan.hand = none) : scan.lent = none := by
  cases scan <;> first | rfl | cases h

theorem wasKeyframe_of_hand (h : scan.hand = none) : scan.wasKeyframe = false := by
  cases scan <;> first | rfl | cases h

theorem ended_of_hand (h : scan.hand = none) : scan.ended = false := by
  cases scan <;> first | rfl | cases h

end Scan

/-- The worker moved with empty hands, if at all. -/
def State.Moves (s t : State n σ κ) : Prop :=
  t = s ∨ ∃ queued scan, s.scan.hand = none ∧ scan.hand = none ∧
    t = { s with scanQueued := queued, scan := scan }

theorem scanStart_moves (s : State n σ κ) : s.Moves s.scanStart := by
  unfold State.scanStart
  split
  next hscan =>
    split
    · exact Or.inr ⟨false, .top, by rw [hscan]; rfl, rfl, rfl⟩
    · exact Or.inl rfl
  next => exact Or.inl rfl

theorem scanCheck_moves (s : State n σ κ) (blocked : Bool) : s.Moves (s.scanCheck blocked) := by
  unfold State.scanCheck
  split
  next hscan =>
    refine Or.inr ⟨s.scanQueued, _, by rw [hscan]; rfl, ?_, rfl⟩
    cases blocked <;> rfl
  next => exact Or.inl rfl

theorem scanWake_moves (s : State n σ κ) : s.Moves s.scanWake := by
  unfold State.scanWake
  split
  next hscan => exact Or.inr ⟨s.scanQueued, .top, by rw [hscan]; rfl, rfl, rfl⟩
  next => exact Or.inl rfl

theorem scanLeave_moves (s : State n σ κ) : s.Moves s.scanLeave := by
  unfold State.scanLeave
  split
  next hscan =>
    refine Or.inr ⟨s.scanQueued, _, by rw [hscan]; rfl, ?_, rfl⟩
    split <;> rfl
  next => exact Or.inl rfl

/-- Who holds which slot. -/
structure Placed (s : State n σ κ) : Prop where
  ordered : s.frames.Pairwise Older
  bounded : ∀ f ∈ s.frames, f.shadowGeneration ≤ (s.pool.slots f.shadowIdx).generation
  inflight : s.pool.inflight = s.scan.lent.map PendingScanout.shadowIdx
  lent : ∀ f, s.scan.lent = some f →
    (s.pool.slots f.shadowIdx).generation = f.shadowGeneration ∧
      (s.pool.slots f.shadowIdx).surface = none
  writing : s.pool.writing = s.call.target
  target : ∀ idx, s.call.target = some idx → idx < shadowSlots ∧ s.pool.inflight ≠ some idx ∧
    (s.pool.slots idx).surface = none

namespace Placed

variable {s t : State n σ κ}

/-- A step that names no new frame and leaves the pool alone. -/
theorem mono (h : Placed s) (hframes : t.frames.Sublist s.frames) (hpool : t.pool = s.pool)
    (hlent : t.scan.lent = s.scan.lent) (htarget : t.call.target = s.call.target) : Placed t where
  ordered := h.ordered.sublist hframes
  bounded f hf := by
    rw [hpool]
    exact h.bounded f (hframes.subset hf)
  inflight := by rw [hpool, hlent, h.inflight]
  lent f hf := by
    rw [hpool]
    exact h.lent f (hlent ▸ hf)
  writing := by rw [hpool, htarget, h.writing]
  target idx hidx := by
    rw [hpool]
    exact h.target idx (htarget ▸ hidx)

theorem queueScanout (h : Placed s) (c : Desktop n σ) : Placed (s.queueScanout c) := by
  unfold State.queueScanout
  split
  next hcall =>
    split
    · exact h.mono (List.Sublist.refl _) rfl rfl rfl
    · refine h.mono ?_ rfl rfl (by rw [hcall]; rfl)
      unfold State.frames
      rw [hcall]
      exact List.Sublist.refl _
  next => exact h

theorem clearSettle (h : Placed s) : Placed s.clearSettle := by
  unfold State.clearSettle
  split
  next f hcall =>
    refine h.mono ?_ rfl rfl (by rw [hcall]; rfl)
    unfold State.frames
    rw [hcall]
    exact List.sublist_append_right _ _
  next => exact h

theorem publish (h : Placed s) : Placed s.publish := by
  unfold State.publish
  split
  next f hcall =>
    refine h.mono ?_ rfl rfl (by rw [hcall]; rfl)
    unfold State.frames
    rw [hcall]
    refine (List.Sublist.refl _).append ((List.Sublist.refl _).append ?_)
    exact List.sublist_append_right _ _
  next => exact h

/-- The worker moves with empty hands. -/
theorem move (h : Placed s) {queued : Bool} {scan : Scan n σ κ} (hold : s.scan.hand = none)
    (hnew : scan.hand = none) : Placed { s with scanQueued := queued, scan := scan } := by
  refine h.mono ?_ rfl ((Scan.lent_of_hand hnew).trans (Scan.lent_of_hand hold).symm) rfl
  unfold State.frames
  dsimp only
  rw [hnew, hold]

theorem selectSettle (h : Placed s) (hscan : s.scan = .selecting) (settleDue : Bool) :
    Placed (s.selectSettle settleDue) := by
  unfold State.selectSettle
  split
  next f asKeyframe hsettle =>
    split
    · refine h.mono ?_ rfl (by rw [hscan]; rfl) rfl
      unfold State.frames
      rw [hscan, hsettle]
      exact List.Sublist.refl _
    · exact h.move (by rw [hscan]; rfl) rfl
  next =>
    refine h.move (by rw [hscan]; rfl) ?_
    split <;> rfl

theorem selectScanout (h : Placed s) (budgetWait cadenceDue settleDue : Bool) :
    Placed (s.selectScanout budgetWait cadenceDue settleDue) := by
  unfold State.selectScanout
  split
  next hscan =>
    split
    · exact h.move (by rw [hscan]; rfl) rfl
    · split
      next f hpending =>
        split
        · refine h.mono ?_ rfl (by rw [hscan]; rfl) rfl
          unfold State.frames
          rw [hscan, hpending]
          exact List.Sublist.refl _
        · exact h.selectSettle hscan settleDue
      next => exact h.selectSettle hscan settleDue
  next => exact h

theorem moves (h : Placed s) (hm : s.Moves t) : Placed t := by
  rcases hm with rfl | ⟨queued, scan, hold, hnew, rfl⟩
  · exact h
  · exact h.move hold hnew

/-- The frame in hand is dropped. -/
theorem drop (h : Placed s) (hlent : s.scan.lent = none) : Placed { s with scan := .top } := by
  refine h.mono ?_ rfl hlent.symm rfl
  unfold State.frames
  exact (List.Sublist.refl _).append (List.sublist_append_right _ _)

theorem claim (h : Placed s) : Placed s.claim := by
  unfold State.claim
  split
  next f hscan =>
    have hlent : s.scan.lent = none := by rw [hscan]; rfl
    split
    next hvalid =>
      split
      next shadow hshadow =>
        have hgen : (s.pool.slots f.shadowIdx).generation = f.shadowGeneration := by
          unfold ShadowPool.surfaceOf at hshadow
          split at hshadow
          · assumption
          · cases hshadow
        have hsurface : (s.pool.slots f.shadowIdx).surface = some shadow := by
          unfold ShadowPool.surfaceOf at hshadow
          rwa [if_pos hgen] at hshadow
        refine ⟨?_, ?_, rfl, ?_, h.writing, ?_⟩
        · have := h.ordered
          unfold State.frames at this ⊢
          rwa [hscan] at this
        · intro g hg
          dsimp only
          rw [ShadowPool.generation_take]
          refine h.bounded g ?_
          unfold State.frames at hg ⊢
          rw [hscan]
          exact hg
        · rintro g ⟨⟩
          exact ⟨(ShadowPool.generation_take _ _).trans hgen, ShadowPool.surface_take_self _⟩
        · intro idx hidx
          obtain ⟨hlt, -, hnone⟩ := h.target idx hidx
          have hne : f.shadowIdx ≠ idx := by
            rintro rfl
            rw [hsurface] at hnone
            cases hnone
          refine ⟨hlt, fun hi => hne (Option.some_inj.mp hi), ?_⟩
          dsimp only
          rw [ShadowPool.slots_take_ne hne.symm]
          exact hnone
      next => exact h.drop hlent
    next => exact h.drop hlent
  next => exact h

theorem reserve (h : Placed s) : Placed s.reserve := by
  unfold State.reserve
  split
  next c hcall =>
    split
    next idx hfree =>
      obtain ⟨hlt, hinflight⟩ := ShadowPool.freeSlot_spec hfree
      refine ⟨?_, ?_, h.inflight, ?_, rfl, ?_⟩
      · have := h.ordered
        unfold State.frames at this ⊢
        rwa [hcall] at this
      · intro g hg
        dsimp only
        rw [ShadowPool.generation_take]
        refine h.bounded g ?_
        unfold State.frames at hg ⊢
        rw [hcall]
        exact hg
      · intro g hg
        obtain ⟨hgen, hnone⟩ := h.lent g hg
        have hne : g.shadowIdx ≠ idx := by
          rintro rfl
          rw [h.inflight, hg] at hinflight
          exact hinflight rfl
        dsimp only
        rw [ShadowPool.slots_take_ne hne]
        exact ⟨hgen, hnone⟩
      · rintro i ⟨⟩
        exact ⟨hlt, hinflight, ShadowPool.surface_take_self _⟩
    next =>
      refine h.mono ?_ rfl rfl (by rw [hcall]; rfl)
      unfold State.frames
      rw [hcall]
      exact List.Sublist.refl _
  next => exact h

theorem snapshot [DecidableEq κ] (h : Placed s) (hash : Fin n → σ → κ) (resized : Bool) :
    Placed (s.snapshot hash resized) := by
  unfold State.snapshot
  split
  next c idx surface hcall =>
    obtain ⟨hlt, hinflight, hnone⟩ := h.target idx (by rw [hcall]; rfl)
    have hframes : ∀ (pool : ShadowPool n σ κ) (f : PendingScanout),
        State.frames { s with pool := pool, call := .snapped f } = s.frames ++ [f] := by
      intro pool f
      unfold State.frames
      rw [hcall]
      simp [Call.frame]
    have hgen : ∀ shadow : ShadowSurface n σ κ, ((s.pool.store idx shadow).slots idx).generation =
        (s.pool.slots idx).generation + 1 := by
      intro shadow
      rw [ShadowPool.slots_store_self]
    refine ⟨?_, ?_, h.inflight, ?_, rfl, nofun⟩
    · rw [hframes]
      refine List.pairwise_append.mpr ⟨h.ordered, List.pairwise_singleton _ _, ?_⟩
      intro g hg f hf
      rw [List.mem_singleton.mp hf]
      rintro rfl
      exact Nat.lt_succ_of_le (h.bounded g hg)
    · intro g hg
      rw [hframes] at hg
      rcases List.mem_append.mp hg with hg | hg
      · exact (h.bounded g hg).trans (ShadowPool.generation_le_store _ _ _)
      · rw [List.mem_singleton.mp hg]
        exact (hgen _).ge
    · intro g hg
      have hne : g.shadowIdx ≠ idx := by
        rintro rfl
        rw [h.inflight, hg] at hinflight
        exact hinflight rfl
      dsimp only
      rw [ShadowPool.slots_store_ne _ hne]
      exact h.lent g hg
  next => exact h

theorem encodeAndSend [DecidableEq κ] (h : Placed s) (damageFrames : ℕ) (described : Bool) :
    Placed (s.encodeAndSend damageFrames described) := by
  have hover : ∀ {t : State n σ κ} {f was full shadow}, s.scan = .claimed f was shadow →
      t.settleRepaint = s.settleRepaint → t.scan = .encoded f was full shadow →
      t.pendingScanout = s.pendingScanout → t.call = s.call → t.pool = s.pool → Placed t := by
    intro t f was full shadow hscan hsettle hscan' hpending hcall hpool
    refine h.mono ?_ hpool (by rw [hscan, hscan']; rfl) (by rw [hcall])
    unfold State.frames
    rw [hscan, hscan', hsettle, hpending, hcall]
    exact List.Sublist.refl _
  unfold State.encodeAndSend
  split
  next f was shadow hscan =>
    split
    · dsimp only
      split
      · exact hover hscan rfl rfl rfl rfl rfl
      · exact hover hscan rfl rfl rfl rfl rfl
    · exact hover hscan rfl rfl rfl rfl rfl
  next => exact h

theorem giveBack (h : Placed s) (unique : Bool) : Placed (s.giveBack unique) := by
  unfold State.giveBack
  split
  next f was full shadow hscan =>
    have hlent : s.scan.lent = some f := by rw [hscan]; rfl
    obtain ⟨hgen, hnone⟩ := h.lent f hlent
    have hinflight : s.pool.inflight = some f.shadowIdx := by rw [h.inflight, hlent]; rfl
    rw [ShadowPool.restore_eq hinflight hgen hnone]
    refine ⟨?_, ?_, rfl, nofun, h.writing, ?_⟩
    · have := h.ordered
      unfold State.frames at this ⊢
      rwa [hscan] at this
    · intro g hg
      have hle := h.bounded g (by
        unfold State.frames at hg ⊢
        rw [hscan]
        exact hg)
      by_cases hi : g.shadowIdx = f.shadowIdx
      · simp only [hi, Function.update_self]
        rwa [hi, hgen] at hle
      · simpa [hi] using hle
    · intro idx hidx
      obtain ⟨hlt, hne, hfree⟩ := h.target idx hidx
      have hi : idx ≠ f.shadowIdx := by
        rintro rfl
        exact hne hinflight
      exact ⟨hlt, nofun, by simpa [hi] using hfree⟩
  next => exact h

theorem armSettle (h : Placed s) (keepalive : Bool) : Placed (s.armSettle keepalive) := by
  unfold State.armSettle
  split
  next f was full hscan =>
    have hlent : s.scan.lent = none := by rw [hscan]; rfl
    have hdrop : Placed { s with scan := .top } := h.drop hlent
    have harm : ∀ (asKeyframe : Bool) (budget : ℕ),
        Placed { s with
          scan := .top, settleRepaint := some (f, asKeyframe), settleBudget := budget } := by
      intro asKeyframe budget
      refine h.mono ?_ rfl hlent.symm rfl
      unfold State.frames
      rw [hscan]
      exact List.sublist_append_right _ _
    dsimp only
    split
    · split
      · exact harm true s.settleBudget
      · split
        · exact harm false _
        · exact hdrop
    · split
      · exact harm false s.settleBudget
      · exact hdrop
  next => exact h

theorem step [DecidableEq κ] (h : Placed s) (hash : Fin n → σ → κ) (d : Dock) (keepalive : Bool)
    (e : Event n σ) : Placed (step hash d keepalive s e) := by
  cases e with
  | queueScanout c => exact h.queueScanout c
  | reserve => exact h.reserve
  | snapshot resized => exact h.snapshot hash resized
  | clearSettle => exact h.clearSettle
  | publish => exact h.publish
  | scanStart => exact h.moves (scanStart_moves s)
  | scanCheck blocked => exact h.moves (scanCheck_moves s blocked)
  | selectScanout budgetWait cadenceDue settleDue =>
    exact h.selectScanout budgetWait cadenceDue settleDue
  | scanWake => exact h.moves (scanWake_moves s)
  | scanLeave => exact h.moves (scanLeave_moves s)
  | claim => exact h.claim
  | encodeAndSend described => exact h.encodeAndSend d.damageFrames described
  | giveBack unique => exact h.giveBack unique
  | armSettle => exact h.armSettle keepalive
  | expire => exact h.mono (List.Sublist.refl _) rfl rfl rfl

/-- The repaint is older than the frame in hand. -/
theorem older_settle (h : Placed s) {f g : PendingScanout} {asKeyframe : Bool}
    (hg : s.settleRepaint = some (g, asKeyframe)) (hf : s.scan.hand = some f) : Older g f := by
  have := (List.pairwise_append.mp h.ordered).2.2
  exact this g (by simp [hg]) f (by simp [hf])

/-- The slot of the frame in hand is not that of a newer frame. -/
theorem newer_ne (h : Placed s) {f g : PendingScanout} (hf : s.scan.hand = some f)
    (hgen : (s.pool.slots f.shadowIdx).generation = f.shadowGeneration)
    (hg : s.pendingScanout = some g ∨ s.call.frame = some g) : g.shadowIdx ≠ f.shadowIdx := by
  have hmem : g ∈ s.pendingScanout.toList ++ s.call.frame.toList := by
    rcases hg with hg | hg
    · simp [hg]
    · simp [hg]
  have holder : Older f g :=
    (List.pairwise_append.mp (List.pairwise_append.mp h.ordered).2.1).2.2 f (by simp [hf]) g hmem
  have hle := h.bounded g (List.mem_append_right _ (List.mem_append_right _ hmem))
  intro he
  have := holder he.symm
  rw [he, hgen] at hle
  omega

end Placed

/-! ### Keyframes and the repaint budget -/

/-- The budget of the connector is spent: nothing is left that could owe another keyframe. -/
structure Spent (s : State n σ κ) : Prop where
  keyframe : s.keyframePending = false
  was : s.scan.wasKeyframe = false
  sustain : s.sustainUntil ≠ .live
  arm : s.armPrefixPending = true → s.sustainUntil = .none
  settle : ∀ f, s.settleRepaint ≠ some (f, true)

/-- What the keyframe bit says about the frame in hand. -/
structure Paced (keepalive : Bool) (s : State n σ κ) : Prop where
  claimed : ∀ f shadow, s.scan = .claimed f true shadow → s.keyframePending = true
  ended : s.scan.ended = true → s.scan.wasKeyframe = true →
    s.keyframePending = false ∧ s.armPrefixPending = false
  spent : keepalive = false → s.settleBudget = 0 → Spent s

namespace Paced

variable {keepalive : Bool} {s t : State n σ κ}

/-- No keyframe was owed when the frame in hand was claimed. -/
theorem of_was (hwas : t.scan.wasKeyframe = false)
    (hspent : keepalive = false → t.settleBudget = 0 → Spent t) : Paced keepalive t where
  claimed f shadow hscan := by
    rw [hscan] at hwas
    cases hwas
  ended _ h := by
    rw [hwas] at h
    cases h
  spent := hspent

/-- A step of the compositor leaves the worker alone. -/
theorem keep (h : Paced keepalive s) (hscan : t.scan = s.scan)
    (hkeyframe : t.keyframePending = s.keyframePending)
    (harm : t.armPrefixPending = s.armPrefixPending) (hsustain : t.sustainUntil = s.sustainUntil)
    (hbudget : t.settleBudget = s.settleBudget)
    (hsettle : t.settleRepaint = s.settleRepaint ∨ t.settleRepaint = none) :
    Paced keepalive t where
  claimed := by
    rw [hscan, hkeyframe]
    exact h.claimed
  ended := by
    rw [hscan, hkeyframe, harm]
    exact h.ended
  spent := by
    rw [hbudget]
    intro hk hb
    obtain ⟨hkey, hwas, hlive, harms, hrepaint⟩ := h.spent hk hb
    refine ⟨hkeyframe.trans hkey, hscan ▸ hwas, hsustain ▸ hlive, harm ▸ hsustain ▸ harms, ?_⟩
    rcases hsettle with hsettle | hsettle
    · rw [hsettle]
      exact hrepaint
    · rw [hsettle]
      exact nofun

theorem moves (h : Paced keepalive s) (hm : s.Moves t) : Paced keepalive t := by
  rcases hm with rfl | ⟨queued, scan, -, hnew, rfl⟩
  · exact h
  · refine of_was (Scan.wasKeyframe_of_hand hnew) fun hk hb => ?_
    obtain ⟨hkey, -, hlive, harm, hrepaint⟩ := h.spent hk hb
    exact ⟨hkey, Scan.wasKeyframe_of_hand hnew, hlive, harm, hrepaint⟩

theorem queueScanout (h : Paced keepalive s) (c : Desktop n σ) :
    Paced keepalive (s.queueScanout c) := by
  unfold State.queueScanout
  split
  · split
    · exact h.keep rfl rfl rfl rfl rfl (Or.inl rfl)
    · exact h.keep rfl rfl rfl rfl rfl (Or.inl rfl)
  · exact h

theorem reserve (h : Paced keepalive s) : Paced keepalive s.reserve := by
  unfold State.reserve
  split
  · split
    · exact h.keep rfl rfl rfl rfl rfl (Or.inl rfl)
    · exact h.keep rfl rfl rfl rfl rfl (Or.inl rfl)
  · exact h

theorem snapshot [DecidableEq κ] (h : Paced keepalive s) (hash : Fin n → σ → κ) (resized : Bool) :
    Paced keepalive (s.snapshot hash resized) := by
  unfold State.snapshot
  split
  · exact h.keep rfl rfl rfl rfl rfl (Or.inl rfl)
  · exact h

theorem clearSettle (h : Paced keepalive s) : Paced keepalive s.clearSettle := by
  unfold State.clearSettle
  split
  · exact h.keep rfl rfl rfl rfl rfl (Or.inr rfl)
  · exact h

theorem publish (h : Paced keepalive s) : Paced keepalive s.publish := by
  unfold State.publish
  split
  · exact h.keep rfl rfl rfl rfl rfl (Or.inl rfl)
  · exact h

theorem selectSettle (h : Paced keepalive s) (settleDue : Bool) :
    Paced keepalive (s.selectSettle settleDue) := by
  unfold State.selectSettle
  split
  next f asKeyframe hsettle =>
    split
    · refine of_was rfl fun hk hb => ?_
      obtain ⟨hkey, -, hlive, harm, hrepaint⟩ := h.spent hk hb
      refine ⟨?_, rfl, hlive, harm, nofun⟩
      cases asKeyframe with
      | true => exact absurd hsettle (hrepaint f)
      | false => simpa using hkey
    · refine of_was rfl fun hk hb => ?_
      obtain ⟨hkey, -, hlive, harm, hrepaint⟩ := h.spent hk hb
      exact ⟨hkey, rfl, hlive, harm, hrepaint⟩
  next =>
    have hwas :
        (if s.pendingScanout.isSome then Scan.waiting else .leaving : Scan n σ κ).wasKeyframe =
          false := by
      split <;> rfl
    refine of_was hwas fun hk hb => ?_
    obtain ⟨hkey, -, hlive, harm, hrepaint⟩ := h.spent hk hb
    exact ⟨hkey, hwas, hlive, harm, hrepaint⟩

theorem selectScanout (h : Paced keepalive s) (budgetWait cadenceDue settleDue : Bool) :
    Paced keepalive (s.selectScanout budgetWait cadenceDue settleDue) := by
  unfold State.selectScanout
  split
  · split
    · refine of_was rfl fun hk hb => ?_
      obtain ⟨hkey, -, hlive, harm, hrepaint⟩ := h.spent hk hb
      exact ⟨hkey, rfl, hlive, harm, hrepaint⟩
    · split
      · split
        · refine of_was rfl fun hk hb => ?_
          obtain ⟨hkey, -, hlive, harm, hrepaint⟩ := h.spent hk hb
          exact ⟨by simp [hkey, hlive], rfl, hlive, harm, hrepaint⟩
        · exact h.selectSettle settleDue
      · exact h.selectSettle settleDue
  · exact h

theorem drop (h : Paced keepalive s) : Paced keepalive { s with scan := .top } := by
  refine of_was rfl fun hk hb => ?_
  obtain ⟨hkey, -, hlive, harm, hrepaint⟩ := h.spent hk hb
  exact ⟨hkey, rfl, hlive, harm, hrepaint⟩

theorem claim (h : Paced keepalive s) : Paced keepalive s.claim := by
  unfold State.claim
  split
  next f hscan =>
    split
    · split
      next shadow _ =>
        refine ⟨?_, nofun, fun hk hb => ?_⟩
        · intro g strips hg
          injection hg with _ hwas _
        · obtain ⟨hkey, -, hlive, harm, hrepaint⟩ := h.spent hk hb
          exact ⟨hkey, hkey, hlive, harm, hrepaint⟩
      next => exact h.drop
    · exact h.drop
  next => exact h

/-- A frame that was owed as a keyframe goes out in full. -/
theorem encodeAndSend [DecidableEq κ] (h : Paced keepalive s) (damageFrames : ℕ) :
    Paced keepalive (s.encodeAndSend damageFrames true) := by
  unfold State.encodeAndSend
  split
  next f was shadow hscan =>
    have hfull : was = true → s.full f = true := by
      rintro rfl
      unfold State.full
      rw [h.claimed f shadow hscan]
      rfl
    rw [if_pos rfl]
    dsimp only
    split
    next =>
      refine ⟨nofun, fun _ hwas => ⟨?_, rfl⟩, fun hk hb => ?_⟩
      · simp [State.submit, hfull hwas]
      · obtain ⟨hkey, hwas, hlive, harm, hrepaint⟩ := h.spent hk hb
        rw [hscan] at hwas
        refine ⟨?_, hwas, ?_, nofun, hrepaint⟩
        · simp [State.submit, hkey]
        · unfold State.submit
          dsimp only
          split
          next harmed => exact absurd (harm harmed.1) harmed.2
          next => exact hlive
    next hnone =>
      have hwas : was = false := by
        by_contra hne
        exact hnone (Or.inl (hfull (by simpa using hne)))
      refine of_was hwas fun hk hb => ?_
      obtain ⟨hkey, -, hlive, harm, hrepaint⟩ := h.spent hk hb
      exact ⟨hkey, hwas, hlive, harm, hrepaint⟩
  next => exact h

theorem encodeAndSend_of_sound [DecidableEq κ] (h : Paced keepalive s) {hash : Fin n → σ → κ}
    {damageFrames : ℕ} {described : Bool} (he : (Event.encodeAndSend described).Sound hash s) :
    Paced keepalive (s.encodeAndSend damageFrames described) := by
  cases described with
  | true => exact h.encodeAndSend damageFrames
  | false =>
    unfold State.encodeAndSend
    simp only [Event.Sound] at he
    split
    next hscan =>
      rw [hscan] at he
      cases he.1
    next => exact h

theorem giveBack (h : Paced keepalive s) (unique : Bool) : Paced keepalive (s.giveBack unique) := by
  unfold State.giveBack
  split
  next f was full shadow hscan =>
    have hended := h.ended
    rw [hscan] at hended
    refine ⟨nofun, hended, fun hk hb => ?_⟩
    obtain ⟨hkey, hwas, hlive, harm, hrepaint⟩ := h.spent hk hb
    rw [hscan] at hwas
    exact ⟨hkey, hwas, hlive, harm, hrepaint⟩
  next => exact h

/-- The budget is spent outside the training window, behind the last keyframe. -/
theorem armSettle (h : Paced keepalive s) : Paced keepalive (s.armSettle keepalive) := by
  unfold State.armSettle
  split
  next f was full hscan =>
    dsimp only
    split
    next hwas =>
      split
      next hunbudgeted =>
        refine of_was rfl fun hk hb => ?_
        have := (h.spent hk hb).was
        rw [hscan] at this
        exact absurd hwas (by simpa [Scan.wasKeyframe] using this)
      next hbudgeted =>
        split
        next =>
          refine of_was rfl fun hk _ => ?_
          obtain ⟨hkey, harm⟩ := h.ended (by rw [hscan]; rfl) (by rw [hscan]; exact hwas)
          refine ⟨hkey, rfl, ?_, ?_, ?_⟩
          · rintro (hlive : s.sustainUntil = .live)
            exact hbudgeted (by simp [hlive])
          · intro ha
            rw [harm] at ha
            cases ha
          · rintro g ⟨⟩
        next => exact h.drop
    next =>
      split
      next =>
        refine of_was rfl fun hk hb => ?_
        obtain ⟨hkey, -, hlive, harm, -⟩ := h.spent hk hb
        refine ⟨hkey, rfl, hlive, harm, ?_⟩
        rintro g ⟨⟩
      next => exact h.drop
  next => exact h

theorem expire (h : Paced keepalive s) : Paced keepalive s.expire := by
  refine ⟨h.claimed, h.ended, fun hk hb => ?_⟩
  obtain ⟨hkey, hwas, hlive, harm, hrepaint⟩ := h.spent hk hb
  have hsame : s.expire.sustainUntil = s.sustainUntil := by
    simp [State.expire, hlive]
  exact ⟨hkey, hwas, hsame ▸ hlive, fun ha => hsame.trans (harm ha), hrepaint⟩

/-- A keyframe in hand always leaves a repaint. -/
theorem charged (h : Paced keepalive s) (hwas : s.scan.wasKeyframe = true) :
    keepalive = true ∨ 0 < s.settleBudget := by
  by_contra hne
  push Not at hne
  have := (h.spent (by simpa using hne.1) (by omega)).was
  rw [hwas] at this
  cases this

end Paced

/-! ### What the frames show -/

/-- The frame shows the newest commit, and its surface is there. -/
def State.Ready (s : State n σ κ) (f : PendingScanout) : Prop :=
  f.shadowIdx < shadowSlots ∧ s.pool.inflight ≠ some f.shadowIdx ∧
    ∃ c, s.committed = some c ∧ s.pool.shows f = some c

/-- The frame the worker ends with arms a repaint of its own, or was encoded in full. -/
def State.Replaces (s : State n σ κ) : Prop :=
  match s.scan with
  | .encoded _ was full _ | .returned _ was full =>
      was = true ∨ full = true ∨ ∃ i, 0 < s.dirtyTtl i
  | _ => False

/-- Where the newest commit is once it is neither being copied nor pending. -/
def State.Taken (s : State n σ κ) : Prop :=
  match s.scan with
  | .holding f => (∀ c, s.pool.shows f = some c → s.committed = some c) ∧
      (s.submitted = s.committed ∨ s.Ready f)
  | .claimed f _ shadow => s.committed = some ⟨f.rotation, shadow.pixels⟩
  | _ => s.submitted = s.committed

/-- The frame in hand has been submitted, or is the one that was. -/
def State.Sent (s : State n σ κ) : Prop :=
  match s.scan with
  | .encoded f _ _ shadow => s.submitted = some ⟨f.rotation, shadow.pixels⟩
  | .returned f _ _ => ∀ c, s.pool.shows f = some c → s.submitted = some c
  | _ => True

namespace State

variable {s : State n σ κ}

theorem taken_of_hand (h : s.scan.hand = none) : s.Taken ↔ s.submitted = s.committed := by
  unfold Taken
  split
  next hscan => rw [hscan] at h; cases h
  next hscan => rw [hscan] at h; cases h
  next => rfl

theorem not_replaces_of_ended (h : s.scan.ended = false) : ¬ s.Replaces := by
  unfold Replaces
  split
  next hscan => rw [hscan] at h; cases h
  next hscan => rw [hscan] at h; cases h
  next => exact id

theorem sent_of_ended (h : s.scan.ended = false) : s.Sent := by
  unfold Sent
  split
  next hscan => rw [hscan] at h; cases h
  next hscan => rw [hscan] at h; cases h
  next => trivial

end State

structure Shown (s : State n σ κ) : Prop where
  source : ∀ c, s.call.source = some c → s.committed = some c
  frame : ∀ f, s.call.frame = some f → s.Ready f
  pending : s.call = .idle → ∀ f, s.pendingScanout = some f → s.Ready f
  taken : s.call = .idle → s.pendingScanout = none → s.Taken
  sent : s.Sent
  settle : ∀ f asKeyframe c, s.settleRepaint = some (f, asKeyframe) → s.pool.shows f = some c →
    s.submitted = some c ∨ s.Replaces
  baseline : s.stripHashes.isSome = true → ∃ r, s.submitted = some r ∧ r.rotation.identity = true

theorem shown_initial (arm : Bool) (sustain : Sustain) :
    Shown (State.initial arm sustain : State n σ κ) where
  source := nofun
  frame := nofun
  pending := nofun
  taken _ _ := rfl
  sent := trivial
  settle := nofun
  baseline := nofun

namespace Shown

variable {hash : Fin n → σ → κ} {s t : State n σ κ}

theorem queueScanout (h : Shown s) {c : Desktop n σ}
    (he : (Event.queueScanout c).Sound hash s) : Shown (s.queueScanout c) := by
  unfold State.queueScanout
  simp only [Event.Sound] at he
  split
  next hcall =>
    rw [hcall] at he
    split
    next hcoalesced =>
      refine ⟨?_, ?_, ?_, ?_, h.sent, h.settle, h.baseline⟩
      · intro _ hsource
        rw [hcall] at hsource
        cases hsource
      · intro _ hframe
        rw [hcall] at hframe
        cases hframe
      · intro _ f hf
        obtain ⟨hlt, hinflight, -⟩ := h.pending hcall f hf
        exact ⟨hlt, hinflight, c, rfl, he hcoalesced f hf⟩
      · intro _ hnone
        simp [State.coalesces, show s.pendingScanout = none from hnone] at hcoalesced
    next =>
      refine ⟨?_, nofun, nofun, nofun, h.sent, h.settle, h.baseline⟩
      rintro _ ⟨⟩
      rfl
  next => exact h

/-- While a call is under way only the repaint and the frame in hand matter. -/
theorem busy (h : Shown s) {pool : ShadowPool n σ κ} {rr : ℕ} {call : Call n σ κ}
    (hcall : call ≠ .idle) (hsource : ∀ c, call.source = some c → s.committed = some c)
    (hframe : ∀ f, call.frame = some f →
      { s with pool := pool, shadowRr := rr, call := call }.Ready f)
    (hpool : ∀ f ∈ s.frames, ∀ c, pool.shows f = some c → s.pool.shows f = some c) :
    Shown { s with pool := pool, shadowRr := rr, call := call } where
  source := hsource
  frame := hframe
  pending hc := absurd hc hcall
  taken hc := absurd hc hcall
  sent := by
    have hsent := h.sent
    unfold State.Sent at hsent ⊢
    dsimp only
    split
    next hscan =>
      rw [hscan] at hsent
      exact hsent
    next f _ _ hscan =>
      rw [hscan] at hsent
      intro c hc
      refine hsent c (hpool f ?_ c hc)
      simp [State.frames, hscan, Scan.hand]
    next => trivial
  settle f asKeyframe c hf hc := by
    refine h.settle f asKeyframe c hf (hpool f ?_ c hc)
    have hf' : s.settleRepaint = some (f, asKeyframe) := hf
    simp [State.frames, hf']
  baseline := h.baseline

theorem reserve (h : Shown s) (hp : Placed s) : Shown s.reserve := by
  unfold State.reserve
  split
  next c hcall =>
    split
    next idx hfree =>
      refine h.busy nofun ?_ nofun fun f _ c hc => (ShadowPool.shows_take hc).2
      rintro _ ⟨⟩
      exact h.source c (by rw [hcall]; rfl)
    next hnone =>
      have hwriting : s.pool.writing = none := by rw [hp.writing, hcall]; rfl
      exact absurd hnone (ShadowPool.freeSlot_ne_none hwriting _)
  next => exact h

theorem snapshot [DecidableEq κ] (h : Shown s) (hp : Placed s) {resized : Bool}
    (he : (Event.snapshot resized).Sound hash s) : Shown (s.snapshot hash resized) := by
  unfold State.snapshot
  simp only [Event.Sound] at he
  split
  next c idx surface hcall =>
    rw [hcall] at he
    obtain ⟨hlt, hinflight, -⟩ := hp.target idx (by rw [hcall]; rfl)
    have hcommitted : s.committed = some c := h.source c (by rw [hcall]; rfl)
    refine h.busy nofun nofun ?_ ?_
    · rintro f ⟨⟩
      refine ⟨hlt, hinflight, c, hcommitted, ShadowPool.shows_eq_some.mpr ⟨?_, rfl, ?_⟩⟩
      · dsimp only
        rw [ShadowPool.slots_store_self]
      · dsimp only
        rw [ShadowPool.slots_store_self]
        exact ⟨_, rfl, ShadowSurface.write_pixels he⟩
    · intro f hf c' hc'
      exact ShadowPool.shows_store (hp.bounded f hf) hc'
  next => exact h

theorem clearSettle (h : Shown s) : Shown s.clearSettle := by
  unfold State.clearSettle
  split
  next f hcall =>
    refine ⟨nofun, ?_, nofun, nofun, h.sent, nofun, h.baseline⟩
    rintro g ⟨⟩
    exact h.frame f (by rw [hcall]; rfl)
  next => exact h

theorem publish (h : Shown s) : Shown s.publish := by
  unfold State.publish
  split
  next f hcall =>
    refine ⟨nofun, nofun, ?_, nofun, h.sent, h.settle, h.baseline⟩
    rintro - g ⟨⟩
    exact h.frame f (by rw [hcall]; rfl)
  next => exact h

theorem settle_submitted (h : Shown s) (hended : s.scan.ended = false) {f : PendingScanout}
    {asKeyframe : Bool} {c : Desktop n σ} (hf : s.settleRepaint = some (f, asKeyframe))
    (hc : s.pool.shows f = some c) : s.submitted = some c :=
  (h.settle f asKeyframe c hf hc).resolve_right (State.not_replaces_of_ended hended)

/-- The worker moves while nothing it has encoded waits for its end. -/
theorem advance (h : Shown s) (hended : s.scan.ended = false) {queued keyframe : Bool}
    {pending : Option PendingScanout} {settle : Option (PendingScanout × Bool)} {scan : Scan n σ κ}
    (hnew : scan.ended = false) (hpending : pending = s.pendingScanout ∨ pending = none)
    (hsettle : settle = s.settleRepaint ∨ settle = none)
    (htaken : s.call = .idle → pending = none → { s with scan := scan }.Taken) :
    Shown { s with
      scanQueued := queued, keyframePending := keyframe, pendingScanout := pending,
      settleRepaint := settle, scan := scan } where
  source := h.source
  frame := h.frame
  pending hcall f hf := by
    refine h.pending hcall f ?_
    rcases hpending with hp | hp
    · exact hp ▸ hf
    · rw [show pending = some f from hf] at hp
      cases hp
  taken := htaken
  sent := State.sent_of_ended hnew
  settle f asKeyframe c hf hc := by
    refine Or.inl (h.settle_submitted hended (?_ : s.settleRepaint = some (f, asKeyframe)) hc)
    rcases hsettle with hs | hs
    · exact hs ▸ hf
    · rw [show settle = some (f, asKeyframe) from hf] at hs
      cases hs
  baseline := h.baseline

theorem move (h : Shown s) {queued : Bool} {scan : Scan n σ κ} (hold : s.scan.hand = none)
    (hnew : scan.hand = none) : Shown { s with scanQueued := queued, scan := scan } := by
  refine h.advance (Scan.ended_of_hand hold) (Scan.ended_of_hand hnew) (Or.inl rfl) (Or.inl rfl) ?_
  intro hcall hnone
  exact (State.taken_of_hand hnew).mpr ((State.taken_of_hand hold).mp (h.taken hcall hnone))

theorem moves (h : Shown s) (hm : s.Moves t) : Shown t := by
  rcases hm with rfl | ⟨queued, scan, hold, hnew, rfl⟩
  · exact h
  · exact h.move hold hnew

theorem selectSettle (h : Shown s) (hscan : s.scan = .selecting) (settleDue : Bool) :
    Shown (s.selectSettle settleDue) := by
  have hhand : s.scan.hand = none := by rw [hscan]; rfl
  have hended : s.scan.ended = false := by rw [hscan]; rfl
  unfold State.selectSettle
  split
  next f asKeyframe hsettle =>
    split
    · refine h.advance hended rfl (Or.inl rfl) (Or.inr rfl) fun hcall hnone => ?_
      have hsame := (State.taken_of_hand hhand).mp (h.taken hcall hnone)
      refine ⟨fun c hc => ?_, Or.inl hsame⟩
      exact hsame.symm.trans (h.settle_submitted hended hsettle hc)
    · exact h.move hhand rfl
  next =>
    refine h.move hhand ?_
    split <;> rfl

theorem selectScanout (h : Shown s) (budgetWait cadenceDue settleDue : Bool) :
    Shown (s.selectScanout budgetWait cadenceDue settleDue) := by
  unfold State.selectScanout
  split
  next hscan =>
    split
    · exact h.move (by rw [hscan]; rfl) rfl
    · split
      next f hpending =>
        split
        · refine h.advance (by rw [hscan]; rfl) rfl (Or.inr rfl) (Or.inl rfl) fun hcall _ => ?_
          have hready := h.pending hcall f hpending
          refine ⟨fun c hc => ?_, Or.inr hready⟩
          obtain ⟨-, -, c', hcommitted, hshows⟩ := hready
          exact hcommitted.trans (hshows.symm.trans hc)
        · exact h.selectSettle hscan settleDue
      next => exact h.selectSettle hscan settleDue
  next => exact h

/-- The pool changes in the slot of the frame in hand only. -/
theorem ready_of_ne {f g : PendingScanout} {pool : ShadowPool n σ κ} (hready : s.Ready g)
    (hpool : t.pool = pool) (hcommitted : t.committed = s.committed)
    (hinflight : pool.inflight = some f.shadowIdx ∨ pool.inflight = none)
    (hslots : ∀ i ≠ f.shadowIdx, pool.slots i = s.pool.slots i)
    (hne : g.shadowIdx ≠ f.shadowIdx) : t.Ready g := by
  obtain ⟨hlt, -, c, hc, hshows⟩ := hready
  refine ⟨hlt, ?_, c, hcommitted.trans hc, ?_⟩
  · rw [hpool]
    rcases hinflight with hi | hi
    · rw [hi]
      exact fun he => hne (Option.some_inj.mp he).symm
    · rw [hi]
      exact nofun
  · rw [hpool, ShadowPool.shows_eq_some, hslots _ hne]
    exact ShadowPool.shows_eq_some.mp hshows

theorem drop (h : Shown s) {f : PendingScanout} (hscan : s.scan = .holding f)
    (hnot : ¬ s.Ready f) : Shown { s with scan := .top } := by
  refine h.advance (by rw [hscan]; rfl) rfl (Or.inl rfl) (Or.inl rfl) fun hcall hnone => ?_
  have htaken := h.taken hcall hnone
  unfold State.Taken at htaken
  rw [hscan] at htaken
  exact htaken.2.resolve_right hnot

theorem claim (h : Shown s) (hp : Placed s) : Shown s.claim := by
  unfold State.claim
  split
  next f hscan =>
    have hhand : s.scan.hand = some f := by rw [hscan]; rfl
    have hended : s.scan.ended = false := by rw [hscan]; rfl
    have hidle : s.pool.inflight = none := by rw [hp.inflight, hscan]; rfl
    split
    next hvalid =>
      split
      next shadow hshadow =>
        have hshows : s.pool.shows f = some ⟨f.rotation, shadow.pixels⟩ := by
          unfold ShadowPool.shows
          rw [hshadow]
          rfl
        have hgen := (ShadowPool.shows_eq_some.mp hshows).1
        have hready : ∀ {g}, s.pendingScanout = some g ∨ s.call.frame = some g → s.Ready g →
            { s with
              pool := { s.pool.take f.shadowIdx with inflight := some f.shadowIdx }
              scan := .claimed f s.keyframePending shadow }.Ready g := by
          intro g hg hr
          exact ready_of_ne hr rfl rfl (Or.inl rfl) (fun i hi => ShadowPool.slots_take_ne hi)
            (hp.newer_ne hhand hgen hg)
        refine ⟨h.source, ?_, ?_, ?_, trivial, ?_, h.baseline⟩
        · exact fun g hg => hready (Or.inr hg) (h.frame g hg)
        · exact fun hcall g hg => hready (Or.inl hg) (h.pending hcall g hg)
        · intro hcall hnone
          have htaken := h.taken hcall hnone
          unfold State.Taken at htaken
          rw [hscan] at htaken
          exact htaken.1 _ hshows
        · intro g asKeyframe c hg hc
          exact Or.inl (h.settle_submitted hended hg (ShadowPool.shows_take hc).2)
      next hnone =>
        refine h.drop hscan fun hr => ?_
        obtain ⟨-, -, c, -, hc⟩ := hr
        unfold ShadowPool.shows at hc
        rw [hnone] at hc
        cases hc
    next hinvalid =>
      refine h.drop hscan fun hr => hinvalid ⟨hr.1, ?_⟩
      rw [hidle]
      rfl
  next => exact h

theorem giveBack (h : Shown s) (hp : Placed s) (unique : Bool) :
    Shown (s.giveBack unique) := by
  unfold State.giveBack
  split
  next f was full shadow hscan =>
    have hhand : s.scan.hand = some f := by rw [hscan]; rfl
    have hlent : s.scan.lent = some f := by rw [hscan]; rfl
    obtain ⟨hgen, hnone⟩ := hp.lent f hlent
    have hinflight : s.pool.inflight = some f.shadowIdx := by rw [hp.inflight, hlent]; rfl
    rw [ShadowPool.restore_eq hinflight hgen hnone]
    have hsent : s.submitted = some ⟨f.rotation, shadow.pixels⟩ := by
      have := h.sent
      unfold State.Sent at this
      rwa [hscan] at this
    have hready : ∀ {g}, s.pendingScanout = some g ∨ s.call.frame = some g → s.Ready g →
        { s with
          pool := { s.pool with
            slots := Function.update s.pool.slots f.shadowIdx
              ⟨f.shadowGeneration, if unique then some shadow else none⟩
            inflight := none }
          scan := .returned f was full }.Ready g := by
      intro g hg hr
      refine ready_of_ne hr rfl rfl (Or.inr rfl) (fun i hi => ?_) (hp.newer_ne hhand hgen hg)
      exact Function.update_of_ne hi _ _
    refine ⟨h.source, ?_, ?_, ?_, ?_, ?_, h.baseline⟩
    · exact fun g hg => hready (Or.inr hg) (h.frame g hg)
    · exact fun hcall g hg => hready (Or.inl hg) (h.pending hcall g hg)
    · intro hcall hpending
      have htaken := h.taken hcall hpending
      unfold State.Taken at htaken
      rwa [hscan] at htaken
    · intro c hc
      obtain ⟨-, hrotation, back, hsurface, hpixels⟩ := ShadowPool.shows_eq_some.mp hc
      dsimp only at hsurface
      rw [Function.update_self] at hsurface
      have hstrips : shadow.pixels = c.strips := by
        cases unique with
        | true => rwa [show shadow = back by simpa using hsurface]
        | false => cases hsurface
      rw [show s.submitted = _ from hsent, hstrips, ← hrotation]
    · intro g asKeyframe c hg hc
      have holder := hp.older_settle hg hhand
      have hne : g.shadowIdx ≠ f.shadowIdx := by
        intro he
        have hgen' := (ShadowPool.shows_eq_some.mp hc).1
        dsimp only at hgen'
        rw [he, Function.update_self] at hgen'
        exact absurd (holder he) (by dsimp only at hgen'; omega)
      have hc' : s.pool.shows g = some c := by
        rw [ShadowPool.shows_eq_some] at hc ⊢
        dsimp only at hc
        rwa [Function.update_of_ne hne] at hc
      refine (h.settle g asKeyframe c hg hc').imp_right fun hr => ?_
      unfold State.Replaces at hr ⊢
      rwa [hscan] at hr
  next => exact h

/-- A frame that is encoded as a delta has a baseline: the snapshot last submitted. -/
theorem delta_baseline (h : Shown s) {f : PendingScanout} (hfull : s.full f = false) :
    ∃ r b, s.submitted = some r ∧ r.rotation = f.rotation ∧ s.stripHashes = some b := by
  unfold State.full at hfull
  simp only [Bool.or_eq_false_iff, Bool.not_eq_false', Option.isNone_eq_false_iff] at hfull
  obtain ⟨b, hb⟩ := Option.isSome_iff_exists.mp hfull.2
  obtain ⟨r, hr, hidentity⟩ := h.baseline hfull.2
  exact ⟨r, b, hr, Rotation.eq_of_identity hidentity hfull.1.2, hb⟩

/-- A strip that moved is charged. -/
theorem debt_moved [DecidableEq κ] (damageFrames : ℕ) {f : PendingScanout}
    {shadow : ShadowSurface n σ κ} {r : Desktop n σ} {b : Fin n → κ} (hfull : s.full f = false)
    (hbaseline : s.stripHashes = some b)
    (hcollision : ∀ i, b i = shadow.hashes i → shadow.pixels i = r.strips i)
    (hne : shadow.pixels ≠ r.strips) : ∃ i, s.debt damageFrames f shadow i = damageFrames := by
  obtain ⟨i, hi⟩ := Function.ne_iff.mp hne
  refine ⟨i, ?_⟩
  unfold State.debt State.charged
  rw [hfull, hbaseline]
  have hhash : b i ≠ shadow.hashes i := fun he => hi (hcollision i he)
  simp [hhash]

theorem encodeAndSend [DecidableEq κ] (h : Shown s) {damageFrames : ℕ}
    (hframes : 2 ≤ damageFrames) {described : Bool}
    (he : (Event.encodeAndSend described).Sound hash s) :
    Shown (s.encodeAndSend damageFrames described) := by
  unfold State.encodeAndSend
  simp only [Event.Sound] at he
  split
  next f was shadow hscan =>
    rw [hscan] at he
    obtain ⟨hdescribed, hcollision⟩ := he
    have hended : s.scan.ended = false := by rw [hscan]; rfl
    have htaken : s.call = .idle → s.pendingScanout = none →
        s.committed = some ⟨f.rotation, shadow.pixels⟩ := by
      intro hcall hnone
      have := h.taken hcall hnone
      unfold State.Taken at this
      rwa [hscan] at this
    rw [if_pos hdescribed]
    dsimp only
    split
    next =>
      refine ⟨h.source, h.frame, h.pending, ?_, rfl, ?_, ?_⟩
      · exact fun hcall hnone => (htaken hcall hnone).symm
      · intro g asKeyframe c hg hc
        have hsubmitted : s.submitted = some c := h.settle_submitted hended hg hc
        by_cases hfull : s.full f = true
        · exact Or.inr (Or.inr (Or.inl hfull))
        · have hdelta : s.full f = false := by simpa using hfull
          obtain ⟨r, b, hr, hrotation, hbaseline⟩ := h.delta_baseline hdelta
          have hcr : c = r := Option.some_inj.mp (hsubmitted.symm.trans hr)
          by_cases hsame : shadow.pixels = r.strips
          · left
            change some (⟨f.rotation, shadow.pixels⟩ : Desktop n σ) = some c
            rw [hcr, hsame, ← hrotation]
          · obtain ⟨i, hi⟩ := debt_moved damageFrames hdelta hbaseline
              (hcollision b hbaseline r hr) hsame
            refine Or.inr (Or.inr (Or.inr ⟨i, ?_⟩))
            have hpaid : payDamageDebt (s.full f) (s.debt damageFrames f shadow) i =
                damageFrames - 1 := by
              simp [payDamageDebt, hdelta, hi]
            change 0 < payDamageDebt (s.full f) (s.debt damageFrames f shadow) i
            rw [hpaid]
            omega
      · intro hb
        simp only [State.submit] at hb
        split at hb
        next hidentity => exact ⟨_, rfl, hidentity⟩
        next => cases hb
    next hnothing =>
      push Not at hnothing
      have hdelta : s.full f = false := by simpa using hnothing.1
      obtain ⟨r, b, hr, hrotation, hbaseline⟩ := h.delta_baseline hdelta
      -- Nothing is owed, so no strip has moved.
      have hsame : shadow.pixels = r.strips := by
        by_contra hne
        obtain ⟨i, hi⟩ := debt_moved damageFrames hdelta hbaseline
          (hcollision b hbaseline r hr) hne
        have := hnothing.2 i
        omega
      have hsent : s.submitted = some ⟨f.rotation, shadow.pixels⟩ := by
        rw [hr, hsame, ← hrotation]
      refine ⟨h.source, h.frame, h.pending, ?_, hsent, ?_, h.baseline⟩
      · exact fun hcall hnone => hsent.trans (htaken hcall hnone).symm
      · exact fun g asKeyframe c hg hc => Or.inl (h.settle_submitted hended hg hc)
  next => exact h

/-- Behind the frame in hand the worker arms a repaint of it, or leaves one that shows the same. -/
theorem armSettle {keepalive : Bool} (h : Shown s) (hpaced : Paced keepalive s)
    (he : (Event.armSettle : Event n σ).Sound hash s) : Shown (s.armSettle keepalive) := by
  unfold State.armSettle
  simp only [Event.Sound] at he
  split
  next f was full hscan =>
    have hsent : ∀ c, s.pool.shows f = some c → s.submitted = some c := by
      have := h.sent
      unfold State.Sent at this
      rwa [hscan] at this
    have htaken : s.call = .idle → s.pendingScanout = none → s.submitted = s.committed := by
      intro hcall hnone
      have := h.taken hcall hnone
      unfold State.Taken at this
      rwa [hscan] at this
    have harm : ∀ (asKeyframe : Bool) (budget : ℕ),
        Shown { s with
          scan := .top, settleRepaint := some (f, asKeyframe), settleBudget := budget } := by
      intro asKeyframe budget
      refine ⟨h.source, h.frame, h.pending, htaken, trivial, ?_, h.baseline⟩
      rintro g _ c ⟨⟩ hc
      exact Or.inl (hsent c hc)
    dsimp only
    split
    next hwas =>
      split
      next => exact harm true s.settleBudget
      next hbudgeted =>
        have hcharged : 0 < s.settleBudget := by
          refine (hpaced.charged (by rw [hscan]; exact hwas)).resolve_left fun hk => ?_
          exact hbudgeted (by simp [hk])
        rw [if_pos hcharged]
        exact harm false _
    next hwas =>
      split
      next => exact harm false s.settleBudget
      next hpaid =>
        refine ⟨h.source, h.frame, h.pending, htaken, trivial, ?_, h.baseline⟩
        intro g asKeyframe c hg hc
        left
        rcases h.settle g asKeyframe c hg hc with hsubmitted | hreplaces
        · exact hsubmitted
        · unfold State.Replaces at hreplaces
          rw [hscan] at hreplaces
          rcases hreplaces with hw | hfull | howed
          · exact absurd hw hwas
          · have hfalse : was = false := by simpa using hwas
            rw [hscan, hfalse, hfull] at he
            exact he (g, asKeyframe) hg c hc
          · exact absurd howed hpaid
  next => exact h

end Shown

/-! ### Runs -/

/-- What holds between any two steps. -/
structure Inv (keepalive : Bool) (s : State n σ κ) : Prop where
  placed : Placed s
  paced : Paced keepalive s
  shown : Shown s

theorem inv_initial (keepalive arm : Bool) (sustain : Sustain) :
    Inv keepalive (State.initial arm sustain : State n σ κ) where
  placed := ⟨List.Pairwise.nil, nofun, rfl, nofun, rfl, nofun⟩
  paced := ⟨nofun, nofun, nofun⟩
  shown := shown_initial arm sustain

/-- Every profile charges a strip that moved for more than the frame that carries it. -/
theorem two_le_damageFrames {d : Dock} (hd : d.Known) : 2 ≤ d.damageFrames := by
  unfold Dock.damageFrames
  rcases hd.1 with h | h | h <;> rw [h] <;> decide

theorem inv_step [DecidableEq κ] {hash : Fin n → σ → κ} {d : Dock} (hd : d.Known) {keepalive : Bool}
    {s : State n σ κ} {e : Event n σ} (h : Inv keepalive s) (he : e.Sound hash s) :
    Inv keepalive (step hash d keepalive s e) := by
  obtain ⟨hplaced, hpaced, hshown⟩ := h
  refine ⟨hplaced.step hash d keepalive e, ?_, ?_⟩
  · cases e with
    | queueScanout c => exact hpaced.queueScanout c
    | reserve => exact hpaced.reserve
    | snapshot resized => exact hpaced.snapshot hash resized
    | clearSettle => exact hpaced.clearSettle
    | publish => exact hpaced.publish
    | scanStart => exact hpaced.moves (scanStart_moves s)
    | scanCheck blocked => exact hpaced.moves (scanCheck_moves s blocked)
    | selectScanout budgetWait cadenceDue settleDue =>
      exact hpaced.selectScanout budgetWait cadenceDue settleDue
    | scanWake => exact hpaced.moves (scanWake_moves s)
    | scanLeave => exact hpaced.moves (scanLeave_moves s)
    | claim => exact hpaced.claim
    | encodeAndSend described =>
      exact hpaced.encodeAndSend_of_sound he
    | giveBack unique => exact hpaced.giveBack unique
    | armSettle => exact hpaced.armSettle
    | expire => exact hpaced.expire
  · cases e with
    | queueScanout c => exact hshown.queueScanout he
    | reserve => exact hshown.reserve hplaced
    | snapshot resized => exact hshown.snapshot hplaced he
    | clearSettle => exact hshown.clearSettle
    | publish => exact hshown.publish
    | scanStart => exact hshown.moves (scanStart_moves s)
    | scanCheck blocked => exact hshown.moves (scanCheck_moves s blocked)
    | selectScanout budgetWait cadenceDue settleDue =>
      exact hshown.selectScanout budgetWait cadenceDue settleDue
    | scanWake => exact hshown.moves (scanWake_moves s)
    | scanLeave => exact hshown.moves (scanLeave_moves s)
    | claim => exact hshown.claim hplaced
    | encodeAndSend described => exact hshown.encodeAndSend (two_le_damageFrames hd) he
    | giveBack unique => exact hshown.giveBack hplaced unique
    | armSettle => exact hshown.armSettle hpaced he
    | expire =>
      exact ⟨hshown.source, hshown.frame, hshown.pending, hshown.taken, hshown.sent, hshown.settle,
        hshown.baseline⟩

/-- **No committed flip is lost.**  Whenever no call of `queue_scanout` is under way, no frame is
pending or armed and the worker is not running, the dock was last sent the newest commit. -/
theorem newest_submitted [DecidableEq κ] (hash : Fin n → σ → κ) {d : Dock} (hd : d.Known)
    (keepalive arm : Bool) (sustain : Sustain) (es : List (Event n σ))
    (h : Along (fun s e => e.Sound hash s) (step hash d keepalive)
      (State.initial arm sustain : State n σ κ) es) :
    let s := run (step hash d keepalive) (State.initial arm sustain : State n σ κ) es
    s.call = .idle → s.pendingScanout = none → s.settleRepaint = none → s.scan = .idle →
      s.submitted = s.committed := by
  intro s hcall hpending _ hscan
  have hinv : Inv keepalive s :=
    run_invariant (P := Inv keepalive) (fun _ _ hs he => inv_step hd hs he) es _
      (inv_initial keepalive arm sustain) h
  exact (State.taken_of_hand (by rw [hscan]; rfl)).mp (hinv.shown.taken hcall hpending)

/-! ### The last commit before the compositor goes idle -/

instance decidableSound [DecidableEq σ] [DecidableEq κ] (hash : Fin n → σ → κ) (s : State n σ κ) :
    ∀ e : Event n σ, Decidable (e.Sound hash s)
  | .queueScanout _ | .snapshot _ | .encodeAndSend _ | .armSettle => by
      unfold Event.Sound
      dsimp only
      split <;> infer_instance
  | .reserve | .clearSettle | .publish | .scanStart | .scanCheck _
  | .selectScanout .. | .scanWake | .scanLeave | .claim | .giveBack _ | .expire => .isTrue trivial

/-- An upright desktop of one strip. -/
def upright (strip : ℕ) : Desktop 1 ℕ := ⟨⟨.rotate0, false, false⟩, fun _ => strip⟩

/-- A commit is copied and published. -/
def flip (strip : ℕ) : List (Event 1 ℕ) :=
  [.queueScanout (upright strip), .reserve, .snapshot false, .clearSettle, .publish]

/-- The worker takes the pending frame, or a repaint that is due. -/
def frameSent : List (Event 1 ℕ) :=
  [.scanCheck false, .selectScanout false true true, .claim, .encodeAndSend true, .giveBack true,
    .armSettle]

/-- The worker finds nothing and goes. -/
def workerGone : List (Event 1 ℕ) := [.scanCheck false, .selectScanout false true true, .scanLeave]

/-- A keyframe, and the repaint behind it, which has nothing to send. -/
def firstFlip : List (Event 1 ℕ) := [flip 7, [.scanStart], frameSent, frameSent, workerGone].flatten

/-- A desktop that moved once more: a delta, and the repaints that pay its debt. -/
def secondFlip : List (Event 1 ℕ) :=
  [firstFlip, flip 8, [.queueScanout (upright 8), .scanStart], frameSent, frameSent, frameSent,
    workerGone].flatten

def ridge : Dock := ⟨profileRidge, false, false⟩

/-- What the dock was sent behind a run. -/
def behind (es : List (Event 1 ℕ)) : State 1 ℕ ℕ :=
  run (step (fun _ => id) ridge false) (State.initial true .none) es

theorem newest_submitted_secondFlip :
    (behind secondFlip).committed = some (upright 8) ∧
      (behind secondFlip).submitted = (behind secondFlip).committed := by
  refine ⟨by decide +kernel, ?_⟩
  have hridge : ridge.Known := ⟨Or.inr (Or.inl rfl), nofun⟩
  exact newest_submitted (fun _ => id) hridge false true .none secondFlip (by decide +kernel)
    (by decide +kernel) (by decide +kernel) (by decide +kernel) (by decide +kernel)

/-- Two commits while the worker waits for the cadence: the second finds the frame of the first
unclaimed and is not copied; the worker then sends the first and goes idle. -/
def coalescedFlip : List (Event 1 ℕ) :=
  [firstFlip, flip 8, [.queueScanout (upright 9), .scanStart], frameSent, frameSent, frameSent,
    workerGone].flatten

theorem final_commit_lost :
    (behind coalescedFlip).call = .idle ∧ (behind coalescedFlip).pendingScanout = none ∧
      (behind coalescedFlip).settleRepaint = none ∧ (behind coalescedFlip).scan = .idle ∧
      (behind coalescedFlip).scanQueued = false ∧
      (behind coalescedFlip).submitted = some (upright 8) ∧
      (behind coalescedFlip).committed = some (upright 9) := by
  refine ⟨?_, ?_, ?_, ?_, ?_, ?_, ?_⟩ <;> decide +kernel

/-- A desktop that is turned while the worker ends its keyframe: the repaint of the upright frame is
armed behind the flip that should have dropped it, and goes out over the turned one. -/
def turnedFlip : List (Event 1 ℕ) :=
  [flip 7, [.scanStart, .scanCheck false, .selectScanout false true true, .claim,
      .encodeAndSend true, .giveBack true, .queueScanout ⟨⟨.rotate180, false, false⟩, fun _ => 8⟩,
      .reserve, .snapshot false, .clearSettle, .armSettle, .publish],
    frameSent, frameSent, workerGone].flatten

example : (behind turnedFlip).scan = .idle ∧ (behind turnedFlip).pendingScanout = none ∧
    (behind turnedFlip).settleRepaint = none ∧
    (behind turnedFlip).submitted = some (upright 7) := by
  refine ⟨?_, ?_, ?_, ?_⟩ <;> decide +kernel

end Vino.Kms.Shadow
