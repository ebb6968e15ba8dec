import Vino.Lib.Run

/-!
# Shadow Surfaces on Loan

A connector has three shadow slots.  A commit reserves one and takes its surface, copies the
framebuffer into it with the pool unlocked and puts it back under a new generation; the scanout
worker claims the surface a frame names by slot and generation, lends it to the encoder and gives
it back.  A disable or an unplug discards every surface at any point.  Copies, bindings,
allocations and encodes may fail.

* `pool_owned`: in every run a reserved slot is not handed out again, the encoder reads what the
  snapshot named by its frame has stored, nothing a snapshot has stored is replaced by a surface
  that is given back, and a reservation stands only as long as the call or the frame it was made
  for.
-/

namespace Vino.Kms.Loans

open Vino.Lib.Run

/-! ### The pool -/

/-- A shadow surface: its size, and its pixels with their strip hashes. -/
structure Surface (ρ : Type) where
  w : ℕ
  h : ℕ
  content : ρ

structure ShadowSlot (ρ : Type) where
  generation : ℕ
  /-- Missing while it is lent out. -/
  surface : Option (Surface ρ)

def shadowSlots : ℕ := 3

structure ShadowPool (ρ : Type) where
  slots : ℕ → ShadowSlot ρ
  /-- The slot the encoder reads. -/
  inflight : Option ℕ
  /-- The slot a commit copies into. -/
  writing : Option ℕ

/-- A frame: the size of its source, and the snapshot it names. -/
structure Frame where
  w : ℕ
  h : ℕ
  shadowIdx : ℕ
  shadowGeneration : ℕ

/-- A snapshot that succeeded. -/
structure Snapshot (ρ : Type) where
  shadowIdx : ℕ
  shadowGeneration : ℕ
  surface : Surface ρ

/-- How far a call of `queue_scanout` has come. -/
inductive Call (ρ : Type) where
  | idle
  | reserving (w h : ℕ)
  /-- The slot is reserved and its surface taken. -/
  | copying (w h idx : ℕ)
  /-- The snapshot is in its slot. -/
  | snapped (f : Frame)

/-- How far the scanout worker has come with a frame. -/
inductive Scan (ρ : Type) where
  | idle
  | holding (f : Frame)
  /-- The surface is claimed; the pixel source is built over it. -/
  | claimed (f : Frame) (shadow : Surface ρ)
  | encoding (f : Frame) (shadow : Surface ρ)
  /-- The surface is given back. -/
  | returned (f : Frame)

structure State (ρ : Type) where
  pool : ShadowPool ρ
  shadowRr : ℕ
  call : Call ρ
  pendingScanout : Option Frame
  settleRepaint : Option Frame
  scan : Scan ρ
  /-- Every snapshot that succeeded. -/
  stored : List (Snapshot ρ)

variable {ρ : Type}

def State.initial : State ρ where
  pool := ⟨fun _ => ⟨0, none⟩, none, none⟩
  shadowRr := 0
  call := .idle
  pendingScanout := none
  settleRepaint := none
  scan := .idle
  stored := []

inductive Event (ρ : Type) where
  /-- A commit that is not coalesced. -/
  | queueScanout (w h : ℕ)
  /-- It reserves a slot; its framebuffer may fail to bind. -/
  | reserve (bound : Bool)
  /-- The copy is over: the content it has stored, or the surface a failed one leaves. -/
  | snapshot (r : Option ρ) (left : Option (Surface ρ))
  | publish (shuttingDown : Bool)
  /-- `ShadowPool::discard`. -/
  | discard
  /-- The frames are dropped. -/
  | drop
  /-- The worker takes the pending frame, or the armed repaint. -/
  | select (settle : Bool)
  | claim
  /-- The pixel source is allocated, or not. -/
  | build (ok : Bool)
  /-- `encode_and_send` is over and the surface goes back, if nothing else holds its pixels. -/
  | giveBack (unique : Bool)
  /-- The repaint of the frame is armed, or not. -/
  | arm (repaint : Bool)

/-! ### One step -/

namespace ShadowPool

variable (p : ShadowPool ρ)

/-- The first slot from `start` on that is neither encoded from nor written to. -/
def freeSlot (start : ℕ) : Option ℕ :=
  ((List.range shadowSlots).map fun i => (start + i) % shadowSlots).find? fun idx =>
    p.inflight ≠ some idx && p.writing ≠ some idx

def set (idx : ℕ) (slot : ShadowSlot ρ) : ShadowPool ρ :=
  { p with slots := Function.update p.slots idx slot }

/-- Take the surface out of a slot. -/
def take (idx : ℕ) : ShadowPool ρ := p.set idx { p.slots idx with surface := none }

/-- A surface goes into a slot behind a copy, under a new generation. -/
def store (idx : ℕ) (surface : Option (Surface ρ)) : ShadowPool ρ :=
  { p.set idx ⟨(p.slots idx).generation + 1, surface⟩ with writing := none }

def discard : ShadowPool ρ :=
  { p with slots := fun idx => ⟨(p.slots idx).generation + 1, none⟩ }

/-- The slot still has the surface the frame names, in the size of its source. -/
def valid (f : Frame) : Bool :=
  f.shadowIdx < shadowSlots && p.inflight.isNone &&
    (p.slots f.shadowIdx).generation == f.shadowGeneration &&
    (p.slots f.shadowIdx).surface.any fun surface => surface.w == f.w && surface.h == f.h

/-- The claim on a slot is over. -/
def release (f : Frame) : ShadowPool ρ :=
  if p.inflight = some f.shadowIdx then { p with inflight := none } else p

/-- Give the surface of a frame back, unless its slot has moved on. -/
def restore (f : Frame) (shadow : Option (Surface ρ)) : ShadowPool ρ :=
  if p.inflight = some f.shadowIdx then
    if (p.slots f.shadowIdx).generation = f.shadowGeneration ∧
        (p.slots f.shadowIdx).surface.isNone then
      { p.set f.shadowIdx { p.slots f.shadowIdx with surface := shadow } with inflight := none }
    else { p with inflight := none }
  else p

end ShadowPool

namespace State

variable (s : State ρ)

def reserve (bound : Bool) : State ρ :=
  match s.call with
  | .reserving w h =>
      match s.pool.freeSlot s.shadowRr with
      | some idx =>
          if bound then
            { s with
              pool := { s.pool.take idx with writing := some idx }
              shadowRr := s.shadowRr + 1
              call := .copying w h idx }
          else { s with shadowRr := s.shadowRr + 1, call := .idle }
      | none => { s with shadowRr := s.shadowRr + 1, call := .idle }
  | _ => s

/-- The slot gets its surface back whether the copy succeeded or not. -/
def snapshot (r : Option ρ) (left : Option (Surface ρ)) : State ρ :=
  match s.call with
  | .copying w h idx =>
      match r with
      | some content =>
          { s with
            pool := s.pool.store idx (some ⟨w, h, content⟩)
            call := .snapped ⟨w, h, idx, (s.pool.slots idx).generation + 1⟩
            stored := ⟨idx, (s.pool.slots idx).generation + 1, ⟨w, h, content⟩⟩ :: s.stored }
      | none => { s with pool := s.pool.store idx left, call := .idle }
  | _ => s

def publish (shuttingDown : Bool) : State ρ :=
  match s.call with
  | .snapped f =>
      if shuttingDown then { s with settleRepaint := none, call := .idle }
      else { s with settleRepaint := none, pendingScanout := some f, call := .idle }
  | _ => s

def select (settle : Bool) : State ρ :=
  match s.scan with
  | .idle =>
      match if settle then s.settleRepaint else s.pendingScanout with
      | some f =>
          if settle then { s with settleRepaint := none, scan := .holding f }
          else { s with pendingScanout := none, scan := .holding f }
      | none => s
  | _ => s

/-- The front of `run_pending_scanout`: validate the slot and take its surface. -/
def claim : State ρ :=
  match s.scan with
  | .holding f =>
      match (s.pool.slots f.shadowIdx).surface with
      | some shadow =>
          if s.pool.valid f then
            { s with
              pool := { s.pool.take f.shadowIdx with inflight := some f.shadowIdx }
              scan := .claimed f shadow }
          else { s with scan := .idle }
      | none => { s with scan := .idle }
  | _ => s

/-- Without a pixel source the surface is gone and the claim is over. -/
def build (ok : Bool) : State ρ :=
  match s.scan with
  | .claimed f shadow =>
      if ok then { s with scan := .encoding f shadow }
      else { s with pool := s.pool.release f, scan := .idle }
  | _ => s

def giveBack (unique : Bool) : State ρ :=
  match s.scan with
  | .encoding f shadow =>
      { s with
        pool := s.pool.restore f (if unique then some shadow else none)
        scan := .returned f }
  | _ => s

def arm (repaint : Bool) : State ρ :=
  match s.scan with
  | .returned f =>
      { s with settleRepaint := if repaint then some f else s.settleRepaint, scan := .idle }
  | _ => s

end State

/-- One step of the commit, of the worker or of a disable; a step that is not due changes
nothing. -/
def step (s : State ρ) : Event ρ → State ρ
  | .queueScanout w h =>
      match s.call with
      | .idle => { s with call := .reserving w h }
      | _ => s
  | .reserve bound => s.reserve bound
  | .snapshot r left => s.snapshot r left
  | .publish shuttingDown => s.publish shuttingDown
  | .discard => { s with pool := s.pool.discard }
  | .drop => { s with pendingScanout := none, settleRepaint := none }
  | .select settle => s.select settle
  | .claim => s.claim
  | .build ok => s.build ok
  | .giveBack unique => s.giveBack unique
  | .arm repaint => s.arm repaint

/-! ### What is on loan -/

/-- The slot a call copies into. -/
def Call.target : Call ρ → Option ℕ
  | copying _ _ idx => some idx
  | _ => none

/-- The frame a call is about to publish. -/
def Call.frame : Call ρ → Option Frame
  | snapped f => some f
  | _ => none

/-- The frame in the worker's hand. -/
def Scan.hand : Scan ρ → Option Frame
  | holding f | claimed f _ | encoding f _ | returned f => some f
  | idle => none

/-- The surface the encoder reads, and the frame it reads it for. -/
def Scan.reads : Scan ρ → Option (Frame × Surface ρ)
  | claimed f shadow | encoding f shadow => some (f, shadow)
  | _ => none

/-- The frames that may still be claimed. -/
def State.Around (s : State ρ) (f : Frame) : Prop :=
  s.pendingScanout = some f ∨ s.settleRepaint = some f ∨ s.call.frame = some f ∨
    s.scan.hand = some f

structure Inv (s : State ρ) : Prop where
  writing : s.pool.writing = s.call.target
  inflight : s.pool.inflight = s.scan.reads.map fun r => r.1.shadowIdx
  /-- A snapshot is not newer than its slot. -/
  known : ∀ e ∈ s.stored, e.shadowGeneration ≤ (s.pool.slots e.shadowIdx).generation
  unique : ∀ e ∈ s.stored, ∀ e' ∈ s.stored, e.shadowIdx = e'.shadowIdx →
    e.shadowGeneration = e'.shadowGeneration → e = e'
  frames : ∀ f, s.Around f → ∃ x, ⟨f.shadowIdx, f.shadowGeneration, x⟩ ∈ s.stored
  /-- A slot holds what the snapshot of its generation has stored. -/
  slots : ∀ e ∈ s.stored, ∀ x, (s.pool.slots e.shadowIdx).surface = some x →
    e.shadowGeneration = (s.pool.slots e.shadowIdx).generation → e.surface = x
  reads : ∀ r ∈ s.scan.reads, ⟨r.1.shadowIdx, r.1.shadowGeneration, r.2⟩ ∈ s.stored
  /-- A commit never copies into the slot being read. -/
  apart : ∀ idx, s.call.target = some idx → s.pool.inflight ≠ some idx
  taken : ∀ idx, s.call.target = some idx → (s.pool.slots idx).surface = none

variable {s : State ρ}

namespace ShadowPool

variable {p : ShadowPool ρ} {idx j : ℕ} {x : Surface ρ}

@[simp]
theorem take_generation : ((p.take idx).slots j).generation = (p.slots j).generation := by
  by_cases hj : j = idx
  · subst hj
    simp [take, set]
  · simp [take, set, hj]

theorem take_self : ((p.take idx).slots idx).surface = none := by
  simp [take, set]

theorem surface_of_take (h : ((p.take idx).slots j).surface = some x) :
    (p.slots j).surface = some x := by
  by_cases hj : j = idx
  · subst hj
    simp [take_self] at h
  · simpa [take, set, hj] using h

theorem take_of_none (h : (p.slots j).surface = none) :
    ((p.take idx).slots j).surface = none := by
  cases hx : ((p.take idx).slots j).surface with
  | none => rfl
  | some x => simp [surface_of_take hx] at h

theorem store_self {surface : Option (Surface ρ)} :
    (p.store idx surface).slots idx = ⟨(p.slots idx).generation + 1, surface⟩ := by
  simp [store, set]

theorem store_of_ne {surface : Option (Surface ρ)} (hj : j ≠ idx) :
    (p.store idx surface).slots j = p.slots j := by
  simp [store, set, hj]

end ShadowPool

/-- A slot that is handed out is not on loan. -/
theorem freeSlot_spec {p : ShadowPool ρ} {start idx : ℕ} (h : p.freeSlot start = some idx) :
    p.inflight ≠ some idx ∧ p.writing ≠ some idx := by
  simpa [ShadowPool.freeSlot] using List.find?_some h

/-- A step that leaves the pool and the snapshots alone, and invents no frame. -/
theorem Inv.same {s' : State ρ} (h : Inv s) (hpool : s'.pool = s.pool)
    (hstored : s'.stored = s.stored) (htarget : s'.call.target = s.call.target)
    (hreads : s'.scan.reads = s.scan.reads) (haround : ∀ f, s'.Around f → s.Around f) :
    Inv s' where
  writing := by rw [hpool, htarget, h.writing]
  inflight := by rw [hpool, hreads, h.inflight]
  known := by
    rw [hpool, hstored]
    exact h.known
  unique := by
    rw [hstored]
    exact h.unique
  frames f hf := by
    rw [hstored]
    exact h.frames f (haround f hf)
  slots := by
    rw [hpool, hstored]
    exact h.slots
  reads := by
    rw [hreads, hstored]
    exact h.reads
  apart := by
    rw [hpool, htarget]
    exact h.apart
  taken := by
    rw [hpool, htarget]
    exact h.taken

theorem inv_initial : Inv (State.initial : State ρ) where
  writing := rfl
  inflight := rfl
  known := by simp [State.initial]
  unique := by simp [State.initial]
  frames := by simp [State.initial, State.Around, Call.frame, Scan.hand]
  slots := by simp [State.initial]
  reads := by simp [State.initial, Scan.reads]
  apart := by simp [State.initial, Call.target]
  taken := by simp [State.initial, Call.target]

/-! ### A commit -/

theorem inv_queueScanout {w h : ℕ} (hs : Inv s) : Inv (step s (.queueScanout w h)) := by
  simp only [step]
  split
  · rename_i hcall
    refine hs.same rfl rfl ?_ rfl ?_
    · simp [hcall, Call.target]
    · simp [State.Around, hcall, Call.frame]
  · exact hs

theorem inv_reserve {bound : Bool} (hs : Inv s) : Inv (s.reserve bound) := by
  simp only [State.reserve]
  split
  · rename_i w h hcall
    have hidle : Inv { s with shadowRr := s.shadowRr + 1, call := .idle } := by
      refine hs.same rfl rfl ?_ rfl ?_
      · simp [hcall, Call.target]
      · simp [State.Around, hcall, Call.frame]
    split
    · rename_i idx hidx
      split
      · exact {
          writing := rfl
          inflight := hs.inflight
          known := fun e he => by simpa using hs.known e he
          unique := hs.unique
          frames := fun f hf => hs.frames f (by simpa [State.Around, hcall, Call.frame] using hf)
          slots := fun e he x hx hg =>
            hs.slots e he x (ShadowPool.surface_of_take hx) (by simpa using hg)
          reads := hs.reads
          apart := by
            intro j hj
            obtain rfl : idx = j := by simpa [Call.target] using hj
            exact (freeSlot_spec hidx).1
          taken := by
            intro j hj
            obtain rfl : idx = j := by simpa [Call.target] using hj
            exact ShadowPool.take_self }
      · exact hidle
    · exact hidle
  · exact hs

/-- No snapshot of the slot is as new as the surface that goes in next. -/
theorem Inv.fresh (hs : Inv s) {e : Snapshot ρ} (he : e ∈ s.stored) {idx : ℕ}
    (hidx : e.shadowIdx = idx) : e.shadowGeneration ≠ (s.pool.slots idx).generation + 1 := by
  have hle := hs.known e he
  rw [hidx] at hle
  omega

/-- A surface that goes in under a new generation replaces nothing a frame may name. -/
theorem Inv.slots_store (hs : Inv s) (idx : ℕ) (surface : Option (Surface ρ)) {e : Snapshot ρ}
    (he : e ∈ s.stored) {x : Surface ρ}
    (hx : ((s.pool.store idx surface).slots e.shadowIdx).surface = some x)
    (hg : e.shadowGeneration = ((s.pool.store idx surface).slots e.shadowIdx).generation) :
    e.surface = x := by
  by_cases hidx : e.shadowIdx = idx
  · rw [hidx, ShadowPool.store_self] at hg
    exact absurd hg (hs.fresh he hidx)
  · rw [ShadowPool.store_of_ne hidx] at hx hg
    exact hs.slots e he x hx hg

theorem Inv.known_store (hs : Inv s) (idx : ℕ) (surface : Option (Surface ρ)) {e : Snapshot ρ}
    (he : e ∈ s.stored) :
    e.shadowGeneration ≤ ((s.pool.store idx surface).slots e.shadowIdx).generation := by
  have hle := hs.known e he
  by_cases hidx : e.shadowIdx = idx
  · rw [hidx, ShadowPool.store_self]
    rw [hidx] at hle
    exact hle.trans (Nat.le_succ _)
  · rwa [ShadowPool.store_of_ne hidx]

theorem inv_snapshot {r : Option ρ} {left : Option (Surface ρ)} (hs : Inv s) :
    Inv (s.snapshot r left) := by
  simp only [State.snapshot]
  split
  · rename_i w h idx hcall
    split
    · rename_i content
      exact {
        writing := rfl
        inflight := hs.inflight
        known := by
          intro e he
          rcases List.mem_cons.mp he with rfl | he
          · simp [ShadowPool.store_self]
          · exact hs.known_store idx _ he
        unique := by
          intro e he e' he' hidx hg
          rcases List.mem_cons.mp he with rfl | he <;>
            rcases List.mem_cons.mp he' with rfl | he'
          · rfl
          · exact absurd hg.symm (hs.fresh he' hidx.symm)
          · exact absurd hg (hs.fresh he hidx)
          · exact hs.unique e he e' he' hidx hg
        frames := by
          intro f hf
          by_cases hnew : f = ⟨w, h, idx, (s.pool.slots idx).generation + 1⟩
          · subst hnew
            exact ⟨_, List.mem_cons_self⟩
          · have hold : s.Around f := by
              rcases hf with hf | hf | hf | hf
              · exact .inl hf
              · exact .inr (.inl hf)
              · exact absurd (Option.some.inj hf).symm hnew
              · exact .inr (.inr (.inr hf))
            obtain ⟨x, hx⟩ := hs.frames f hold
            exact ⟨x, List.mem_cons_of_mem _ hx⟩
        slots := by
          intro e he x hx hg
          rcases List.mem_cons.mp he with rfl | he
          · simpa [ShadowPool.store_self] using hx
          · exact hs.slots_store idx _ he hx hg
        reads := fun r hr => List.mem_cons_of_mem _ (hs.reads r hr)
        apart := by simp [Call.target]
        taken := by simp [Call.target] }
    · exact {
        writing := rfl
        inflight := hs.inflight
        known := fun e he => hs.known_store idx _ he
        unique := hs.unique
        frames := by
          intro f hf
          refine hs.frames f ?_
          simpa [State.Around, hcall, Call.frame] using hf
        slots := fun e he x hx hg => hs.slots_store idx _ he hx hg
        reads := hs.reads
        apart := by simp [Call.target]
        taken := by simp [Call.target] }
  · exact hs

theorem inv_publish {shuttingDown : Bool} (hs : Inv s) : Inv (s.publish shuttingDown) := by
  simp only [State.publish]
  split
  · rename_i f hcall
    split
    · refine hs.same rfl rfl (by simp [hcall, Call.target]) rfl fun g hg => ?_
      rcases hg with hg | hg | hg | hg
      · exact .inl hg
      · simp at hg
      · simp [Call.frame] at hg
      · exact .inr (.inr (.inr hg))
    · refine hs.same rfl rfl (by simp [hcall, Call.target]) rfl fun g hg => ?_
      rcases hg with hg | hg | hg | hg
      · exact .inr (.inr (.inl (by rw [hcall]; exact hg)))
      · simp at hg
      · simp [Call.frame] at hg
      · exact .inr (.inr (.inr hg))
  · exact hs

/-! ### A disable -/

theorem inv_discard (hs : Inv s) : Inv { s with pool := s.pool.discard } where
  writing := hs.writing
  inflight := hs.inflight
  known e he := (hs.known e he).trans (Nat.le_succ _)
  unique := hs.unique
  frames := hs.frames
  slots e _ x hx := by simp [ShadowPool.discard] at hx
  reads := hs.reads
  apart := hs.apart
  taken := fun _ _ => rfl

theorem inv_drop (hs : Inv s) : Inv { s with pendingScanout := none, settleRepaint := none } := by
  refine hs.same rfl rfl rfl rfl fun f hf => ?_
  rcases hf with hf | hf | hf | hf
  · simp at hf
  · simp at hf
  · exact .inr (.inr (.inl hf))
  · exact .inr (.inr (.inr hf))

/-! ### The worker -/

theorem inv_select {settle : Bool} (hs : Inv s) : Inv (s.select settle) := by
  simp only [State.select]
  split
  · rename_i hscan
    split
    · rename_i f hf
      split
      · rename_i hsettle
        refine hs.same rfl rfl rfl (by simp [hscan, Scan.reads]) fun g hg => ?_
        rw [if_pos hsettle] at hf
        rcases hg with hg | hg | hg | hg
        · exact .inl hg
        · simp at hg
        · exact .inr (.inr (.inl hg))
        · exact .inr (.inl (by rw [hf]; exact hg))
      · rename_i hsettle
        refine hs.same rfl rfl rfl (by simp [hscan, Scan.reads]) fun g hg => ?_
        rw [if_neg hsettle] at hf
        rcases hg with hg | hg | hg | hg
        · simp at hg
        · exact .inr (.inl hg)
        · exact .inr (.inr (.inl hg))
        · exact .inl (by rw [hf]; exact hg)
    · exact hs
  · exact hs

/-- The worker lets its frame go. -/
theorem Inv.letGo (hs : Inv s) (hreads : s.scan.reads = none) : Inv { s with scan := .idle } := by
  refine hs.same rfl rfl rfl hreads.symm fun g hg => ?_
  rcases hg with hg | hg | hg | hg
  · exact .inl hg
  · exact .inr (.inl hg)
  · exact .inr (.inr (.inl hg))
  · simp [Scan.hand] at hg

theorem valid_spec {p : ShadowPool ρ} {f : Frame} (h : p.valid f = true) :
    p.inflight = none ∧ (p.slots f.shadowIdx).generation = f.shadowGeneration := by
  simp only [ShadowPool.valid, Bool.and_eq_true, Option.isNone_iff_eq_none, beq_iff_eq] at h
  exact ⟨h.1.1.2, h.1.2⟩

theorem inv_claim (hs : Inv s) : Inv s.claim := by
  simp only [State.claim]
  split
  · rename_i f hscan
    have hnone : s.scan.reads = none := by simp [hscan, Scan.reads]
    split
    · rename_i shadow hshadow
      split
      · rename_i hvalid
        obtain ⟨-, hgen⟩ := valid_spec hvalid
        obtain ⟨x, hx⟩ := hs.frames f (.inr (.inr (.inr (by simp [hscan, Scan.hand]))))
        obtain rfl : x = shadow := hs.slots _ hx shadow hshadow hgen.symm
        exact {
          writing := hs.writing
          inflight := rfl
          known := fun e he => by simpa using hs.known e he
          unique := hs.unique
          frames := fun g hg => hs.frames g (by simpa [State.Around, hscan, Scan.hand] using hg)
          slots := fun e he y hy hg =>
            hs.slots e he y (ShadowPool.surface_of_take hy) (by simpa using hg)
          reads := by
            rintro r hr
            obtain rfl : (f, x) = r := by simpa [Scan.reads] using hr
            exact hx
          apart := by
            -- the slot a commit copies into has no surface, so that it cannot be claimed
            intro idx hidx heq
            obtain rfl : f.shadowIdx = idx := by simpa using heq
            simp [hs.taken _ hidx] at hshadow
          taken := fun idx hidx => ShadowPool.take_of_none (hs.taken idx hidx) }
      · exact hs.letGo hnone
    · exact hs.letGo hnone
  · exact hs

theorem Inv.inflight_of_reads (hs : Inv s) {f : Frame} {shadow : Surface ρ}
    (h : s.scan.reads = some (f, shadow)) : s.pool.inflight = some f.shadowIdx := by
  rw [hs.inflight, h]
  rfl

theorem inv_build {ok : Bool} (hs : Inv s) : Inv (s.build ok) := by
  simp only [State.build]
  split
  · rename_i f shadow hscan
    have hreads : s.scan.reads = some (f, shadow) := by rw [hscan]; rfl
    split
    · refine hs.same rfl rfl rfl (by simp [hscan, Scan.reads]) fun g hg => ?_
      simpa [State.Around, hscan, Scan.hand] using hg
    · rw [ShadowPool.release, if_pos (hs.inflight_of_reads hreads)]
      exact {
        writing := hs.writing
        inflight := rfl
        known := hs.known
        unique := hs.unique
        frames := by
          intro g hg
          rcases hg with hg | hg | hg | hg
          · exact hs.frames g (.inl hg)
          · exact hs.frames g (.inr (.inl hg))
          · exact hs.frames g (.inr (.inr (.inl hg)))
          · simp [Scan.hand] at hg
        slots := hs.slots
        reads := by simp [Scan.reads]
        apart := by simp
        taken := hs.taken }
  · exact hs

/-- What is given back changes at most the slot of the frame, and only while that is empty and has
not moved on. -/
theorem restore_slots (p : ShadowPool ρ) (f : Frame) (back : Option (Surface ρ)) (j : ℕ) :
    (p.restore f back).slots j = p.slots j ∨
      (j = f.shadowIdx ∧ (p.slots j).surface = none ∧
        (p.slots j).generation = f.shadowGeneration ∧
        (p.restore f back).slots j = ⟨f.shadowGeneration, back⟩) := by
  simp only [ShadowPool.restore]
  split
  · split
    · rename_i hempty
      by_cases hj : j = f.shadowIdx
      · subst hj
        refine .inr ⟨rfl, Option.isNone_iff_eq_none.mp hempty.2, hempty.1, ?_⟩
        simp [ShadowPool.set, hempty.1]
      · exact .inl (by simp [ShadowPool.set, hj])
    · exact .inl rfl
  · exact .inl rfl

theorem restore_generation {p : ShadowPool ρ} {f : Frame} {back : Option (Surface ρ)} (j : ℕ) :
    ((p.restore f back).slots j).generation = (p.slots j).generation := by
  rcases restore_slots p f back j with heq | ⟨-, -, hgen, heq⟩
  · rw [heq]
  · rw [heq, hgen]

theorem restore_writing {p : ShadowPool ρ} {f : Frame} {back : Option (Surface ρ)} :
    (p.restore f back).writing = p.writing := by
  simp only [ShadowPool.restore, ShadowPool.set]
  split_ifs <;> rfl

theorem restore_inflight {p : ShadowPool ρ} {f : Frame} {back : Option (Surface ρ)}
    (h : p.inflight = some f.shadowIdx) : (p.restore f back).inflight = none := by
  simp only [ShadowPool.restore, if_pos h]
  split_ifs <;> rfl

theorem inv_giveBack {unique : Bool} (hs : Inv s) : Inv (s.giveBack unique) := by
  simp only [State.giveBack]
  split
  · rename_i f shadow hscan
    have hreads : s.scan.reads = some (f, shadow) := by rw [hscan]; rfl
    have hinflight := hs.inflight_of_reads hreads
    have hstored := hs.reads (f, shadow) hreads
    exact {
      writing := restore_writing.trans hs.writing
      inflight := restore_inflight hinflight
      known := fun e he => by
        rw [restore_generation]
        exact hs.known e he
      unique := hs.unique
      frames := fun g hg => hs.frames g (by simpa [State.Around, hscan, Scan.hand] using hg)
      slots := by
        intro e he x hx hg
        rw [restore_generation] at hg
        rcases restore_slots s.pool f (if unique then some shadow else none) e.shadowIdx with
          heq | ⟨hidx, -, hgen, heq⟩
        · rw [heq] at hx
          exact hs.slots e he x hx hg
        · rw [heq] at hx
          have hback : shadow = x := by
            cases unique <;> simp_all
          have hsame := hs.unique e he _ hstored hidx (hg.trans hgen)
          rw [hsame, ← hback]
      reads := by simp [Scan.reads]
      apart := by simp [restore_inflight hinflight]
      taken := by
        intro idx hidx
        rcases restore_slots s.pool f (if unique then some shadow else none) idx with
          heq | ⟨rfl, -⟩
        · rw [heq]
          exact hs.taken idx hidx
        · exact absurd hinflight (hs.apart _ hidx) }
  · exact hs

theorem inv_arm {repaint : Bool} (hs : Inv s) : Inv (s.arm repaint) := by
  simp only [State.arm]
  split
  · rename_i f hscan
    refine hs.same rfl rfl rfl (by simp [hscan, Scan.reads]) fun g hg => ?_
    have hhand : s.Around f := .inr (.inr (.inr (by simp [hscan, Scan.hand])))
    rcases hg with hg | hg | hg | hg
    · exact .inl hg
    · cases repaint
      · exact .inr (.inl (by simpa using hg))
      · obtain rfl : f = g := by simpa using hg
        exact hhand
    · exact .inr (.inr (.inl hg))
    · simp [Scan.hand] at hg
  · exact hs

theorem inv_step (s : State ρ) (e : Event ρ) (hs : Inv s) : Inv (step s e) := by
  cases e with
  | queueScanout w h => exact inv_queueScanout hs
  | reserve bound => exact inv_reserve hs
  | snapshot r left => exact inv_snapshot hs
  | publish shuttingDown => exact inv_publish hs
  | discard => exact inv_discard hs
  | drop => exact inv_drop hs
  | select settle => exact inv_select hs
  | claim => exact inv_claim hs
  | build ok => exact inv_build hs
  | giveBack unique => exact inv_giveBack hs
  | arm repaint => exact inv_arm hs

theorem inv_run (es : List (Event ρ)) : Inv (run step (State.initial : State ρ) es) :=
  run_invariant (P := Inv) (fun s e hs _ => inv_step s e hs) es _ inv_initial
    (along_of_forall es _ fun _ _ => trivial)

/-! ### The guarantee -/

/-- A slot is written to from the step on that reserves it. -/
theorem reserved_is_free {e : Event ρ} {idx : ℕ} (hcall : s.call.target = none)
    (h : (step s e).call.target = some idx) :
    s.pool.inflight ≠ some idx ∧ s.pool.writing ≠ some idx := by
  cases e with
  | reserve bound =>
    simp only [step, State.reserve] at h
    split at h
    · split at h
      · rename_i j hj
        split at h
        · obtain rfl : j = idx := by simpa [Call.target] using h
          exact freeSlot_spec hj
        · simp [Call.target] at h
      · simp [Call.target] at h
    · simp [hcall] at h
  | queueScanout w h' =>
    simp only [step] at h
    split at h <;> simp_all [Call.target]
  | snapshot r left =>
    simp only [step, State.snapshot] at h
    split at h
    · split at h <;> simp [Call.target] at h
    · simp [hcall] at h
  | publish shuttingDown =>
    simp only [step, State.publish] at h
    split at h
    · split at h <;> simp [Call.target] at h
    · simp [hcall] at h
  | discard | drop => simp [step, hcall] at h
  | select settle =>
    simp only [step, State.select] at h
    split at h
    · split at h
      · split at h <;> simp [hcall] at h
      · simp [hcall] at h
    · simp [hcall] at h
  | claim =>
    simp only [step, State.claim] at h
    split at h
    · split at h
      · split at h <;> simp [hcall] at h
      · simp [hcall] at h
    · simp [hcall] at h
  | build ok =>
    simp only [step, State.build] at h
    split at h
    · split at h <;> simp [hcall] at h
    · simp [hcall] at h
  | giveBack unique =>
    simp only [step, State.giveBack] at h
    split at h <;> simp [hcall] at h
  | arm repaint =>
    simp only [step, State.arm] at h
    split at h <;> simp [hcall] at h

/-- A slot that is changed by what the worker gives back was empty, and nothing newer than the
worker's frame has been stored in it. -/
theorem giveBack_keeps_newer (hs : Inv s) {unique : Bool} {i : ℕ}
    (h : (step s (.giveBack unique)).pool.slots i ≠ s.pool.slots i) :
    (s.pool.slots i).surface = none ∧ ∃ f x, s.scan.reads = some (f, x) ∧ f.shadowIdx = i ∧
      ∀ e ∈ s.stored, e.shadowIdx = i → e.shadowGeneration ≤ f.shadowGeneration := by
  simp only [step, State.giveBack] at h
  split at h
  · rename_i f shadow hscan
    rcases restore_slots s.pool f (if unique then some shadow else none) i with
      heq | ⟨rfl, hnone, hgen, -⟩
    · exact absurd heq h
    · refine ⟨hnone, f, shadow, by rw [hscan]; rfl, rfl, fun e he hidx => ?_⟩
      have hle := hs.known e he
      rwa [hidx, hgen] at hle
  · exact absurd rfl h

/-- **Every surface has one owner.**  In every run a slot that is reserved is neither read nor
written to already, the encoder reads what the snapshot its frame names has stored, a surface that
is given back replaces none and comes behind no newer one, and the slots are reserved exactly as
long as a call copies and a frame is encoded. -/
theorem pool_owned (es : List (Event ρ)) :
    let s := run step (State.initial : State ρ) es
    (∀ e idx, s.call.target = none → (step s e).call.target = some idx →
      s.pool.inflight ≠ some idx ∧ s.pool.writing ≠ some idx) ∧
    (∀ f x, s.scan.reads = some (f, x) →
      ⟨f.shadowIdx, f.shadowGeneration, x⟩ ∈ s.stored ∧
      ∀ e ∈ s.stored, e.shadowIdx = f.shadowIdx → e.shadowGeneration = f.shadowGeneration →
        e.surface = x) ∧
    (∀ unique i, (step s (.giveBack unique)).pool.slots i ≠ s.pool.slots i →
      (s.pool.slots i).surface = none ∧ ∃ f x, s.scan.reads = some (f, x) ∧ f.shadowIdx = i ∧
        ∀ e ∈ s.stored, e.shadowIdx = i → e.shadowGeneration ≤ f.shadowGeneration) ∧
    s.pool.writing = s.call.target ∧
    s.pool.inflight = s.scan.reads.map fun r => r.1.shadowIdx := by
  intro s
  have hs : Inv s := inv_run es
  refine ⟨fun e idx hcall h => reserved_is_free hcall h, fun f x h => ?_,
    fun unique i h => giveBack_keeps_newer hs h, hs.writing, hs.inflight⟩
  have hx := hs.reads (f, x) h
  refine ⟨hx, fun e he hidx hgen => ?_⟩
  rw [hs.unique e he _ hx hidx hgen]

/-- A commit copies into the second slot while the first is encoded from. -/
theorem copy_beside_encode :
    let s := run step (State.initial : State ℕ)
      [.queueScanout 2 1, .reserve true, .snapshot (some 7) none, .publish false, .select false,
        .claim, .build true, .queueScanout 2 1, .reserve true]
    s.pool.inflight = some 0 ∧ s.pool.writing = some 1 ∧
      s.scan.reads = some (⟨2, 1, 0, 1⟩, ⟨2, 1, 7⟩) :=
  have h := pool_owned (ρ := ℕ)
    [.queueScanout 2 1, .reserve true, .snapshot (some 7) none, .publish false, .select false,
      .claim, .build true, .queueScanout 2 1, .reserve true]
  ⟨h.2.2.2.2.trans rfl, h.2.2.2.1.trans rfl, rfl⟩

end Vino.Kms.Loans
