import Vino.Lib.Run

/-!
# The Command Mailbox

The atomic callbacks publish desired state into a mailbox with one slot per connector and operation
class; the command worker drains it in batches.  Three writers share the slots: a publication
overwrites, a command put back after a failed send yields to whatever stands there, and
`rearm_cursor` replays the cursor a mode set has discarded from the worker's cache.  Between taking
a batch and activating it the worker looks at the requests, and stores a sibling's mode for a
connector without one; each look and each store races with the callbacks.

* `mailbox_newest`: in every run in which each replay is what the compositor last published, the
  worker stores a mode only where nobody has asked for one, and each dock-wide activation has a
  place for every mode set of its batch, a command in a slot gives way to another only by a
  publication, and once the mailbox is empty and the worker idle, the last command carried out in
  each class is the last one published,
* `cursor_move_lost`: a replay overwrites a cursor position that was published during the mode set.
-/

namespace Vino.Kms.Mailbox

open Vino.Lib.Run

variable {τ : Type}

/-! ### Commands and slots -/

local instance neZero_four : NeZero 4 := ⟨by decide⟩

/-- The operation classes, one slot each. -/
inductive Class where
  | stream
  | cursorCreate
  | cursorImage
  | cursorMove
  deriving DecidableEq

/-- A control-protocol operation deferred from the atomic callbacks. -/
inductive KmsCmd (τ : Type) where
  | modeSet (connector : Fin 4) (timing : τ)
  | cursorCreate (connector : Fin 4) (w h : UInt16)
  | cursorImage (connector : Fin 4) (w h : UInt16) (bgra : List UInt8)
  | cursorMove (connector : Fin 4) (x y : UInt16) (visible : Bool)
  | blank (connector : Fin 4)
  deriving DecidableEq

namespace KmsCmd

def connector : KmsCmd τ → Fin 4
  | modeSet c _ | cursorCreate c .. | cursorImage c .. | cursorMove c .. | blank c => c

/-- The class whose slot `PendingKmsHead::slot` selects. -/
def cls : KmsCmd τ → Class
  | modeSet .. | blank _ => .stream
  | cursorCreate .. => .cursorCreate
  | cursorImage .. => .cursorImage
  | cursorMove .. => .cursorMove

def isModeSet : KmsCmd τ → Bool
  | modeSet .. => true
  | _ => false

end KmsCmd

/-- The slots of every connector. -/
abbrev PendingKms (τ : Type) := Fin 4 → Class → Option (KmsCmd τ)

namespace PendingKms

def new : PendingKms τ := fun _ _ => none

def update (m : PendingKms τ) (cmd : KmsCmd τ) : PendingKms τ :=
  fun c k => if c = cmd.connector ∧ k = cmd.cls then some cmd else m c k

/-- Restore a failed operation unless a newer one already occupies its slot. -/
def retry (m : PendingKms τ) (cmd : KmsCmd τ) : PendingKms τ :=
  if (m cmd.connector cmd.cls).isNone then m.update cmd else m

/-- The commands in the order of `retry_batch`: connector by connector. -/
def restored (m : PendingKms τ) : List (KmsCmd τ) :=
  (List.finRange 4).flatMap fun c =>
    [Class.stream, .cursorCreate, .cursorImage, .cursorMove].filterMap (m c)

/-- Restore a drained batch without replacing newer state. -/
def retryBatch (m batch : PendingKms τ) : PendingKms τ := batch.restored.foldl retry m

/-- The commands in the order the worker sends them: class by class. -/
def cmds (m : PendingKms τ) : List (KmsCmd τ) :=
  [Class.stream, .cursorCreate, .cursorImage, .cursorMove].flatMap fun k =>
    (List.finRange 4).filterMap fun c => m c k

def isEmpty (m : PendingKms τ) : Bool :=
  (List.finRange 4).all fun c =>
    (m c .stream).isNone && (m c .cursorCreate).isNone && (m c .cursorImage).isNone &&
      (m c .cursorMove).isNone

end PendingKms

/-- The cursor a connector's dock side holds, as last acknowledged. -/
structure CursorShot where
  w : UInt16
  h : UInt16
  bgra : List UInt8
  x : UInt16
  y : UInt16
  visible : Bool

/-- What of the dock decides how a batch of mode sets is carried out. -/
structure Dock where
  connectors : ℕ
  videoOnCtrlPipe : Bool
  dockWideModeset : Bool

/-- Deferrals after which a batch is dropped. -/
def kmsRetryLimit : ℕ := 128

/-! ### The worker -/

/-- The connectors that come up together. -/
structure Wake (τ : Type) where
  /-- `dual_timings`. -/
  timings : Fin 4 → Option τ
  /-- `cmd_connectors`. -/
  connectors : Fin 4 → Bool

/-- What the worker does next to a batch it has taken. -/
inductive Phase (τ : Type) where
  /-- Pick the mode sets that wake a dark connector. -/
  | pick
  /-- Look for connectors without a request, to join at the mode of the one that wakes. -/
  | look (timing : τ) (left : List (Fin 4))
  /-- Store the timing of such a connector. -/
  | joinTiming (timing : τ) (connector : Fin 4) (left : List (Fin 4))
  /-- Store its request. -/
  | joinRequest (timing : τ) (connector : Fin 4) (left : List (Fin 4))
  /-- Have the lit connectors join on a dock whose mode sets are dock-wide. -/
  | fold
  /-- Choose between the two schedules. -/
  | select

inductive Worker (τ : Type) where
  | idle
  /-- At the top of the loop, before the mailbox is drained. -/
  | ready
  /-- With a batch in hand, finding what goes together. -/
  | gathering (batch : PendingKms τ) (w : Wake τ) (phase : Phase τ)
  /-- In a multihead activation: the batch, the connectors it programs with their timings, and the
  connectors it relights. -/
  | activating (batch : PendingKms τ) (slots : Fin 4 → Option τ) (relit : Fin 4 → Bool)
  /-- Sending the commands of a batch, whose mode sets a multihead activation may have covered. -/
  | executing (cmds : List (KmsCmd τ)) (dualComplete : Bool) (relit : Fin 4 → Bool)
  /-- Replaying the cursors of the connectors that were relit. -/
  | rearming (replays : List (KmsCmd τ))

/-- How far a callback that enables or disables an output has come. -/
inductive Call (τ : Type) where
  /-- Between storing the timing and storing its generation. -/
  | timed (timing : τ)
  /-- Before its `queue_cmd`. -/
  | announced (cmd : KmsCmd τ)
  deriving DecidableEq

/-- The next command `rearm_cursor` queues. -/
def Worker.replay : Worker τ → Option (KmsCmd τ)
  | .rearming (r :: _) => some r
  | _ => none

/-- How a command ends: sent (a mode set may find its mode programmed already), to be retried, or
refused for good. -/
inductive Outcome where
  | ok (activated : Bool)
  | retryable
  | invalid

structure State (τ : Type) where
  mailbox : PendingKms τ
  modesetRequested : Fin 4 → ℕ
  modesetActive : Fin 4 → ℕ
  lastTiming : Fin 4 → Option τ
  cursorShot : Fin 4 → Option CursorShot
  kmsRetries : ℕ
  worker : Worker τ
  calls : Fin 4 → Option (Call τ)
  /-- The last command published in each class. -/
  published : PendingKms τ
  /-- The last command carried out in each class. -/
  sent : PendingKms τ
  /-- Commands were dropped, at the retry limit or as invalid. -/
  dropped : Bool

def State.initial : State τ where
  mailbox := .new
  modesetRequested := fun _ => 0
  modesetActive := fun _ => 0
  lastTiming := fun _ => none
  cursorShot := fun _ => none
  kmsRetries := 0
  worker := .idle
  calls := fun _ => none
  published := .new
  sent := .new
  dropped := false

inductive Event (τ : Type) where
  /-- `atomic_enable` stores the timing. -/
  | enable (connector : Fin 4) (timing : τ)
  /-- It stores the generation. -/
  | request (connector : Fin 4)
  /-- `atomic_disable` forgets the generation. -/
  | disable (connector : Fin 4)
  /-- A callback publishes a command: the one its stores announced, or one of the cursor plane. -/
  | queueCmd (cmd : KmsCmd τ)
  /-- The work item runs. -/
  | start
  /-- The worker takes the whole mailbox. -/
  | drain
  /-- The worker's next look or store on the way to the activation. -/
  | gather
  /-- The multihead activation ends. -/
  | finishActivation (ok : Bool)
  /-- The next command of the batch is sent. -/
  | execute (r : Outcome)
  | endBatch
  /-- `rearm_cursor` queues its next command. -/
  | rearm
  /-- The turn of the loop ends. -/
  | endTurn

/-! ### Which mode sets go together -/

section Wake

variable (hash : τ → ℕ)

/-- A non-zero token for a timing. -/
def timingKey (t : τ) : ℕ := if hash t = 0 then 1 else hash t

theorem timingKey_ne_zero (t : τ) : timingKey hash t ≠ 0 := by
  unfold timingKey
  split <;> omega

def count (p : Fin 4 → Bool) : ℕ := (List.finRange 4).countP p

/-- The mode set of a batch for a connector. -/
def modeSetOf (batch : PendingKms τ) (c : Fin 4) : Option τ :=
  match batch c .stream with
  | some (.modeSet _ t) => some t
  | _ => none

/-- The mode sets that wake a dark connector and are still wanted. -/
def coldWake (s : State τ) (batch : PendingKms τ) : Wake τ where
  timings := fun c => (modeSetOf batch c).filter fun t =>
    s.modesetActive c == 0 && s.modesetRequested c == timingKey hash t
  connectors := fun c => (modeSetOf batch c).isSome

/-- On a dock with video on its control pipe, a connector nobody asked for joins at its sibling's
mode. -/
def joinPhase (d : Dock) (w : Wake τ) : Phase τ :=
  match (List.finRange 4).findSome? w.timings with
  | none => .fold
  | some t =>
      if d.videoOnCtrlPipe && count (fun c => (w.timings c).isSome) == 1 then
        .look t ((List.finRange 4).filter fun c => c.1 < d.connectors)
      else .fold

def Wake.join (w : Wake τ) (c : Fin 4) (t : τ) : Wake τ where
  timings := Function.update w.timings c (some t)
  connectors := Function.update w.connectors c true

/-- What a dock-wide mode set names: the connectors of the batch, and the lit ones. -/
def foldTimings (s : State τ) (w : Wake τ) (c : Fin 4) : Option τ :=
  if w.connectors c then
    (s.lastTiming c).filter fun t => s.modesetRequested c == timingKey hash t
  else if s.modesetActive c ≠ 0 ∧ s.modesetRequested c = s.modesetActive c then s.lastTiming c
  else none

/-- Whether the lit connectors join. -/
def folds (d : Dock) (s : State τ) (w : Wake τ) : Bool :=
  d.dockWideModeset && 0 < count w.connectors &&
    2 ≤ count (fun c => (foldTimings hash s w c).isSome)

/-- The connectors an activation programs: the two lowest of those whose timing is still wanted. -/
def slots (s : State τ) (w : Wake τ) (c : Fin 4) : Option τ :=
  let valid : Fin 4 → Bool := fun c =>
    (w.timings c).any fun t => s.modesetRequested c == timingKey hash t
  if valid c && count (fun c' => c' < c && valid c') < 2 then w.timings c else none

/-! ### One step -/

/-- Note a cursor command the dock has accepted. -/
def recordCursor (shot : Fin 4 → Option CursorShot) : KmsCmd τ → Fin 4 → Option CursorShot
  | .cursorImage c w h bgra =>
      Function.update shot c (match shot c with
        | some s => some { s with w := w, h := h, bgra := bgra }
        | none => some { w := w, h := h, bgra := bgra, x := 0, y := 0, visible := false })
  | .cursorMove c x y visible =>
      Function.update shot c ((shot c).map fun s => { s with x := x, y := y, visible := visible })
  | _ => shot

/-- The commands `rearm_cursor` queues for the connectors that were relit. -/
def replays (s : State τ) (relit : Fin 4 → Bool) : List (KmsCmd τ) :=
  (List.finRange 4).flatMap fun c =>
    match relit c, s.cursorShot c with
    | true, some shot =>
        [.cursorCreate c shot.w shot.h, .cursorImage c shot.w shot.h shot.bgra,
          .cursorMove c shot.x shot.y shot.visible]
    | _, _ => []

/-- A mode set whose generation has moved on while it was queued. -/
def superseded (s : State τ) : KmsCmd τ → Bool
  | .modeSet c t => s.modesetRequested c != timingKey hash t
  | _ => false

/-- The generation a connector runs, behind a command that ended. -/
def activeBehind (s : State τ) (ok : Bool) : KmsCmd τ → Fin 4 → ℕ
  | .modeSet c t => Function.update s.modesetActive c (if ok then timingKey hash t else 0)
  | _ => s.modesetActive

/-- A command carried out. -/
def carryOut (s : State τ) (cmd : KmsCmd τ) : State τ :=
  { s with
    modesetActive := activeBehind hash s true cmd
    cursorShot := recordCursor s.cursorShot cmd
    sent := s.sent.update cmd }

/-- Commands put back behind a failed send, or dropped with everything else at the limit. -/
def deferred (s : State τ) (restored : PendingKms τ) (atLimit otherwise : Worker τ) : State τ :=
  if kmsRetryLimit ≤ s.kmsRetries + 1 then
    { s with mailbox := .new, kmsRetries := 0, dropped := true, worker := atLimit }
  else
    { s with mailbox := restored, kmsRetries := s.kmsRetries + 1, worker := otherwise }

/-- One look or store of the worker with a batch in hand; it takes the mode sets of the batch
together where two connectors come up at once. -/
def gather (d : Dock) (s : State τ) (batch : PendingKms τ) (w : Wake τ) : Phase τ → State τ
  | .pick =>
      { s with
        worker := .gathering batch (coldWake hash s batch) (joinPhase d (coldWake hash s batch)) }
  | .look _ [] => { s with worker := .gathering batch w .fold }
  | .look t (c :: left) =>
      if (w.timings c).isSome || s.modesetRequested c != 0 || s.modesetActive c != 0 then
        { s with worker := .gathering batch w (.look t left) }
      else { s with worker := .gathering batch w (.joinTiming t c left) }
  | .joinTiming t c left =>
      { s with
        lastTiming := Function.update s.lastTiming c (some t)
        worker := .gathering batch w (.joinRequest t c left) }
  | .joinRequest t c left =>
      { s with
        modesetRequested := Function.update s.modesetRequested c (timingKey hash t)
        worker := .gathering batch (w.join c t) (.look t left) }
  | .fold =>
      if folds hash d s w then
        let fold := foldTimings hash s w
        { s with
          modesetActive := fun c => if (fold c).isSome then 0 else s.modesetActive c
          worker := .gathering batch
            { timings := fun c => (fold c).or (w.timings c)
              connectors := fun c => (fold c).isSome || w.connectors c } .select }
      else { s with worker := .gathering batch w .select }
  | .select =>
      { s with
        worker :=
          if 2 ≤ count (fun c => (w.timings c).isSome) then
            .activating batch (slots hash s w) w.connectors
          else .executing batch.cmds false fun _ => false }

/-- The mode sets an activation has carried out. -/
def sentBy (batch : PendingKms τ) (slots : Fin 4 → Option τ) (sent : PendingKms τ) : PendingKms τ :=
  fun c k =>
    match k, modeSetOf batch c, slots c with
    | .stream, some _, some t => some (.modeSet c t)
    | _, _, _ => sent c k

/-- One command of the batch. -/
def execute (s : State τ) (cmd : KmsCmd τ) (rest : List (KmsCmd τ)) (dual : Bool)
    (relit : Fin 4 → Bool) (r : Outcome) : State τ :=
  if dual && cmd.isModeSet || superseded hash s cmd then
    { s with worker := .executing rest dual relit }
  else
    match r with
    | .ok activated =>
        { carryOut hash s cmd with
          worker := .executing rest dual fun c =>
            relit c || (activated && cmd.isModeSet && c == cmd.connector) }
    | .invalid =>
        { s with
          modesetActive := activeBehind hash s false cmd
          dropped := true
          worker := .executing rest dual relit }
    | .retryable =>
        deferred { s with modesetActive := activeBehind hash s false cmd }
          ((cmd :: rest).foldl PendingKms.retry s.mailbox) (.executing [] dual relit) .idle

/-- One step of a callback or of the worker; a step that is not due changes nothing. -/
def step [DecidableEq τ] (d : Dock) (s : State τ) : Event τ → State τ
  | .enable c t =>
      if (s.calls c).isNone then
        { s with
          lastTiming := Function.update s.lastTiming c (some t)
          calls := Function.update s.calls c (some (.timed t)) }
      else s
  | .request c =>
      match s.calls c with
      | some (.timed t) =>
          { s with
            modesetRequested := Function.update s.modesetRequested c (timingKey hash t)
            calls := Function.update s.calls c (some (.announced (.modeSet c t))) }
      | _ => s
  | .disable c =>
      if (s.calls c).isNone then
        { s with
          modesetRequested := Function.update s.modesetRequested c 0
          modesetActive := Function.update s.modesetActive c 0
          calls := Function.update s.calls c (some (.announced (.blank c))) }
      else s
  | .queueCmd cmd =>
      if cmd.cls = .stream then
        if s.calls cmd.connector = some (.announced cmd) then
          { s with
            mailbox := s.mailbox.update cmd
            published := s.published.update cmd
            calls := Function.update s.calls cmd.connector none }
        else s
      else { s with mailbox := s.mailbox.update cmd, published := s.published.update cmd }
  | .start =>
      match s.worker with
      | .idle => { s with worker := .ready }
      | _ => s
  | .drain =>
      match s.worker with
      | .ready =>
          { s with
            mailbox := .new
            worker := .gathering s.mailbox ⟨fun _ => none, fun _ => false⟩ .pick }
      | _ => s
  | .gather =>
      match s.worker with
      | .gathering batch w phase => gather hash d s batch w phase
      | _ => s
  | .finishActivation ok =>
      match s.worker with
      | .activating batch slots relit =>
          if ok ∧ 2 ≤ count (fun c => (slots c).isSome) then
            { s with
              modesetActive := fun c => ((slots c).map (timingKey hash)).getD (s.modesetActive c)
              sent := sentBy batch slots s.sent
              worker := .executing batch.cmds true relit }
          else deferred s (s.mailbox.retryBatch batch) .idle .idle
      | _ => s
  | .execute r =>
      match s.worker with
      | .executing (cmd :: rest) dual relit => execute hash s cmd rest dual relit r
      | _ => s
  | .endBatch =>
      match s.worker with
      | .executing [] _ relit => { s with worker := .rearming (replays s relit) }
      | _ => s
  | .rearm =>
      match s.worker with
      | .rearming (r :: rs) => { s with mailbox := s.mailbox.update r, worker := .rearming rs }
      | _ => s
  | .endTurn =>
      match s.worker with
      | .rearming [] =>
          { s with kmsRetries := 0, worker := if s.mailbox.isEmpty then .idle else .ready }
      | _ => s

/-! ### What is asked of the steps -/

/-- Nobody has asked for the connector, and nobody is about to. -/
def Unasked (s : State τ) (c : Fin 4) : Prop :=
  s.modesetRequested c = 0 ∧
    (s.calls c = none ∨ s.calls c = some (.announced (.blank c)))

/-- The activation the worker is about to choose has a place for every mode set of its batch that is
still wanted. -/
def Places (s : State τ) (batch : PendingKms τ) (w : Wake τ) : Prop :=
  2 ≤ count (fun c => (slots hash s w c).isSome) →
    ∀ c, ∀ t ∈ modeSetOf batch c, s.modesetRequested c = timingKey hash t →
      (slots hash s w c).isSome

/-- A replay is what the compositor last published, the worker stores a mode only where nobody has
asked for one, and an activation has its places. -/
def Event.Faithful (s : State τ) : Event τ → Prop
  | .rearm => ∀ r ∈ s.worker.replay, s.published r.connector r.cls = some r
  | .gather =>
      match s.worker with
      | .gathering _ _ (.joinTiming _ c _) | .gathering _ _ (.joinRequest _ c _) => Unasked s c
      | .gathering batch w .select => Places hash s batch w
      | _ => True
  | _ => True

section

variable [DecidableEq τ] (s : State τ)

instance decidableUnasked (c : Fin 4) : Decidable (Unasked s c) := by
  unfold Unasked
  infer_instance

instance decidablePlaces (batch : PendingKms τ) (w : Wake τ) :
    Decidable (Places hash s batch w) := by
  unfold Places
  infer_instance

instance Event.decidableFaithful : (e : Event τ) → Decidable (e.Faithful hash s)
  | .rearm =>
      inferInstanceAs (Decidable (∀ r ∈ s.worker.replay, s.published r.connector r.cls = some r))
  | .gather => by
      unfold Event.Faithful
      dsimp only
      split <;> infer_instance
  | .enable .. | .request _ | .disable _ | .queueCmd _ | .start | .drain | .finishActivation _
  | .execute _ | .endBatch | .endTurn => .isTrue trivial

end

/-- Nothing is queued, under way or lost. -/
structure Quiescent (s : State τ) : Prop where
  mailbox : s.mailbox.isEmpty = true
  worker : s.worker = .idle
  calls : ∀ c, s.calls c = none
  dropped : s.dropped = false

/-! ### Slots -/

namespace PendingKms

theorem update_self (m : PendingKms τ) (cmd : KmsCmd τ) :
    m.update cmd cmd.connector cmd.cls = some cmd := by
  simp [update]

theorem update_of_ne {m : PendingKms τ} {cmd : KmsCmd τ} {c : Fin 4} {k : Class}
    (h : ¬ (c = cmd.connector ∧ k = cmd.cls)) : m.update cmd c k = m c k := by
  simp [update, h]

theorem update_eq_some {m : PendingKms τ} {cmd x : KmsCmd τ} {c : Fin 4} {k : Class}
    (h : m.update cmd c k = some x) :
    (c = cmd.connector ∧ k = cmd.cls ∧ x = cmd) ∨
      ¬ (c = cmd.connector ∧ k = cmd.cls) ∧ m c k = some x := by
  by_cases hck : c = cmd.connector ∧ k = cmd.cls
  · left
    obtain ⟨rfl, rfl⟩ := hck
    rw [update_self] at h
    exact ⟨rfl, rfl, (Option.some.inj h).symm⟩
  · exact Or.inr ⟨hck, by rwa [update_of_ne hck] at h⟩

/-- Putting commands back changes no slot that holds one. -/
theorem foldl_retry_of_some {c : Fin 4} {k : Class} {y : KmsCmd τ} :
    ∀ (L : List (KmsCmd τ)) {m : PendingKms τ}, m c k = some y → L.foldl retry m c k = some y
  | [], _, h => h
  | x :: L, m, h => by
    refine foldl_retry_of_some L ?_
    unfold retry
    split
    next hnone =>
      rw [update_of_ne, h]
      rintro ⟨rfl, rfl⟩
      simp [h] at hnone
    next => exact h

/-- Every command that is put back finds its slot taken, by itself or by another. -/
theorem foldl_retry_isSome {x : KmsCmd τ} :
    ∀ (L : List (KmsCmd τ)) {m : PendingKms τ}, x ∈ L →
      (L.foldl retry m x.connector x.cls).isSome
  | y :: L, m, hx => by
    rcases List.mem_cons.1 hx with rfl | hx
    · have htaken : ∃ z, retry m x x.connector x.cls = some z := by
        unfold retry
        split
        next => exact ⟨x, update_self m x⟩
        next h => exact Option.ne_none_iff_exists'.1 (by simpa using h)
      obtain ⟨z, hz⟩ := htaken
      rw [List.foldl_cons, foldl_retry_of_some L hz]
      rfl
    · exact foldl_retry_isSome L hx

/-- What a slot holds behind a put-back stood there before, or was put back into an empty slot. -/
theorem foldl_retry_eq_some {c : Fin 4} {k : Class} {y : KmsCmd τ} :
    ∀ (L : List (KmsCmd τ)) {m : PendingKms τ}, L.foldl retry m c k = some y →
      m c k = some y ∨ m c k = none ∧ y ∈ L ∧ y.connector = c ∧ y.cls = k
  | [], _, h => Or.inl h
  | x :: L, m, h => by
    have hretry : ∀ z, retry m x c k = some z →
        m c k = some z ∨ m c k = none ∧ z = x ∧ x.connector = c ∧ x.cls = k := by
      intro z hz
      unfold retry at hz
      split at hz
      next hnone =>
        rcases update_eq_some hz with ⟨rfl, rfl, rfl⟩ | ⟨-, hz⟩
        · exact Or.inr ⟨by simpa using hnone, rfl, rfl, rfl⟩
        · exact Or.inl hz
      next => exact Or.inl hz
    rcases foldl_retry_eq_some L h with h | ⟨hnone, hy, hc, hk⟩
    · rcases hretry y h with h | ⟨hnone, rfl, hc, hk⟩
      · exact Or.inl h
      · exact Or.inr ⟨hnone, List.mem_cons_self, hc, hk⟩
    · refine Or.inr ⟨?_, List.mem_cons_of_mem x hy, hc, hk⟩
      by_contra hsome
      obtain ⟨z, hz⟩ := Option.ne_none_iff_exists'.1 hsome
      have hkept : retry m x c k = some z := foldl_retry_of_some [x] hz
      rw [hkept] at hnone
      cases hnone

theorem mem_cmds {m : PendingKms τ} {x : KmsCmd τ} : x ∈ m.cmds ↔ ∃ c k, m c k = some x := by
  constructor
  · intro h
    simp only [cmds, List.mem_flatMap, List.mem_filterMap] at h
    obtain ⟨k, -, c, -, hx⟩ := h
    exact ⟨c, k, hx⟩
  · rintro ⟨c, k, hx⟩
    simp only [cmds, List.mem_flatMap, List.mem_filterMap]
    exact ⟨k, by cases k <;> simp, c, List.mem_finRange c, hx⟩

theorem mem_restored {m : PendingKms τ} {x : KmsCmd τ} :
    x ∈ m.restored ↔ ∃ c k, m c k = some x := by
  constructor
  · intro h
    simp only [restored, List.mem_flatMap, List.mem_filterMap] at h
    obtain ⟨c, -, k, -, hx⟩ := h
    exact ⟨c, k, hx⟩
  · rintro ⟨c, k, hx⟩
    simp only [restored, List.mem_flatMap, List.mem_filterMap]
    exact ⟨c, List.mem_finRange c, k, by cases k <;> simp, hx⟩

theorem eq_none_of_isEmpty {m : PendingKms τ} (h : m.isEmpty = true) (c : Fin 4) (k : Class) :
    m c k = none := by
  have hc := List.all_eq_true.1 h c (List.mem_finRange c)
  simp only [Bool.and_eq_true, Option.isNone_iff_eq_none] at hc
  obtain ⟨⟨⟨hs, hcreate⟩, himage⟩, hmove⟩ := hc
  cases k <;> assumption

end PendingKms

/-! ### The timings of an activation -/

theorem modeSetOf_eq_some {batch : PendingKms τ} {c : Fin 4} {t : τ}
    (h : modeSetOf batch c = some t) : ∃ c', batch c .stream = some (.modeSet c' t) := by
  unfold modeSetOf at h
  split at h
  next c' t' hb => exact ⟨c', by rw [hb, Option.some.inj h]⟩
  next => cases h

theorem slots_eq_some {s : State τ} {w : Wake τ} {c : Fin 4} {t : τ}
    (h : slots hash s w c = some t) : w.timings c = some t := by
  unfold slots at h
  dsimp only at h
  split_ifs at h
  exact h

/-- A lit connector, or one of the batch, joins with the timing stored last. -/
theorem foldTimings_eq_some {s : State τ} {w : Wake τ} {c : Fin 4} {t : τ}
    (h : foldTimings hash s w c = some t) : s.lastTiming c = some t := by
  unfold foldTimings at h
  split_ifs at h
  · exact (Option.filter_eq_some_iff.1 h).1
  · exact h

/-! ### The invariant -/

/-- The batch the worker has taken and not begun to send. -/
def Worker.batch : Worker τ → Option (PendingKms τ)
  | .gathering batch _ _ | .activating batch _ _ => some batch
  | _ => none

/-- The commands of the batch the worker has in hand. -/
def Worker.held : Worker τ → List (KmsCmd τ)
  | .gathering batch _ _ | .activating batch _ _ => batch.cmds
  | .executing cmds _ _ => cmds
  | _ => []

/-- Those of them it still has to carry out. -/
def Worker.due : Worker τ → List (KmsCmd τ)
  | .gathering batch _ _ | .activating batch _ _ => batch.cmds
  | .executing cmds dual _ => cmds.filter fun x => !(dual && x.isModeSet)
  | _ => []

theorem Worker.mem_held {w : Worker τ} {x : KmsCmd τ} (h : x ∈ w.due) : x ∈ w.held := by
  cases w with
  | executing cmds dual relit => exact (List.mem_filter.1 h).1
  | _ => exact h

/-- A published command on its way, carried out or lost. -/
def Accounted (s : State τ) (c : Fin 4) (k : Class) : Prop :=
  s.dropped = true ∨ (k = .stream ∧ s.calls c ≠ none) ∨ (s.mailbox c k).isSome ∨
    (∃ x ∈ s.worker.due, x.connector = c ∧ x.cls = k) ∨ s.sent c k = s.published c k

/-- What holds between any two steps of the callbacks and the worker. -/
structure Inv (s : State τ) : Prop where
  placed : ∀ c k x, s.published c k = some x → x.connector = c ∧ x.cls = k
  /-- A slot holds what was published last. -/
  newest : ∀ c k x, s.mailbox c k = some x → s.published c k = some x
  requests : ∀ c t, s.calls c = none → s.published c .stream = some (.modeSet c t) →
    s.modesetRequested c = timingKey hash t ∧ s.lastTiming c = some t
  timed : ∀ c t, s.calls c = some (.timed t) → s.lastTiming c = some t
  announced : ∀ c t, s.calls c = some (.announced (.modeSet c t)) →
    s.modesetRequested c = timingKey hash t ∧ s.lastTiming c = some t
  /-- What the worker has in hand is the newest of its class, unless a newer one waits. -/
  held : ∀ x ∈ s.worker.held,
    s.published x.connector x.cls = some x ∨ (s.mailbox x.connector x.cls).isSome
  batch : ∀ batch, s.worker.batch = some batch →
    ∀ c k x, batch c k = some x → x.connector = c ∧ x.cls = k
  /-- A connector of the batch comes up with its newest mode. -/
  aimed : ∀ batch w p, s.worker = .gathering batch w p → ∀ c t, modeSetOf batch c = some t →
    (∀ u, w.timings c = some u → u = t) ∨ (s.mailbox c .stream).isSome ∨ s.calls c ≠ none
  /-- An activation programs the newest mode of each connector of its batch. -/
  covered : ∀ batch slots relit, s.worker = .activating batch slots relit →
    2 ≤ count (fun c => (slots c).isSome) → ∀ c t, modeSetOf batch c = some t →
      slots c = some t ∨ (s.mailbox c .stream).isSome ∨ s.calls c ≠ none
  accounted : ∀ c k, Accounted s c k

theorem inv_initial : Inv hash (State.initial : State τ) where
  placed := by simp [State.initial, PendingKms.new]
  newest := by simp [State.initial, PendingKms.new]
  requests := by simp [State.initial, PendingKms.new]
  timed := by simp [State.initial]
  announced := by simp [State.initial]
  held := by simp [State.initial, Worker.held]
  batch := by simp [State.initial, Worker.batch]
  aimed := by simp [State.initial]
  covered := by simp [State.initial]
  accounted := fun _ _ => by simp [Accounted, State.initial]

variable {hash} {s : State τ}

theorem Worker.ne_gathering {w : Worker τ} (h : w.batch = none) {batch : PendingKms τ}
    {wake : Wake τ} {p : Phase τ} : w ≠ .gathering batch wake p := by
  rintro rfl
  cases h

theorem Worker.ne_activating {w : Worker τ} (h : w.batch = none) {batch : PendingKms τ}
    {slots : Fin 4 → Option τ} {relit : Fin 4 → Bool} : w ≠ .activating batch slots relit := by
  rintro rfl
  cases h

/-- A callback stores what it is about to publish. -/
theorem Inv.call (h : Inv hash s) {c : Fin 4} {call : Call τ} {last : Option τ} {key : ℕ}
    {active : Fin 4 → ℕ} (htimed : ∀ t, call = .timed t → last = some t)
    (hcmd : ∀ t, call = .announced (.modeSet c t) → key = timingKey hash t ∧ last = some t) :
    Inv hash { s with
      lastTiming := Function.update s.lastTiming c last
      modesetRequested := Function.update s.modesetRequested c key
      modesetActive := active
      calls := Function.update s.calls c (some call) } where
  placed := h.placed
  newest := h.newest
  requests := by
    intro c' t hcalls hpub
    by_cases hc : c' = c
    · subst hc
      simp at hcalls
    · simpa [hc] using h.requests c' t (by simpa [hc] using hcalls) hpub
  timed := by
    intro c' t hcalls
    by_cases hc : c' = c
    · subst hc
      simpa using htimed t (by simpa using hcalls)
    · simpa [hc] using h.timed c' t (by simpa [hc] using hcalls)
  announced := by
    intro c' t hcalls
    by_cases hc : c' = c
    · subst hc
      simpa using hcmd t (by simpa using hcalls)
    · simpa [hc] using h.announced c' t (by simpa [hc] using hcalls)
  held := h.held
  batch := h.batch
  aimed := by
    intro batch w p hw c' t hb
    by_cases hc : c' = c
    · subst hc
      simp
    · simpa [hc] using h.aimed batch w p hw c' t hb
  covered := by
    intro batch slots relit hw h2 c' t hb
    by_cases hc : c' = c
    · subst hc
      simp
    · simpa [hc] using h.covered batch slots relit hw h2 c' t hb
  accounted := by
    intro c' k
    rcases h.accounted c' k with hd | ⟨hk, hcalls⟩ | hm | hdue | hs
    · exact Or.inl hd
    · refine Or.inr (Or.inl ⟨hk, ?_⟩)
      by_cases hc : c' = c
      · subst hc
        simp
      · simpa [hc] using hcalls
    · exact Or.inr (Or.inr (Or.inl hm))
    · exact Or.inr (Or.inr (Or.inr (Or.inl hdue)))
    · exact Or.inr (Or.inr (Or.inr (Or.inr hs)))

/-- A publication: the command stands in its slot, and a callback that announced it is over. -/
theorem Inv.publish (h : Inv hash s) {cmd : KmsCmd τ} {calls : Fin 4 → Option (Call τ)}
    (hkeep : ∀ c, c ≠ cmd.connector ∨ cmd.cls ≠ .stream → calls c = s.calls c)
    (hcmd : ∀ c t, cmd = .modeSet c t →
      s.modesetRequested c = timingKey hash t ∧ s.lastTiming c = some t)
    (hcalls : cmd.cls = .stream → calls cmd.connector = none) :
    Inv hash { s with
      mailbox := s.mailbox.update cmd
      published := s.published.update cmd
      calls := calls } where
  placed := by
    intro c k x hx
    rcases PendingKms.update_eq_some hx with ⟨rfl, rfl, rfl⟩ | ⟨-, hx⟩
    · exact ⟨rfl, rfl⟩
    · exact h.placed c k x hx
  newest := by
    intro c k x hx
    rcases PendingKms.update_eq_some hx with ⟨rfl, rfl, rfl⟩ | ⟨hne, hx⟩
    · exact PendingKms.update_self s.published x
    · exact (PendingKms.update_of_ne hne).trans (h.newest c k x hx)
  requests := by
    intro c t hnone hpub
    rcases PendingKms.update_eq_some hpub with ⟨-, -, hx⟩ | ⟨hne, hpub⟩
    · exact hcmd c t hx.symm
    · refine h.requests c t ?_ hpub
      rw [← hkeep c (by tauto)]
      exact hnone
  timed := by
    intro c t hsome
    by_cases hc : c = cmd.connector ∧ cmd.cls = .stream
    · obtain ⟨rfl, hk⟩ := hc
      cases hsome.symm.trans (hcalls hk)
    · exact h.timed c t (by rw [← hkeep c (by tauto)]; exact hsome)
  announced := by
    intro c t hsome
    by_cases hc : c = cmd.connector ∧ cmd.cls = .stream
    · obtain ⟨rfl, hk⟩ := hc
      cases hsome.symm.trans (hcalls hk)
    · exact h.announced c t (by rw [← hkeep c (by tauto)]; exact hsome)
  held := by
    intro x hx
    by_cases hck : x.connector = cmd.connector ∧ x.cls = cmd.cls
    · right
      rw [hck.1, hck.2]
      exact Option.isSome_iff_exists.2 ⟨cmd, PendingKms.update_self s.mailbox cmd⟩
    · dsimp only
      rw [PendingKms.update_of_ne hck, PendingKms.update_of_ne hck]
      exact h.held x hx
  batch := h.batch
  aimed := by
    intro batch w p hw c t hb
    by_cases hc : c = cmd.connector ∧ Class.stream = cmd.cls
    · right; left
      rw [hc.1, hc.2]
      exact Option.isSome_iff_exists.2 ⟨cmd, PendingKms.update_self s.mailbox cmd⟩
    · dsimp only
      rw [PendingKms.update_of_ne hc, hkeep c (by tauto)]
      exact h.aimed batch w p hw c t hb
  covered := by
    intro batch slots relit hw h2 c t hb
    by_cases hc : c = cmd.connector ∧ Class.stream = cmd.cls
    · right; left
      rw [hc.1, hc.2]
      exact Option.isSome_iff_exists.2 ⟨cmd, PendingKms.update_self s.mailbox cmd⟩
    · dsimp only
      rw [PendingKms.update_of_ne hc, hkeep c (by tauto)]
      exact h.covered batch slots relit hw h2 c t hb
  accounted := by
    intro c k
    by_cases hck : c = cmd.connector ∧ k = cmd.cls
    · right; right; left
      rw [hck.1, hck.2]
      exact Option.isSome_iff_exists.2 ⟨cmd, PendingKms.update_self s.mailbox cmd⟩
    · unfold Accounted
      dsimp only
      rw [PendingKms.update_of_ne hck, PendingKms.update_of_ne hck]
      rcases h.accounted c k with hd | ⟨rfl, hsome⟩ | hrest
      · exact Or.inl hd
      · refine Or.inr (Or.inl ⟨rfl, ?_⟩)
        rw [hkeep c (by tauto)]
        exact hsome
      · exact Or.inr (Or.inr hrest)

/-- The worker moves on with nothing in hand. -/
theorem Inv.turn (h : Inv hash s) (hdue : s.worker.due = []) {w : Worker τ} {n : ℕ}
    (hw : w.held = []) (hbatch : w.batch = none) :
    Inv hash { s with kmsRetries := n, worker := w } where
  placed := h.placed
  newest := h.newest
  requests := h.requests
  timed := h.timed
  announced := h.announced
  held := by
    intro x hx
    rw [show w.held = [] from hw] at hx
    cases hx
  batch := fun _ he => by cases hbatch.symm.trans he
  aimed := fun _ _ _ he => absurd he (Worker.ne_gathering hbatch)
  covered := fun _ _ _ he => absurd he (Worker.ne_activating hbatch)
  accounted := by
    intro c k
    rcases h.accounted c k with hd | hcalls | hm | ⟨x, hx, -⟩ | hs
    · exact Or.inl hd
    · exact Or.inr (Or.inl hcalls)
    · exact Or.inr (Or.inr (Or.inl hm))
    · rw [hdue] at hx
      cases hx
    · exact Or.inr (Or.inr (Or.inr (Or.inr hs)))

/-- Commands that could not be sent go back, or are dropped. -/
theorem Inv.deferred (h : Inv hash s) {L : List (KmsCmd τ)} {w w' : Worker τ} {active : Fin 4 → ℕ}
    (hdue : ∀ x ∈ s.worker.due, x ∈ L) (hheld : ∀ x ∈ L, x ∈ s.worker.held)
    (hw : w.held = []) (hw' : w'.held = []) (hbatch : w.batch = none) (hbatch' : w'.batch = none) :
    Inv hash (Mailbox.deferred { s with modesetActive := active }
      (L.foldl PendingKms.retry s.mailbox) w w') := by
  unfold Mailbox.deferred
  split
  · exact
      { placed := h.placed
        newest := fun _ _ _ hx => by cases hx
        requests := h.requests
        timed := h.timed
        announced := h.announced
        held := fun x hx => by
          rw [show w.held = [] from hw] at hx
          cases hx
        batch := fun _ he => by cases hbatch.symm.trans he
        aimed := fun _ _ _ he => absurd he (Worker.ne_gathering hbatch)
        covered := fun _ _ _ he => absurd he (Worker.ne_activating hbatch)
        accounted := fun _ _ => Or.inl rfl }
  · refine
      { placed := h.placed
        newest := ?_
        requests := h.requests
        timed := h.timed
        announced := h.announced
        held := fun x hx => by
          rw [show w'.held = [] from hw'] at hx
          cases hx
        batch := fun _ he => by cases hbatch'.symm.trans he
        aimed := fun _ _ _ he => absurd he (Worker.ne_gathering hbatch')
        covered := fun _ _ _ he => absurd he (Worker.ne_activating hbatch')
        accounted := ?_ }
    · intro c k x hx
      rcases PendingKms.foldl_retry_eq_some L hx with hx | ⟨hnone, hL, rfl, rfl⟩
      · exact h.newest c k x hx
      · rcases h.held x (hheld x hL) with hpub | hsome
        · exact hpub
        · rw [hnone] at hsome
          cases hsome
    · intro c k
      rcases h.accounted c k with hd | hcalls | hm | ⟨x, hx, rfl, rfl⟩ | hs
      · exact Or.inl hd
      · exact Or.inr (Or.inl hcalls)
      · obtain ⟨y, hy⟩ := Option.isSome_iff_exists.1 hm
        refine Or.inr (Or.inr (Or.inl ?_))
        exact Option.isSome_iff_exists.2 ⟨y, PendingKms.foldl_retry_of_some L hy⟩
      · exact Or.inr (Or.inr (Or.inl (PendingKms.foldl_retry_isSome L (hdue x hx))))
      · exact Or.inr (Or.inr (Or.inr (Or.inr hs)))

/-- The worker takes the mailbox. -/
theorem Inv.drain (h : Inv hash s) (hw : s.worker = .ready) :
    Inv hash { s with
      mailbox := .new
      worker := .gathering s.mailbox ⟨fun _ => none, fun _ => false⟩ .pick } := by
  have hslot : ∀ x ∈ s.mailbox.cmds, s.mailbox x.connector x.cls = some x := by
    intro x hx
    obtain ⟨c, k, hx⟩ := PendingKms.mem_cmds.1 hx
    obtain ⟨rfl, rfl⟩ := h.placed c k x (h.newest c k x hx)
    exact hx
  refine
    { placed := h.placed
      newest := fun _ _ _ hx => by cases hx
      requests := h.requests
      timed := h.timed
      announced := h.announced
      held := fun x hx => Or.inl (h.newest _ _ x (hslot x hx))
      batch := ?_
      aimed := ?_
      covered := fun _ _ _ he => by cases he
      accounted := ?_ }
  · rintro batch he c k x hx
    obtain rfl := Option.some.inj he
    exact h.placed c k x (h.newest c k x hx)
  · rintro batch w p he c t -
    cases he
    exact Or.inl nofun
  · intro c k
    rcases h.accounted c k with hd | hcalls | hm | ⟨x, hx, -⟩ | hs
    · exact Or.inl hd
    · exact Or.inr (Or.inl hcalls)
    · obtain ⟨x, hx⟩ := Option.isSome_iff_exists.1 hm
      have hplaced := h.placed c k x (h.newest c k x hx)
      exact Or.inr (Or.inr (Or.inr (Or.inl ⟨x, PendingKms.mem_cmds.2 ⟨c, k, hx⟩, hplaced⟩)))
    · rw [hw] at hx
      cases hx
    · exact Or.inr (Or.inr (Or.inr (Or.inr hs)))

/-! ### What goes together -/

/-- A mode set of the batch in hand is what is requested, or a newer command is about. -/
theorem Inv.newest_mode (h : Inv hash s) {batch : PendingKms τ} {w : Wake τ} {p : Phase τ}
    (hw : s.worker = .gathering batch w p) {c : Fin 4} {t : τ} (hc : modeSetOf batch c = some t) :
    (s.modesetRequested c = timingKey hash t ∧ s.lastTiming c = some t) ∨
      (s.mailbox c .stream).isSome ∨ s.calls c ≠ none := by
  obtain ⟨c', hslot⟩ := modeSetOf_eq_some hc
  obtain rfl : c' = c := (h.batch batch (by rw [hw]; rfl) c .stream _ hslot).1
  have hheld : KmsCmd.modeSet c' t ∈ s.worker.held := by
    rw [hw]
    exact PendingKms.mem_cmds.2 ⟨_, _, hslot⟩
  rcases h.held _ hheld with hpub | hm
  · by_cases hcalls : s.calls c' = none
    · exact Or.inl (h.requests c' t hcalls hpub)
    · exact Or.inr (Or.inr hcalls)
  · exact Or.inr (Or.inl hm)

/-- One look or store with a batch in hand: what is asked for stays as it is, and a connector of the
batch comes up as before, or with what is asked for. -/
theorem Inv.gathering (h : Inv hash s) {batch : PendingKms τ} {w w' : Wake τ} {p p' : Phase τ}
    (hw : s.worker = .gathering batch w p) {last : Fin 4 → Option τ} {requested active : Fin 4 → ℕ}
    (hkeep : ∀ c, ¬ Unasked s c → requested c = s.modesetRequested c ∧ last c = s.lastTiming c)
    (hwake : ∀ c t u, modeSetOf batch c = some t → s.modesetRequested c = timingKey hash t →
      s.lastTiming c = some t → w'.timings c = some u → w.timings c = some u ∨ u = t) :
    Inv hash { s with
      lastTiming := last
      modesetRequested := requested
      modesetActive := active
      worker := .gathering batch w' p' } := by
  have hasked : ∀ c t, s.modesetRequested c = timingKey hash t → ¬ Unasked s c :=
    fun c t hkey hu => timingKey_ne_zero hash t (hkey.symm.trans hu.1)
  have hkept : ∀ c t, s.modesetRequested c = timingKey hash t ∧ s.lastTiming c = some t →
      requested c = timingKey hash t ∧ last c = some t := by
    rintro c t ⟨hkey, hlast⟩
    obtain ⟨hreq, htiming⟩ := hkeep c (hasked c t hkey)
    exact ⟨hreq.trans hkey, htiming.trans hlast⟩
  refine
    { placed := h.placed
      newest := h.newest
      requests := fun c t hcalls hpub => hkept c t (h.requests c t hcalls hpub)
      timed := ?_
      announced := fun c t hcalls => hkept c t (h.announced c t hcalls)
      held := fun x hx => h.held x (by rw [hw]; exact hx)
      batch := fun b hb => h.batch b (by rw [hw]; exact hb)
      aimed := ?_
      covered := fun _ _ _ he => by cases he
      accounted := ?_ }
  · intro c t hcalls
    have hc : ¬ Unasked s c := by
      rintro ⟨-, hnone | hblank⟩
      · cases hcalls.symm.trans hnone
      · cases hcalls.symm.trans hblank
    exact (hkeep c hc).2.trans (h.timed c t hcalls)
  · rintro b v q he c t hc
    cases he
    rcases h.newest_mode hw hc with ⟨hkey, hlast⟩ | hnewer
    · rcases h.aimed batch w p hw c t hc with haimed | hnewer
      · refine Or.inl fun u hu => ?_
        rcases hwake c t u hc hkey hlast hu with hu | hu
        · exact haimed u hu
        · exact hu
      · exact Or.inr hnewer
    · exact Or.inr hnewer
  · intro c k
    have hc := h.accounted c k
    rw [Accounted, hw] at hc
    exact hc

/-- The worker chooses between the two schedules. -/
theorem Inv.select (h : Inv hash s) {batch : PendingKms τ} {w : Wake τ} {p : Phase τ}
    (hw : s.worker = .gathering batch w p) (hplaces : Places hash s batch w) :
    Inv hash { s with
      worker :=
        if 2 ≤ count (fun c => (w.timings c).isSome) then
          .activating batch (slots hash s w) w.connectors
        else .executing batch.cmds false fun _ => false } := by
  have hbatch := h.batch batch (by rw [hw]; rfl)
  have hheld : ∀ x ∈ batch.cmds,
      s.published x.connector x.cls = some x ∨ (s.mailbox x.connector x.cls).isSome :=
    fun x hx => h.held x (by rw [hw]; exact hx)
  split
  · refine
      { placed := h.placed
        newest := h.newest
        requests := h.requests
        timed := h.timed
        announced := h.announced
        held := hheld
        batch := fun b hb => by rwa [← Option.some.inj hb]
        aimed := fun _ _ _ he => by cases he
        covered := ?_
        accounted := ?_ }
    · rintro b sl relit he h2 c t hc
      cases he
      rcases h.newest_mode hw hc with ⟨hkey, -⟩ | hnewer
      · rcases h.aimed batch w p hw c t hc with haimed | hnewer
        · obtain ⟨u, hu⟩ := Option.isSome_iff_exists.1 (hplaces h2 c t hc hkey)
          rw [hu, haimed u (slots_eq_some hash hu)]
          exact Or.inl rfl
        · exact Or.inr hnewer
      · exact Or.inr hnewer
    · intro c k
      have hc := h.accounted c k
      rw [Accounted, hw] at hc
      exact hc
  · refine
      { placed := h.placed
        newest := h.newest
        requests := h.requests
        timed := h.timed
        announced := h.announced
        held := hheld
        batch := fun _ hb => by cases hb
        aimed := fun _ _ _ he => by cases he
        covered := fun _ _ _ he => by cases he
        accounted := ?_ }
    intro c k
    have hall : (batch.cmds.filter fun x => !(false && x.isModeSet)) = batch.cmds :=
      List.filter_eq_self.2 fun _ _ => rfl
    have hc := h.accounted c k
    rw [Accounted, hw] at hc
    rwa [Accounted, Worker.due, hall]

theorem Inv.gather (d : Dock) (h : Inv hash s) {batch : PendingKms τ} {w : Wake τ} {p : Phase τ}
    (hw : s.worker = .gathering batch w p) (he : Event.gather.Faithful hash s) :
    Inv hash (Mailbox.gather hash d s batch w p) := by
  simp only [Event.Faithful, hw] at he
  cases p with
  | pick =>
    refine h.gathering hw (fun _ _ => ⟨rfl, rfl⟩) fun c t u hc _ _ hu => Or.inr ?_
    simp only [coldWake, hc] at hu
    exact (Option.some.inj (Option.filter_eq_some_iff.1 hu).1).symm
  | look t left =>
    cases left with
    | nil => exact h.gathering hw (fun _ _ => ⟨rfl, rfl⟩) fun _ _ _ _ _ _ hu => Or.inl hu
    | cons c left =>
      simp only [Mailbox.gather]
      split
      · exact h.gathering hw (fun _ _ => ⟨rfl, rfl⟩) fun _ _ _ _ _ _ hu => Or.inl hu
      · exact h.gathering hw (fun _ _ => ⟨rfl, rfl⟩) fun _ _ _ _ _ _ hu => Or.inl hu
  | joinTiming t c left =>
    refine h.gathering hw (fun c' hc' => ⟨rfl, ?_⟩) fun _ _ _ _ _ _ hu => Or.inl hu
    have hne : c' ≠ c := by
      rintro rfl
      exact hc' he
    exact Function.update_of_ne hne ..
  | joinRequest t c left =>
    refine h.gathering hw (fun c' hc' => ⟨?_, rfl⟩) fun c' t' u _ hkey _ hu => Or.inl ?_
    · have hne : c' ≠ c := by
        rintro rfl
        exact hc' he
      exact Function.update_of_ne hne ..
    · -- a connector that joins is not asked for, and so has no mode set left in the batch
      have hne : c' ≠ c := by
        rintro rfl
        exact timingKey_ne_zero hash t' (hkey.symm.trans he.1)
      simpa [Wake.join, hne] using hu
  | fold =>
    simp only [Mailbox.gather]
    split
    · refine h.gathering hw (fun _ _ => ⟨rfl, rfl⟩) fun c t u _ _ hlast hu => ?_
      rcases Option.or_eq_some_iff.1 hu with hu | ⟨-, hu⟩
      · exact Or.inr (Option.some.inj ((foldTimings_eq_some hash hu).symm.trans hlast))
      · exact Or.inl hu
    · exact h.gathering hw (fun _ _ => ⟨rfl, rfl⟩) fun _ _ _ _ _ _ hu => Or.inl hu
  | select => exact h.select hw he

/-! ### What is carried out -/

/-- A multihead activation that lands carries out the mode sets of its batch. -/
theorem Inv.activated (h : Inv hash s) {batch : PendingKms τ} {sl : Fin 4 → Option τ}
    {relit : Fin 4 → Bool} (hw : s.worker = .activating batch sl relit)
    (h2 : 2 ≤ count fun c => (sl c).isSome) {active : Fin 4 → ℕ} :
    Inv hash { s with
      modesetActive := active
      sent := sentBy batch sl s.sent
      worker := .executing batch.cmds true relit } := by
  have hbatch := h.batch batch (by rw [hw]; rfl)
  have hheld : ∀ x ∈ batch.cmds,
      s.published x.connector x.cls = some x ∨ (s.mailbox x.connector x.cls).isSome :=
    fun x hx => h.held x (by rw [hw]; exact hx)
  -- A mode set of the batch was programmed with the timing it names, or a newer one is about.
  have hmode : ∀ c t, modeSetOf batch c = some t → Accounted { s with
      modesetActive := active
      sent := sentBy batch sl s.sent
      worker := .executing batch.cmds true relit } c .stream := by
    intro c t hc
    rcases h.covered batch sl relit hw h2 c t hc with hsl | hm | hcalls
    · obtain ⟨c', hslot⟩ := modeSetOf_eq_some hc
      obtain rfl : c' = c := (hbatch c .stream _ hslot).1
      rcases hheld _ (PendingKms.mem_cmds.2 ⟨_, _, hslot⟩) with hpub | hm
      · refine Or.inr (Or.inr (Or.inr (Or.inr ?_)))
        simp only [sentBy, hc, hsl]
        exact hpub.symm
      · exact Or.inr (Or.inr (Or.inl hm))
    · exact Or.inr (Or.inr (Or.inl hm))
    · exact Or.inr (Or.inl ⟨rfl, hcalls⟩)
  refine
    { placed := h.placed
      newest := h.newest
      requests := h.requests
      timed := h.timed
      announced := h.announced
      held := hheld
      batch := fun _ he => by cases he
      aimed := fun _ _ _ he => by cases he
      covered := fun _ _ _ he => by cases he
      accounted := ?_ }
  intro c k
  by_cases hc : k = .stream ∧ ∃ t, modeSetOf batch c = some t
  · obtain ⟨rfl, t, hc⟩ := hc
    exact hmode c t hc
  · rcases h.accounted c k with hd | hcalls | hm | ⟨x, hx, rfl, rfl⟩ | hs
    · exact Or.inl hd
    · exact Or.inr (Or.inl hcalls)
    · exact Or.inr (Or.inr (Or.inl hm))
    · rw [hw] at hx
      refine Or.inr (Or.inr (Or.inr (Or.inl ⟨x, List.mem_filter.2 ⟨hx, ?_⟩, rfl, rfl⟩)))
      obtain ⟨c', k', hslot⟩ := PendingKms.mem_cmds.1 hx
      obtain ⟨rfl, rfl⟩ := hbatch c' k' x hslot
      cases x with
      | modeSet c' t =>
        refine absurd ⟨rfl, t, ?_⟩ hc
        exact congrArg (fun o => match o with | some (.modeSet _ t) => some t | _ => none) hslot
      | _ => rfl
    · refine Or.inr (Or.inr (Or.inr (Or.inr ?_)))
      have hkept : sentBy batch sl s.sent c k = s.sent c k := by
        unfold sentBy
        split
        next t' _ hc' _ => exact absurd ⟨rfl, t', hc'⟩ hc
        next => rfl
      exact hkept.trans hs

/-- The worker is done with a command. -/
theorem Inv.advance (h : Inv hash s) {cmd : KmsCmd τ} {rest : List (KmsCmd τ)} {dual : Bool}
    {relit relit' : Fin 4 → Bool} (hw : s.worker = .executing (cmd :: rest) dual relit)
    {active : Fin 4 → ℕ} {shot : Fin 4 → Option CursorShot} {sent : PendingKms τ} {dropped : Bool}
    (hsent : ∀ c k, ¬ (c = cmd.connector ∧ k = cmd.cls) → sent c k = s.sent c k)
    (hdropped : s.dropped = true → dropped = true)
    (hcmd : Accounted { s with
      modesetActive := active
      cursorShot := shot
      sent := sent
      dropped := dropped
      worker := .executing rest dual relit' } cmd.connector cmd.cls) :
    Inv hash { s with
      modesetActive := active
      cursorShot := shot
      sent := sent
      dropped := dropped
      worker := .executing rest dual relit' } where
  placed := h.placed
  newest := h.newest
  requests := h.requests
  timed := h.timed
  announced := h.announced
  held := fun x hx => h.held x (by rw [hw]; exact List.mem_cons_of_mem cmd hx)
  batch := fun _ he => by cases he
  aimed := fun _ _ _ he => by cases he
  covered := fun _ _ _ he => by cases he
  accounted := by
    intro c k
    by_cases hck : c = cmd.connector ∧ k = cmd.cls
    · rw [hck.1, hck.2]
      exact hcmd
    · rcases h.accounted c k with hd | hcalls | hm | ⟨x, hx, hxc, hxk⟩ | hs
      · exact Or.inl (hdropped hd)
      · exact Or.inr (Or.inl hcalls)
      · exact Or.inr (Or.inr (Or.inl hm))
      · rw [hw] at hx
        obtain ⟨hmem, hdue⟩ := List.mem_filter.1 hx
        refine Or.inr (Or.inr (Or.inr (Or.inl ⟨x, List.mem_filter.2 ⟨?_, hdue⟩, hxc, hxk⟩)))
        refine (List.mem_cons.1 hmem).resolve_left ?_
        rintro rfl
        exact hck ⟨hxc.symm, hxk.symm⟩
      · exact Or.inr (Or.inr (Or.inr (Or.inr ((hsent c k hck).trans hs))))

/-- A mode set that is skipped was covered by the activation, or a newer command is about. -/
theorem Inv.accounted_skip (h : Inv hash s) {cmd : KmsCmd τ} {rest : List (KmsCmd τ)} {dual : Bool}
    {relit : Fin 4 → Bool} (hw : s.worker = .executing (cmd :: rest) dual relit)
    (hskip : (dual && cmd.isModeSet || superseded hash s cmd) = true) :
    Accounted { s with worker := .executing rest dual relit } cmd.connector cmd.cls := by
  rcases h.accounted cmd.connector cmd.cls with hd | hcalls | hm | ⟨x, hx, hxc, hxk⟩ | hs
  · exact Or.inl hd
  · exact Or.inr (Or.inl hcalls)
  · exact Or.inr (Or.inr (Or.inl hm))
  · rw [hw] at hx
    obtain ⟨hmem, hdue⟩ := List.mem_filter.1 hx
    rcases List.mem_cons.1 hmem with rfl | hmem
    · have hsup : superseded hash s x = true := by
        rcases Bool.or_eq_true_iff.1 hskip with hcov | hsup
        · rw [hcov] at hdue
          cases hdue
        · exact hsup
      rcases h.held x (by rw [hw]; exact List.mem_cons_self) with hpub | hm
      · cases x with
        | modeSet c t =>
          refine Or.inr (Or.inl ⟨rfl, fun hcalls => ?_⟩)
          have := (h.requests c t hcalls hpub).1
          simp [superseded, this] at hsup
        | _ => cases hsup
      · exact Or.inr (Or.inr (Or.inl hm))
    · exact Or.inr (Or.inr (Or.inr (Or.inl ⟨x, List.mem_filter.2 ⟨hmem, hdue⟩, hxc, hxk⟩)))
  · exact Or.inr (Or.inr (Or.inr (Or.inr hs)))

/-- One command of the batch. -/
theorem Inv.execute (h : Inv hash s) {cmd : KmsCmd τ} {rest : List (KmsCmd τ)} {dual : Bool}
    {relit : Fin 4 → Bool} (hw : s.worker = .executing (cmd :: rest) dual relit) (r : Outcome) :
    Inv hash (Mailbox.execute hash s cmd rest dual relit r) := by
  unfold Mailbox.execute
  split
  next hskip => exact h.advance hw (fun _ _ _ => rfl) id (h.accounted_skip hw hskip)
  next =>
    cases r with
    | ok activated =>
      refine h.advance hw (fun c k hck => PendingKms.update_of_ne hck) id ?_
      rcases h.held cmd (by rw [hw]; exact List.mem_cons_self) with hpub | hm
      · refine Or.inr (Or.inr (Or.inr (Or.inr ?_)))
        exact (PendingKms.update_self s.sent cmd).trans hpub.symm
      · exact Or.inr (Or.inr (Or.inl hm))
    | invalid => exact h.advance hw (fun _ _ _ => rfl) (fun _ => rfl) (Or.inl rfl)
    | retryable =>
      refine h.deferred ?_ ?_ rfl rfl rfl rfl
      · intro x hx
        rw [hw] at hx
        exact Worker.mem_held hx
      · intro x hx
        rw [hw]
        exact hx

/-- A replay of what was published last. -/
theorem Inv.rearm (h : Inv hash s) {r : KmsCmd τ} {rs : List (KmsCmd τ)}
    (hw : s.worker = .rearming (r :: rs)) (hr : s.published r.connector r.cls = some r) :
    Inv hash { s with mailbox := s.mailbox.update r, worker := .rearming rs } where
  placed := h.placed
  newest := by
    intro c k x hx
    rcases PendingKms.update_eq_some hx with ⟨rfl, rfl, rfl⟩ | ⟨-, hx⟩
    · exact hr
    · exact h.newest c k x hx
  requests := h.requests
  timed := h.timed
  announced := h.announced
  held := fun x hx => by cases hx
  batch := fun _ he => by cases he
  aimed := fun _ _ _ he => by cases he
  covered := fun _ _ _ he => by cases he
  accounted := by
    intro c k
    by_cases hck : c = r.connector ∧ k = r.cls
    · right; right; left
      rw [hck.1, hck.2]
      exact Option.isSome_iff_exists.2 ⟨r, PendingKms.update_self s.mailbox r⟩
    · rcases h.accounted c k with hd | hcalls | hm | ⟨x, hx, -⟩ | hs
      · exact Or.inl hd
      · exact Or.inr (Or.inl hcalls)
      · refine Or.inr (Or.inr (Or.inl ?_))
        dsimp only
        rwa [PendingKms.update_of_ne hck]
      · rw [hw] at hx
        cases hx
      · exact Or.inr (Or.inr (Or.inr (Or.inr hs)))

theorem inv_step [DecidableEq τ] {d : Dock} {e : Event τ} (h : Inv hash s)
    (he : e.Faithful hash s) : Inv hash (step hash d s e) := by
  cases e with
  | enable c t =>
    simp only [step]
    split
    · have hcall : Inv hash { s with
          lastTiming := Function.update s.lastTiming c (some t)
          modesetRequested := Function.update s.modesetRequested c (s.modesetRequested c)
          modesetActive := s.modesetActive
          calls := Function.update s.calls c (some (.timed t)) } := by
        refine h.call (fun t' ht => ?_) nofun
        cases ht
        rfl
      simpa using hcall
    · exact h
  | request c =>
    simp only [step]
    split
    next t hcalls =>
      have hcall : Inv hash { s with
          lastTiming := Function.update s.lastTiming c (s.lastTiming c)
          modesetRequested := Function.update s.modesetRequested c (timingKey hash t)
          modesetActive := s.modesetActive
          calls := Function.update s.calls c (some (.announced (.modeSet c t))) } := by
        refine h.call nofun fun t' ht => ?_
        cases ht
        exact ⟨rfl, h.timed c t hcalls⟩
      simpa using hcall
    next => exact h
  | disable c =>
    simp only [step]
    split
    · have hcall : Inv hash { s with
          lastTiming := Function.update s.lastTiming c (s.lastTiming c)
          modesetRequested := Function.update s.modesetRequested c 0
          modesetActive := Function.update s.modesetActive c 0
          calls := Function.update s.calls c (some (.announced (.blank c))) } :=
        h.call nofun nofun
      simpa using hcall
    · exact h
  | queueCmd cmd =>
    simp only [step]
    split
    next hk =>
      split
      next hcalls =>
        refine h.publish ?_ ?_ fun _ => by simp
        · rintro c (hc | hne)
          · simp [hc]
          · exact absurd hk hne
        · rintro c t rfl
          exact h.announced c t hcalls
      next => exact h
    next hk =>
      refine h.publish (fun _ _ => rfl) ?_ fun hk' => absurd hk' hk
      rintro c t rfl
      exact absurd rfl hk
  | start =>
    simp only [step]
    split
    next hw => exact h.turn (by rw [hw]; rfl) rfl rfl
    next => exact h
  | drain =>
    simp only [step]
    split
    next hw => exact h.drain hw
    next => exact h
  | gather =>
    simp only [step]
    split
    next batch w p hw => exact h.gather d hw he
    next => exact h
  | finishActivation ok =>
    simp only [step]
    split
    next batch sl relit hw =>
      split
      next hok => exact h.activated hw hok.2
      next =>
        refine h.deferred ?_ ?_ rfl rfl rfl rfl
        · intro x hx
          rw [hw] at hx
          exact PendingKms.mem_restored.2 (PendingKms.mem_cmds.1 hx)
        · intro x hx
          rw [hw]
          exact PendingKms.mem_cmds.2 (PendingKms.mem_restored.1 hx)
    next => exact h
  | execute r =>
    simp only [step]
    split
    next cmd rest dual relit hw => exact h.execute hw r
    next => exact h
  | endBatch =>
    simp only [step]
    split
    next hw => exact h.turn (by rw [hw]; rfl) rfl rfl
    next => exact h
  | rearm =>
    simp only [step]
    split
    next r rs hw =>
      exact h.rearm hw (he r (by rw [hw]; rfl))
    next => exact h
  | endTurn =>
    simp only [step]
    split
    next hw =>
      refine h.turn (by rw [hw]; rfl) ?_ ?_
      · split <;> rfl
      · split <;> rfl
    next => exact h

theorem mailbox_deferred {m : PendingKms τ} {w w' : Worker τ} {c : Fin 4} {k : Class} {y : KmsCmd τ}
    (h : (Mailbox.deferred s m w w').mailbox c k = some y) : m c k = some y := by
  unfold Mailbox.deferred at h
  split at h
  · cases h
  · exact h

theorem mailbox_gather (d : Dock) (batch : PendingKms τ) (w : Wake τ) (p : Phase τ) :
    (Mailbox.gather hash d s batch w p).mailbox = s.mailbox := by
  unfold Mailbox.gather
  split <;> first | rfl | (split <;> rfl)

theorem mailbox_execute {cmd x y : KmsCmd τ} {rest : List (KmsCmd τ)} {dual : Bool}
    {relit : Fin 4 → Bool} {r : Outcome} {c : Fin 4} {k : Class} (hx : s.mailbox c k = some x)
    (hy : (Mailbox.execute hash s cmd rest dual relit r).mailbox c k = some y) : x = y := by
  unfold Mailbox.execute at hy
  split at hy
  · exact Option.some.inj (hx.symm.trans hy)
  · cases r with
    | ok activated => exact Option.some.inj (hx.symm.trans hy)
    | invalid => exact Option.some.inj (hx.symm.trans hy)
    | retryable =>
      have hy' := mailbox_deferred hy
      rw [PendingKms.foldl_retry_of_some _ hx] at hy'
      exact Option.some.inj hy'

/-- A command in a slot gives way to another only by a publication. -/
theorem slot_step [DecidableEq τ] {d : Dock} {e : Event τ} (h : Inv hash s)
    (he : e.Faithful hash s) {c : Fin 4} {k : Class} {x y : KmsCmd τ}
    (hx : s.mailbox c k = some x) (hy : (step hash d s e).mailbox c k = some y) :
    x = y ∨ e = .queueCmd y := by
  have hsame : s.mailbox c k = some y → x = y := fun hy => Option.some.inj (hx.symm.trans hy)
  cases e with
  | enable c' t =>
    simp only [step] at hy
    split at hy <;> exact Or.inl (hsame hy)
  | request c' =>
    simp only [step] at hy
    split at hy <;> exact Or.inl (hsame hy)
  | disable c' =>
    simp only [step] at hy
    split at hy <;> exact Or.inl (hsame hy)
  | queueCmd cmd =>
    have hupdate : s.mailbox.update cmd c k = some y →
        x = y ∨ Event.queueCmd cmd = .queueCmd y := by
      intro hy
      rcases PendingKms.update_eq_some hy with ⟨-, -, rfl⟩ | ⟨-, hy⟩
      · exact Or.inr rfl
      · exact Or.inl (hsame hy)
    simp only [step] at hy
    split at hy
    · split at hy
      · exact hupdate hy
      · exact Or.inl (hsame hy)
    · exact hupdate hy
  | start =>
    simp only [step] at hy
    split at hy <;> exact Or.inl (hsame hy)
  | drain =>
    simp only [step] at hy
    split at hy
    · cases hy
    · exact Or.inl (hsame hy)
  | gather =>
    simp only [step] at hy
    split at hy
    next batch w p hw => exact Or.inl (hsame (by rwa [mailbox_gather] at hy))
    next => exact Or.inl (hsame hy)
  | finishActivation ok =>
    simp only [step] at hy
    split at hy
    · split at hy
      · exact Or.inl (hsame hy)
      · have hy' := mailbox_deferred hy
        rw [PendingKms.retryBatch, PendingKms.foldl_retry_of_some _ hx] at hy'
        exact Or.inl (Option.some.inj hy')
    · exact Or.inl (hsame hy)
  | execute r =>
    simp only [step] at hy
    split at hy
    · exact Or.inl (mailbox_execute hx hy)
    · exact Or.inl (hsame hy)
  | endBatch =>
    simp only [step] at hy
    split at hy <;> exact Or.inl (hsame hy)
  | rearm =>
    simp only [step] at hy
    split at hy
    next r rs hw =>
      have hr := he r (by rw [hw]; rfl)
      rcases PendingKms.update_eq_some hy with ⟨rfl, rfl, rfl⟩ | ⟨-, hy⟩
      · exact Or.inl (Option.some.inj ((h.newest _ _ x hx).symm.trans hr))
      · exact Or.inl (hsame hy)
    next => exact Or.inl (hsame hy)
  | endTurn =>
    simp only [step] at hy
    split at hy <;> exact Or.inl (hsame hy)

/-- With nothing under way, what was carried out last is what was published last. -/
theorem Inv.settled (h : Inv hash s) (hq : Quiescent s) (c : Fin 4) (k : Class) :
    s.sent c k = s.published c k := by
  rcases h.accounted c k with hd | ⟨-, hcalls⟩ | hm | ⟨x, hx, -⟩ | hs
  · rw [hq.dropped] at hd
    cases hd
  · exact absurd (hq.calls c) hcalls
  · rw [PendingKms.eq_none_of_isEmpty hq.mailbox c k] at hm
    cases hm
  · rw [hq.worker] at hx
    cases hx
  · exact hs

/-! ### Runs -/

/-- **The mailbox keeps the newest desired state.**  In every run of the callbacks and the worker
whose steps are faithful, a command in a slot is replaced by another only when that other one is
published; and when nothing is queued, under way or dropped, the last command carried out in each
class of each connector is the last one published. -/
theorem mailbox_newest [DecidableEq τ] (d : Dock) (es : List (Event τ))
    (hfaithful : Along (fun s e => e.Faithful hash s) (step hash d) State.initial es) :
    (∀ pre e post, es = pre ++ e :: post → ∀ c k x y,
      (run (step hash d) State.initial pre).mailbox c k = some x →
        (run (step hash d) State.initial (pre ++ [e])).mailbox c k = some y →
          x = y ∨ e = .queueCmd y) ∧
      (Quiescent (run (step hash d) State.initial es) → ∀ c k,
        (run (step hash d) State.initial es).sent c k =
          (run (step hash d) State.initial es).published c k) := by
  have hinv : ∀ fs, Along (fun s e => e.Faithful hash s) (step hash d) State.initial fs →
      Inv hash (run (step hash d) State.initial fs) := fun fs hfs =>
    run_invariant (P := Inv hash) (fun _ _ h he => inv_step h he) fs State.initial
      (inv_initial hash) hfs
  constructor
  · rintro pre e post rfl c k x y hx hy
    obtain ⟨hpre, he, -⟩ := (along_append pre (e :: post) State.initial).1 hfaithful
    rw [run_append] at hy
    exact slot_step (hinv pre hpre) he hx hy
  · exact fun hq => (hinv es hfaithful).settled hq

end Wake

/-- The worker takes a batch of which nothing goes together. -/
def taken : List (Event ℕ) := [.drain, .gather, .gather, .gather]

/-- A cursor is put up, and the worker takes a mode set on its connector. -/
def cursorThenMode : List (Event ℕ) :=
  ([.queueCmd (.cursorCreate 0 64 64), .queueCmd (.cursorImage 0 64 64 [7]),
    .queueCmd (.cursorMove 0 1 1 true), .start] : List (Event ℕ)) ++ taken ++
  ([.execute (.ok true), .execute (.ok true), .execute (.ok true), .endBatch, .endTurn,
    .enable 0 5, .request 0, .queueCmd (.modeSet 0 5), .start] : List (Event ℕ)) ++ taken

/-- The mode set lands, and the cursor is replayed and sent. -/
def modeThenReplay : List (Event ℕ) :=
  ([.execute (.ok true), .endBatch, .rearm, .rearm, .rearm, .endTurn] : List (Event ℕ)) ++ taken ++
  ([.execute (.ok true), .execute (.ok true), .execute (.ok true), .endBatch, .endTurn] :
    List (Event ℕ))

/-- A dock with a video pipe of its own and two connectors. -/
def ridge : Dock where
  connectors := 2
  videoOnCtrlPipe := false
  dockWideModeset := false

/-- The pointer rests. -/
def restingDuringMode : List (Event ℕ) := cursorThenMode ++ modeThenReplay

theorem mailbox_newest_restingDuringMode :
    Quiescent (run (step id ridge) State.initial restingDuringMode) ∧
      (run (step id ridge) State.initial restingDuringMode).sent 0 .cursorMove =
        some (.cursorMove 0 1 1 true) ∧
      ∀ c k, (run (step id ridge) State.initial restingDuringMode).sent c k =
        (run (step id ridge) State.initial restingDuringMode).published c k := by
  have hq : Quiescent (run (step id ridge) State.initial restingDuringMode) :=
    ⟨by decide +kernel, rfl, by decide +kernel, rfl⟩
  refine ⟨hq, rfl, (mailbox_newest ridge restingDuringMode ?_).2 hq⟩
  decide +kernel

/-- The pointer moves while the mode set runs; the replay puts the old position over the new one. -/
def movedDuringMode : State ℕ :=
  run (step id ridge) State.initial
    (cursorThenMode ++ .queueCmd (.cursorMove 0 2 2 true) :: modeThenReplay)

theorem cursor_move_lost :
    Quiescent movedDuringMode ∧
      movedDuringMode.sent 0 .cursorMove = some (.cursorMove 0 1 1 true) ∧
      movedDuringMode.published 0 .cursorMove = some (.cursorMove 0 2 2 true) := by
  refine ⟨⟨?_, rfl, ?_, rfl⟩, rfl, rfl⟩
  · decide +kernel
  · decide +kernel

end Vino.Kms.Mailbox
