import Vino.Kms.Timeline
import Vino.Lib.Run

/-!
# Activations

The command worker takes the mode sets of a batch: it gathers the connectors to be woken, lets the
others of the dock join where the dock asks for it, and brings them up in one transaction, or one by
one.  A transaction closes the brackets a blank has left open, runs its script, and undoes what it
has opened when a message fails or a request has moved on.  Callbacks change the requests at any
point, and every message may fail.

* `activation_unwound`: in every run in which no request has moved on behind the set-mode of a cold
  wake and no blank falls into a probe, a transaction that does not succeed leaves every participant
  dark, has tried to close every bracket it opened unless the link is dead, and a blank's bracket is
  forgotten only once it was closed; in every run at all it is forgotten only behind a complete
  closing sequence of its own,
* `superseded_left_open`: a cold wake one of whose requests moves on ends with a bracket open.
-/

namespace Vino.Kms.Activation

open Vino.Profile Vino.Lib.Run
open Vino.Kms.Mailbox (count timingKey)
open Vino.Kms.Timeline

local instance neZero_four : NeZero 4 := ⟨by decide⟩

variable {τ : Type}

/-! ### Transactions -/

/-- What was handed to the link: a message, or the closing sequence of a bracket with the number of
its markers that went out. -/
inductive Entry (τ : Type) where
  | sent (m : Message τ) (ok : Bool)
  | close (connector : Fin 4) (markers : ℕ)
  deriving DecidableEq

/-- The bracket of a connector was opened and no close attempted since, in a record whose newest
entry comes first. -/
def Open (c : Fin 4) : List (Entry τ) → Bool
  | [] => false
  | .close c' _ :: log => c' != c && Open c log
  | .sent (.marker c' sub state) ok :: log =>
      (c' == c && sub == 0x2f && state == 1 && ok) || Open c log
  | .sent _ _ :: log => Open c log

inductive Kind where
  | head
  | dualWake
  /-- `activate_dock_wide`, with the table of a live reconfiguration or the cold one. -/
  | dockWide (runtime : Bool)
  deriving DecidableEq

def steps (runtime : Bool) : List DockWideStep := if runtime then ellaRuntimeMode else ellaDockWide

structure Transaction (τ : Type) where
  kind : Kind
  /-- `cmd_connectors`. -/
  connectors : Fin 4 → Bool
  /-- `requested_connector_mask`, as the transaction found it. -/
  mask : Fin 4 → Bool
  timings : Fin 4 → Option τ
  keys : Fin 4 → ℕ
  /-- The connectors that take part. -/
  valid : Fin 4 → Bool
  /-- Those whose mode is in force. -/
  sent : Fin 4 → Bool
  /-- A failure that is kept for later. -/
  failed : Bool
  log : List (Entry τ)

namespace Transaction

variable (a : Transaction τ)

def start (kind : Kind) (connectors mask : Fin 4 → Bool) (timings : Fin 4 → Option τ) :
    Transaction τ :=
  ⟨kind, connectors, mask, timings, fun _ => 0, fun _ => false, fun _ => false, false, []⟩

def participants : List (Fin 4) := (List.finRange 4).filter a.valid

/-- The connectors a transaction cannot do without. -/
def wanted : ℕ :=
  match a.kind with
  | .head => 0
  | .dualWake => 2
  | .dockWide runtime => Timeline.wanted (steps runtime)

def script (p : DockProfile) : List (Op τ) :=
  match a.kind with
  | .head =>
      match a.timings (connectorOf a.valid 0) with
      | some t => headScript p (connectorOf a.valid 0) t
      | none => []
  | .dualWake => dualScript p a.valid a.timings
  | .dockWide runtime => dockWideScript a.valid a.timings (steps runtime)

/-- The carriers behind the script. -/
def tail (p : DockProfile) (rounds : ℕ) : List (Op τ) :=
  match a.kind with
  | .head => headTail p (connectorOf a.valid 0)
  | .dualWake => dualTail a.valid rounds
  | .dockWide _ => []

def note (e : Entry τ) : Transaction τ := { a with log := e :: a.log }

end Transaction

/-- Before the script. -/
inductive Pre where
  /-- Look at the requests once more. -/
  | recheck
  /-- `close_blank_bracket`. -/
  | closeBlank (connector : Fin 4)
  /-- Forget the blank. -/
  | clearBlank (connector : Fin 4)
  /-- `close_bracket_before_probe`, of the sink that is engaged again. -/
  | closeProbe (connector : Fin 4)

def Transaction.prepare (a : Transaction τ) : List Pre :=
  (if a.kind = .dualWake then [] else [.recheck]) ++ a.participants.map .closeBlank

/-- How a transaction ends: `Ok(true)`, `Ok(false)` or an error. -/
inductive Result where
  | activated
  | superseded
  | failed
  deriving DecidableEq

/-! ### States -/

inductive Stream (τ : Type) where
  | modeSet (timing : τ)
  | blank

/-- What the worker does next for a connector that may join at its sibling's mode. -/
inductive Join where
  | look
  /-- Store the timing. -/
  | timing (connector : Fin 4)
  /-- Store the request. -/
  | request (connector : Fin 4)

/-- Where the command worker is. -/
inductive Worker (τ : Type) where
  /-- Between transactions. -/
  | free
  /-- Gathering the connectors of the batch that are to be woken. -/
  | gathering (todo : List (Fin 4)) (timings : Fin 4 → Option τ)
  /-- Having the connectors nobody asked for join at this mode. -/
  | joining (timing : τ) (next : Join) (connectors : Fin 4 → Bool) (todo : List (Fin 4))
    (timings : Fin 4 → Option τ)
  /-- Gathering the connectors of a dock-wide mode set. -/
  | folding (connectors : Fin 4 → Bool) (todo : List (Fin 4)) (timings fold : Fin 4 → Option τ)
  /-- Looking which connectors take part. -/
  | entering (a : Transaction τ) (todo : List (Fin 4))
  | preparing (a : Transaction τ) (todo : List Pre)
  /-- In the script, with the tail still to come, or in the tail. -/
  | running (a : Transaction τ) (todo : List (Op τ)) (tail : Option (List (Op τ)))
  /-- Behind a set-mode, before the look at the request. -/
  | checking (a : Transaction τ) (c : Fin 4) (todo : List (Op τ)) (tail : Option (List (Op τ)))
  /-- Behind that look. -/
  | storing (a : Transaction τ) (c : Fin 4) (todo : List (Op τ)) (tail : Option (List (Op τ)))
  | unwinding (a : Transaction τ) (todo : List (Fin 4)) (r : Result)
  | ended (a : Transaction τ) (r : Result)

structure State (τ : Type) where
  modesetRequested : Fin 4 → ℕ
  modesetActive : Fin 4 → ℕ
  lastTiming : Fin 4 → Option τ
  programmedTiming : Fin 4 → Option τ
  /-- The stream commands of the mailbox, of the batch in hand, and of callbacks that are about to
  publish one. -/
  mailbox : Fin 4 → Option (Stream τ)
  hand : Fin 4 → Option (Stream τ)
  calls : Fin 4 → Option (Stream τ)
  blankBracketOpen : Fin 4 → Bool
  /-- `cp_session_live`. -/
  live : Bool
  worker : Worker τ
  /-- A probe of the presence watcher has closed the bracket and is about to forget the blank. -/
  probing : Fin 4 → Bool
  /-- Complete closing sequences sent, blanks forgotten, and whether a complete one went out since
  the last blank. -/
  closes : Fin 4 → ℕ
  clears : Fin 4 → ℕ
  closed : Fin 4 → Bool

def State.initial : State τ where
  modesetRequested := fun _ => 0
  modesetActive := fun _ => 0
  lastTiming := fun _ => none
  programmedTiming := fun _ => none
  mailbox := fun _ => none
  hand := fun _ => none
  calls := fun _ => none
  blankBracketOpen := fun _ => false
  live := true
  worker := .free
  probing := fun _ => false
  closes := fun _ => 0
  clears := fun _ => 0
  closed := fun _ => false

/-- What the link does with the next message, or how many markers of a closing sequence go out;
how long the carriers of a tail go on. -/
structure Outcome where
  ok : Bool
  alive : Bool
  markers : ℕ
  rounds : ℕ

inductive Event (τ : Type) where
  /-- `atomic_enable` stores the timing and its generation. -/
  | enable (connector : Fin 4) (timing : τ)
  | disable (connector : Fin 4)
  /-- A callback publishes its command. -/
  | publish (connector : Fin 4)
  /-- The worker takes the mailbox. -/
  | drain
  /-- `activate_head`, for a command of the batch or from a scanout worker. -/
  | activateHead (connector : Fin 4) (timing : τ)
  /-- An activation of a scanout worker ends while the batch is still looked through. -/
  | scanout (connector : Fin 4) (timing : τ) (ok : Bool)
  /-- `blank_connector`, whose markers may fail. -/
  | blank (connector : Fin 4) (ok : Bool)
  /-- `close_bracket_before_probe` of the presence watcher. -/
  | probe (connector : Fin 4) (o : Outcome)
  | probeClear (connector : Fin 4)
  /-- The next step of the worker. -/
  | work (o : Outcome)
  /-- The worker leaves the transaction: its mode sets are done, or go back. -/
  | finish
  /-- The rest of the batch goes back, or is done. -/
  | requeue (back : Fin 4 → Bool)

/-! ### One step -/

section Step

variable (p : DockProfile) (hash : τ → ℕ) (dualNivo : Bool → τ → τ)

/-- Another requested connector shares the endpoint: the partner is two away. -/
def endpointShared (c : Fin 4) (mask : Fin 4 → Bool) : Bool :=
  decide (2 < p.topology.connectors.toNat) && mask (c + 2)

/-- The timing that goes on the wire. -/
def effectiveTiming (c : Fin 4) (mask : Fin 4 → Bool) (t : τ) : τ :=
  dualNivo (endpointShared p c mask) t

namespace State

variable (s : State τ)

def requestedMask : Fin 4 → Bool := fun c => s.modesetRequested c != 0

/-- The markers of a closing sequence that go out. -/
def delivered (o : Outcome) : ℕ := if s.live then min o.markers 4 else 0

/-- `send_bracket_close`. -/
def close (c : Fin 4) (o : Outcome) : State τ :=
  { s with
    live := s.live && o.alive
    closes := if s.delivered o = 4 then Function.update s.closes c (s.closes c + 1) else s.closes
    closed := if s.delivered o = 4 then Function.update s.closed c true else s.closed }

def clearBlank (c : Fin 4) : State τ :=
  { s with
    blankBracketOpen := Function.update s.blankBracketOpen c false
    clears := Function.update s.clears c (s.clears c + 1) }

/-- `should_close`: a dock with video on its control pipe defers beside a lit connector. -/
def shouldClose (c : Fin 4) : Bool :=
  !p.topology.videoOnCtrlPipe ||
    (List.finRange 4).all fun c' => c' == c || s.modesetActive c' == 0

/-- The participants are dark; a cold wake only takes back what it has put in force. -/
def zero (a : Transaction τ) : State τ :=
  if a.kind = .dualWake then
    { s with modesetActive := fun c =>
        if a.sent c && s.modesetActive c == a.keys c then 0 else s.modesetActive c }
  else
    { s with
      modesetActive := fun c => if a.valid c then 0 else s.modesetActive c
      programmedTiming := fun c => if a.valid c then none else s.programmedTiming c }

def unwind (a : Transaction τ) (r : Result) : State τ :=
  { s with worker := .unwinding a a.participants r }

/-- The transaction ends in an error. -/
def fail (a : Transaction τ) : State τ := (s.zero a).unwind a .failed

/-- The script is through: were enough connectors programmed? -/
def settle (a : Transaction τ) (tail : List (Op τ)) : State τ :=
  if count a.sent < a.wanted then
    if a.kind = .dualWake then { s.zero a with worker := .ended a .superseded }
    else (s.zero a).unwind a .superseded
  else { s with worker := .running a tail none }

/-- A message of the script. -/
def transmit (a : Transaction τ) (m : Message τ) (o : Outcome) (next : Transaction τ → Worker τ) :
    State τ :=
  if s.live && o.ok then
    { s with live := o.alive, worker := next (a.note (.sent m true)) }
  else { s with live := s.live && o.alive }.fail (a.note (.sent m false))

/-- One operation of the script. -/
def exec (a : Transaction τ) (todo : List (Op τ)) (tail : Option (List (Op τ))) (o : Outcome) :
    Op τ → State τ
  | .send m => s.transmit a m o fun a => .running a todo tail
  | .sendIf c m =>
      if a.sent c then s.transmit a m o fun a => .running a todo tail
      else { s with worker := .running a todo tail }
  | .attempt m =>
      { s with
        live := s.live && o.alive
        worker := .running { a.note (.sent m (s.live && o.ok)) with
          failed := a.failed || !(s.live && o.ok) } todo tail }
  | .raise => if a.failed then s.fail a else { s with worker := .running a todo tail }
  | .invalid => s.fail a
  | .program c t =>
      let s' := s.transmit a (.setMode c t) o fun a => .checking a c todo tail
      if s.live && o.ok then
        { s' with programmedTiming := Function.update s.programmedTiming c (some t) }
      else s'

/-- The look behind a set-mode. -/
def check (a : Transaction τ) (c : Fin 4) (todo : List (Op τ)) (tail : Option (List (Op τ))) :
    State τ :=
  if s.modesetRequested c = a.keys c then { s with worker := .storing a c todo tail }
  else
    match a.kind with
    | .head =>
        { s with
          programmedTiming := Function.update s.programmedTiming c none }.unwind a .superseded
    | .dualWake => { s with worker := .running a todo tail }
    | .dockWide _ => s.settle a []

/-- One step before the script. -/
def prepareStep (a : Transaction τ) (todo : List Pre) (o : Outcome) : Pre → State τ
  | .recheck =>
      if (List.finRange 4).any (fun c => a.valid c && s.modesetRequested c != a.keys c) then
        { s with worker := .ended a .superseded }
      else { s with worker := .preparing a todo }
  | .closeBlank c =>
      if s.blankBracketOpen c then
        let a' := a.note (.close c (s.delivered o))
        { s.close c o with
          worker :=
            if s.delivered o = 4 then
              .preparing a' (.clearBlank c ::
                (if p.topology.videoOnCtrlPipe then todo else .closeProbe c :: todo))
            else .ended a' .failed }
      else { s with worker := .preparing a todo }
  | .clearBlank c => { s.clearBlank c with worker := .preparing a todo }
  | .closeProbe c =>
      if s.shouldClose p c then
        { s.close c o with
          worker := .preparing (a.note (.close c (s.delivered o)))
              (if s.delivered o = 4 then .clearBlank c :: todo else todo) }
      else { s with worker := .preparing a todo }

/-! ### Taking a batch -/

/-- The batch has a mode set for the connector. -/
def named (c : Fin 4) : Bool :=
  match s.hand c with
  | some (.modeSet _) => true
  | _ => false

/-- A mode set that wakes a dark connector and is still wanted. -/
def gatherTiming (c : Fin 4) : Option τ :=
  match s.hand c with
  | some (.modeSet t) =>
      if s.modesetActive c = 0 ∧ s.modesetRequested c = timingKey hash t then some t else none
  | _ => none

/-- What a dock-wide mode set takes of a connector. -/
def foldTiming (connectors : Fin 4 → Bool) (c : Fin 4) : Option τ :=
  if connectors c then
    (s.lastTiming c).filter fun t => s.modesetRequested c == timingKey hash t
  else if s.modesetActive c ≠ 0 ∧ s.modesetRequested c = s.modesetActive c then s.lastTiming c
  else none

/-- Bring the connectors up together if there are two. -/
def choose (connectors : Fin 4 → Bool) (timings : Fin 4 → Option τ) : State τ :=
  { s with
    worker :=
      if 2 ≤ count (fun c => (timings c).isSome) then
        .entering (.start (if p.topology.videoOnCtrlPipe then .dockWide false else .dualWake)
          connectors s.requestedMask timings) (List.finRange 4)
      else .free }

/-- On a dock whose mode sets are dock-wide, the lit connectors are looked at first. -/
def joined (connectors : Fin 4 → Bool) (timings : Fin 4 → Option τ) : State τ :=
  if p.protocol.dockWideModeset && (List.finRange 4).any connectors then
    { s with worker := .folding connectors (List.finRange 4) timings fun _ => none }
  else s.choose p connectors timings

/-- On a dock with video on its control pipe, a connector nobody asked for joins at its sibling's
mode. -/
def joins (timings : Fin 4 → Option τ) (c : Fin 4) : Bool :=
  c.1 < p.topology.connectors.toNat && (timings c).isNone && s.modesetRequested c == 0 &&
    s.modesetActive c == 0

/-- The next look or store for a connector that may join. -/
def join (t : τ) (next : Join) (connectors : Fin 4 → Bool) (todo : List (Fin 4))
    (timings : Fin 4 → Option τ) : State τ :=
  match next, todo with
  | .look, c :: todo =>
      { s with
        worker := .joining t (if s.joins p timings c then .timing c else .look) connectors todo
          timings }
  | .look, [] => s.joined p connectors timings
  | .timing c, todo =>
      { s with
        lastTiming := Function.update s.lastTiming c (some t)
        worker := .joining t (.request c) connectors todo timings }
  | .request c, todo =>
      { s with
        modesetRequested := Function.update s.modesetRequested c (timingKey hash t)
        worker := .joining t .look (Function.update connectors c true) todo
          (Function.update timings c (some t)) }

/-- The gathering is over: beside a single connector that wakes, others may join. -/
def gathered (timings : Fin 4 → Option τ) : State τ :=
  match (List.finRange 4).findSome? timings with
  | none => s.joined p s.named timings
  | some t =>
      if p.topology.videoOnCtrlPipe && count (fun c => (timings c).isSome) == 1 then
        { s with worker := .joining t .look s.named (List.finRange 4) timings }
      else s.joined p s.named timings

/-- The folding is over: two connectors make a dock-wide mode set. -/
def folded (connectors : Fin 4 → Bool) (timings fold : Fin 4 → Option τ) : State τ :=
  if 2 ≤ count (fun c => (fold c).isSome) then
    { s with modesetActive := fun c => if (fold c).isSome then 0 else s.modesetActive c }.choose p
      (fun c => (fold c).isSome || connectors c) fun c => (fold c).or (timings c)
  else s.choose p connectors timings

/-- Whether a connector takes part. -/
def enter (a : Transaction τ) (c : Fin 4) : Transaction τ :=
  match a.timings c with
  | none => a
  | some t =>
      if s.modesetRequested c = timingKey hash t ∧ (a.kind = .dualWake → s.modesetActive c = 0) then
        { a with
          timings := Function.update a.timings c (some (effectiveTiming p dualNivo c a.mask t))
          keys := Function.update a.keys c (timingKey hash t)
          valid := Function.update a.valid c true }
      else a

/-- The transaction begins, unless it is short of connectors. -/
def entered (a : Transaction τ) : State τ :=
  if count a.valid < a.wanted then
    { s with worker := .ended { a with valid := fun _ => false } .superseded }
  else if a.kind = .dualWake then { s with worker := .preparing a a.prepare }
  else { s.zero a with worker := .preparing a a.prepare }

/-- The mode is programmed already, under another generation. -/
def adopts (c : Fin 4) (t : τ) [DecidableEq τ] : Bool :=
  s.modesetActive c != 0 &&
    s.programmedTiming c == some (effectiveTiming p dualNivo c s.requestedMask t)

/-- A transaction for one connector. -/
def headOf (c : Fin 4) (t : τ) : Transaction τ :=
  { Transaction.start .head (fun c' => c' == c) s.requestedMask fun c' =>
      if c' = c then some (effectiveTiming p dualNivo c s.requestedMask t) else none with
    keys := fun c' => if c' = c then timingKey hash t else 0
    valid := fun c' => c' == c }

/-- `activate_head`. -/
def activateHead [DecidableEq τ] (c : Fin 4) (t : τ) : State τ :=
  if s.modesetRequested c ≠ timingKey hash t then s
  else if s.adopts p dualNivo c t then
    { s with modesetActive := Function.update s.modesetActive c (timingKey hash t) }
  else if p.topology.videoOnCtrlPipe &&
      (List.finRange 4).any (fun c' => c' != c && s.modesetActive c' != 0) then
    { s with
      worker := .entering (.start (.dockWide true) (fun c' => c' == c) s.requestedMask
        fun c' => if c' = c then some t else none) (List.finRange 4) }
  else
    { s with
      modesetActive := Function.update s.modesetActive c 0
      programmedTiming := Function.update s.programmedTiming c none
      worker := .preparing (s.headOf p hash dualNivo c t) (s.headOf p hash dualNivo c t).prepare }

/-- The next step of the worker. -/
def work (o : Outcome) : State τ :=
  match s.worker with
  | .free | .ended .. => s
  | .gathering (c :: todo) timings =>
      { s with worker := .gathering todo (Function.update timings c (s.gatherTiming hash c)) }
  | .gathering [] timings => s.gathered p timings
  | .folding connectors (c :: todo) timings fold =>
      { s with
        worker := .folding connectors todo timings
          (Function.update fold c (s.foldTiming hash connectors c)) }
  | .folding connectors [] timings fold => s.folded p connectors timings fold
  | .entering a (c :: todo) =>
      { s with worker := .entering (s.enter p hash dualNivo a c) todo }
  | .entering a [] => s.entered a
  | .preparing a (pre :: todo) => s.prepareStep p a todo o pre
  | .preparing a [] => { s with worker := .running a (a.script p) (some (a.tail p o.rounds)) }
  | .running a (op :: todo) tail => s.exec a todo tail o op
  | .running a [] (some tail) => s.settle a tail
  | .running a [] none => { s with worker := .ended a .activated }
  | .checking a c todo tail => s.check a c todo tail
  | .storing a c todo tail =>
      { s with
        modesetActive := Function.update s.modesetActive c (a.keys c)
        worker := .running { a with sent := Function.update a.sent c true } todo tail }
  | .unwinding a (c :: todo) r =>
      if s.live then
        { s.close c o with worker := .unwinding (a.note (.close c (s.delivered o))) todo r }
      else { s with worker := .unwinding a todo r }
  | .unwinding a [] r => { s with worker := .ended a r }
  | .joining t next connectors todo timings => s.join p hash t next connectors todo timings

/-- Commands go back to the mailbox, behind newer ones. -/
def putBack (back : Fin 4 → Bool) : State τ :=
  { s with
    mailbox := fun c => (s.mailbox c).or (if back c then s.hand c else none)
    hand := fun _ => none }

/-- The end of a transaction. -/
def finish : State τ :=
  match s.worker with
  | .ended a r =>
      match a.kind, r with
      | .dualWake, .activated | .dockWide false, .activated =>
          { s with hand := fun _ => none, worker := .free }
      | .dualWake, _ | .dockWide false, _ => { s.putBack fun _ => true with worker := .free }
      | _, _ => { s with worker := .free }
  | _ => s

end State

/-- The worker is between transactions. -/
def Worker.isFree : Worker τ → Bool
  | .free => true
  | _ => false

/-- The batch is still looked through, and the scanout workers are not held back yet. -/
def Worker.isLooking : Worker τ → Bool
  | .gathering .. | .joining .. | .folding .. => true
  | _ => false

/-- One step of a callback, of the worker or of the presence watcher; a step that is not due changes
nothing. -/
def step [DecidableEq τ] (s : State τ) : Event τ → State τ
  | .enable c t =>
      if (s.calls c).isNone then
        { s with
          lastTiming := Function.update s.lastTiming c (some t)
          modesetRequested := Function.update s.modesetRequested c (timingKey hash t)
          calls := Function.update s.calls c (some (.modeSet t)) }
      else s
  | .disable c =>
      if (s.calls c).isNone then
        { s with
          modesetRequested := Function.update s.modesetRequested c 0
          modesetActive := Function.update s.modesetActive c 0
          programmedTiming := Function.update s.programmedTiming c none
          calls := Function.update s.calls c (some .blank) }
      else s
  | .publish c =>
      { s with
        mailbox := Function.update s.mailbox c ((s.calls c).or (s.mailbox c))
        calls := Function.update s.calls c none }
  | .drain =>
      if s.worker.isFree && (List.finRange 4).all (fun c => (s.hand c).isNone) then
        { s with
          mailbox := fun _ => none
          hand := s.mailbox
          worker := .gathering (List.finRange 4) fun _ => none }
      else s
  | .activateHead c t => if s.worker.isFree then s.activateHead p hash dualNivo c t else s
  | .scanout c t ok =>
      if s.worker.isLooking && s.modesetRequested c == timingKey hash t then
        { s with
          modesetActive := Function.update s.modesetActive c (if ok then timingKey hash t else 0) }
      else s
  | .blank c ok =>
      if s.worker.isFree && s.live && ok && p.protocol.blankBracket == .markersHeld then
        { s with
          blankBracketOpen := Function.update s.blankBracketOpen c true
          closed := Function.update s.closed c false }
      else s
  | .probe c o =>
      if !s.probing c && s.shouldClose p c then
        { s.close c o with probing := Function.update s.probing c (s.delivered o == 4) }
      else s
  | .probeClear c =>
      if s.probing c then { s.clearBlank c with probing := Function.update s.probing c false }
      else s
  | .work o => s.work p hash dualNivo o
  | .finish => s.finish
  | .requeue back => if s.worker.isFree then s.putBack back else s

end Step

/-! ### What a transaction leaves -/

section Invariant

variable {p : DockProfile} {hash : τ → ℕ} {dualNivo : Bool → τ → τ} {s : State τ}
  {a : Transaction τ} {active active' : Fin 4 → ℕ} {live live' : Bool}

/-- The operation programs a connector. -/
def isProgram : Op τ → Bool
  | .program .. => true
  | _ => false

def programs (ops : List (Op τ)) : ℕ := ops.countP isProgram

/-- The participants are dark. -/
def Dark (active : Fin 4 → ℕ) (a : Transaction τ) : Prop := ∀ c, a.valid c = true → active c = 0

/-- Only the brackets of these connectors are open, or the link is dead. -/
def OpenOnly (live : Bool) (a : Transaction τ) (todo : List (Fin 4)) : Prop :=
  ∀ c, Open c a.log = true → c ∈ todo ∨ live = false

/-- In the script: a participant is dark, or its mode is in force; only brackets of participants
are open, and the script addresses no others. -/
structure Running (active : Fin 4 → ℕ) (a : Transaction τ) (todo : List (Op τ)) : Prop where
  lit : ∀ c, a.valid c = true → active c = 0 ∨ a.sent c = true ∧ active c = a.keys c
  opened : ∀ c, Open c a.log = true → a.valid c = true
  within : Within a.valid todo

/-- A transaction for one connector programs it once. -/
def Once (a : Transaction τ) (todo : List (Op τ)) : Prop :=
  a.kind = .head → programs todo ≤ 1 ∧ (programs todo = 1 → ∀ c, a.sent c = false)

/-- Both slots of a cold wake are programmed or still to be. -/
def Slots (a : Transaction τ) (now : Option (Fin 4)) (todo : List (Op τ)) : Prop :=
  a.kind = .dualWake → 2 ≤ count a.valid ∧ ∀ slot < 2, a.sent (connectorOf a.valid slot) = true ∨
    now = some (connectorOf a.valid slot) ∨ ∃ t, Op.program (connectorOf a.valid slot) t ∈ todo

/-- The tail is still to come. -/
def TailOk (a : Transaction τ) (now : Option (Fin 4)) (todo : List (Op τ)) :
    Option (List (Op τ)) → Prop
  | none => True
  | some tail => Within a.valid tail ∧ programs tail = 0 ∧ Slots a now todo

/-- There are as many participants as the script has slots for. -/
def Enough (a : Transaction τ) : Prop :=
  (if a.kind = .head then 1 else a.wanted) ≤ count a.valid ∧
    ∀ c, a.valid c = true → (a.timings c).isSome

def WorkerOk (active : Fin 4 → ℕ) (live : Bool) : Worker τ → Prop
  | .free | .gathering .. | .joining .. | .folding .. => True
  | .entering a _ => a.log = [] ∧ (∀ c, a.sent c = false) ∧ a.kind ≠ .head ∧
      (a.kind = .dualWake → Dark active a) ∧ ∀ c, a.valid c = true → (a.timings c).isSome
  | .preparing a _ => Dark active a ∧ (∀ c, Open c a.log = false) ∧ (∀ c, a.sent c = false) ∧
      Enough a
  | .running a todo tail => Running active a todo ∧ Once a todo ∧ TailOk a none todo tail
  | .checking a c todo tail => Running active a todo ∧ a.valid c = true ∧
      (a.kind = .head → programs todo = 0 ∧ ∀ c, a.sent c = false) ∧ TailOk a (some c) todo tail
  | .storing a c todo tail => Running active a todo ∧ a.valid c = true ∧
      (a.kind = .head → programs todo = 0) ∧ TailOk a (some c) todo tail
  | .unwinding a todo _ => Dark active a ∧ OpenOnly live a todo
  | .ended a r => r ≠ .activated → Dark active a ∧ OpenOnly live a []

/-- Requests that are withdrawn and a link that dies leave all this as it is. -/
theorem WorkerOk.mono {w : Worker τ} (h : WorkerOk active live w)
    (hactive : ∀ c, active' c = active c ∨ active' c = 0) (hlive : live = false → live' = false) :
    WorkerOk active' live' w := by
  have hdark : ∀ {a : Transaction τ}, Dark active a → Dark active' a := by
    intro a hd c hc
    rcases hactive c with h | h
    · rw [h, hd c hc]
    · exact h
  have honly : ∀ {a : Transaction τ} {todo}, OpenOnly live a todo → OpenOnly live' a todo :=
    fun ho c hc => (ho c hc).imp_right hlive
  have hrunning : ∀ {a : Transaction τ} {todo}, Running active a todo → Running active' a todo := by
    intro a todo hr
    refine ⟨fun c hc => ?_, hr.opened, hr.within⟩
    rcases hactive c with h | h
    · rw [h]
      exact hr.lit c hc
    · exact .inl h
  cases w with
  | free => trivial
  | gathering todo timings => trivial
  | joining t next connectors todo timings => trivial
  | folding connectors todo timings fold => trivial
  | entering a todo => exact ⟨h.1, h.2.1, h.2.2.1, fun hk => hdark (h.2.2.2.1 hk), h.2.2.2.2⟩
  | preparing a todo => exact ⟨hdark h.1, h.2⟩
  | running a todo tail => exact ⟨hrunning h.1, h.2⟩
  | checking a c todo tail => exact ⟨hrunning h.1, h.2⟩
  | storing a c todo tail => exact ⟨hrunning h.1, h.2⟩
  | unwinding a todo r => exact ⟨hdark h.1, honly h.2⟩
  | ended a r => exact fun hr => ⟨hdark (h hr).1, honly (h hr).2⟩

/-- Only a marker to a connector opens its bracket. -/
theorem open_sent {c : Fin 4} {m : Message τ} {ok : Bool} {log : List (Entry τ)}
    (h : Open c (.sent m ok :: log) = true) : m.target = some c ∨ Open c log = true := by
  cases m with
  | marker c' sub state =>
      simp only [Open, Bool.or_eq_true, Bool.and_eq_true, beq_iff_eq] at h
      rcases h with ⟨⟨⟨rfl, -⟩, -⟩, -⟩ | h
      · exact .inl rfl
      · exact .inr h
  | _ => exact .inr h

theorem open_of_open_close {c c' : Fin 4} {n : ℕ} {log : List (Entry τ)}
    (h : Open c (.close c' n :: log) = true) : c' ≠ c ∧ Open c log = true := by
  simpa [Open] using h

theorem mem_participants {c : Fin 4} : c ∈ a.participants ↔ a.valid c = true := by
  simp [Transaction.participants]

/-- What is taken back leaves every participant dark. -/
theorem dark_zero {todo : List (Op τ)} (h : Running s.modesetActive a todo) :
    Dark (s.zero a).modesetActive a := by
  intro c hc
  unfold State.zero
  split_ifs
  · rcases h.lit c hc with hzero | ⟨hsent, hkey⟩
    · simp [hzero]
    · simp [hsent, hkey]
  · simp [hc]

/-- Unwinding has every open bracket before it. -/
theorem openOnly_participants (h : ∀ c, Open c a.log = true → a.valid c = true) :
    OpenOnly live a a.participants :=
  fun c hc => .inl (mem_participants.2 (h c hc))

theorem workerOk_fail {todo : List (Op τ)} (h : Running s.modesetActive a todo) :
    WorkerOk (s.fail a).modesetActive (s.fail a).live (s.fail a).worker :=
  ⟨dark_zero h, openOnly_participants h.opened⟩

/-- The worker's part of a state. -/
def Inv (s : State τ) : Prop := WorkerOk s.modesetActive s.live s.worker

theorem Running.note {todo : List (Op τ)} (h : Running active a todo) {m : Message τ} {ok : Bool}
    (hm : ∀ c, m.target = some c → a.valid c = true) :
    Running active (a.note (.sent m ok)) todo :=
  ⟨h.lit, fun c hc => (open_sent hc).elim (hm c) (h.opened c), h.within⟩

theorem Running.rest {op : Op τ} {todo : List (Op τ)} (h : Running active a (op :: todo)) :
    Running active a todo :=
  ⟨h.lit, h.opened, (within_cons.1 h.within).2⟩

theorem Once.rest {op : Op τ} {todo : List (Op τ)} (h : Once a (op :: todo))
    (hop : isProgram op = false) : Once a todo := by
  intro hk
  have hsame : programs (op :: todo) = programs todo := by simp [programs, hop]
  rw [← hsame]
  exact h hk

theorem TailOk.rest {op : Op τ} {todo : List (Op τ)} {tail : Option (List (Op τ))}
    (h : TailOk a none (op :: todo) tail) (hop : isProgram op = false) :
    TailOk a none todo tail := by
  cases tail with
  | none => trivial
  | some tail =>
      obtain ⟨hwithin, hnone, hslots⟩ := h
      refine ⟨hwithin, hnone, fun hk => ⟨(hslots hk).1, fun slot hslot => ?_⟩⟩
      rcases (hslots hk).2 slot hslot with hsent | hnow | ⟨t, ht⟩
      · exact .inl hsent
      · exact .inr (.inl hnow)
      · rcases List.mem_cons.1 ht with rfl | ht
        · cases hop
        · exact .inr (.inr ⟨t, ht⟩)

/-- **A message** of the script goes out, or the transaction is taken back. -/
theorem inv_transmit {todo : List (Op τ)} (h : Running s.modesetActive a todo) {m : Message τ}
    (hm : ∀ c, m.target = some c → a.valid c = true) {o : Outcome}
    {next : Transaction τ → Worker τ}
    (hnext : WorkerOk s.modesetActive o.alive (next (a.note (.sent m true)))) :
    Inv (s.transmit a m o next) := by
  unfold State.transmit
  split_ifs
  · exact hnext
  · exact workerOk_fail (s := { s with live := s.live && o.alive }) (h.note hm)

/-- **The end of the script.** -/
theorem inv_settle {todo tail : List (Op τ)} (h : Running s.modesetActive a todo)
    (hwithin : Within a.valid tail) (hnone : programs tail = 0)
    (hslots : a.kind = .dualWake → 2 ≤ count a.sent) : Inv (s.settle a tail) := by
  unfold State.settle
  split_ifs with hshort hdual
  · have hwanted : a.wanted = 2 := by simp [Transaction.wanted, hdual]
    have := hslots hdual
    omega
  · exact ⟨dark_zero h, openOnly_participants h.opened⟩
  · refine ⟨⟨h.lit, h.opened, hwithin⟩, fun _ => ?_, trivial⟩
    rw [hnone]
    exact ⟨Nat.zero_le _, fun h => by cases h⟩

theorem inv_exec {op : Op τ} {todo : List (Op τ)} {tail : Option (List (Op τ))}
    (h : Running s.modesetActive a (op :: todo)) (honce : Once a (op :: todo))
    (htail : TailOk a none (op :: todo) tail) (o : Outcome) : Inv (s.exec a todo tail o op) := by
  have hop := (within_cons.1 h.within).1
  cases op with
  | send m =>
      exact inv_transmit h.rest hop ⟨h.rest.note hop, honce.rest rfl, htail.rest rfl⟩
  | sendIf c m =>
      simp only [State.exec]
      split_ifs
      · exact inv_transmit h.rest hop ⟨h.rest.note hop, honce.rest rfl, htail.rest rfl⟩
      · exact ⟨h.rest, honce.rest rfl, htail.rest rfl⟩
  | attempt m =>
      exact ⟨⟨h.rest.lit, (h.rest.note hop).opened, h.rest.within⟩, honce.rest rfl, htail.rest rfl⟩
  | raise =>
      simp only [State.exec]
      split_ifs
      · exact workerOk_fail h
      · exact ⟨h.rest, honce.rest rfl, htail.rest rfl⟩
  | invalid => exact workerOk_fail h
  | program c t =>
      have hc : a.valid c = true := hop
      have hm : ∀ c', (Message.setMode c t).target = some c' → a.valid c' = true := by
        intro c' heq
        obtain rfl : c = c' := by simpa [Message.target] using heq
        exact hc
      have hhead : a.kind = .head → programs todo = 0 ∧ ∀ c, a.sent c = false := by
        intro hk
        have hcount : programs (Op.program c t :: todo) = programs todo + 1 :=
          List.countP_cons_of_pos rfl
        obtain ⟨hle, hnone⟩ := honce hk
        exact ⟨by omega, hnone (by omega)⟩
      have hnow : TailOk a (some c) todo tail := by
        cases tail with
        | none => trivial
        | some tail =>
            obtain ⟨hwithin, hnone, hslots⟩ := htail
            refine ⟨hwithin, hnone, fun hk => ⟨(hslots hk).1, fun slot hslot => ?_⟩⟩
            rcases (hslots hk).2 slot hslot with hsent | hnow | ⟨t', ht⟩
            · exact .inl hsent
            · cases hnow
            · rcases List.mem_cons.1 ht with heq | ht
              · obtain ⟨heq, -⟩ := Op.program.inj heq
                exact .inr (.inl (by rw [heq]))
              · exact .inr (.inr ⟨t', ht⟩)
      have htransmit : Inv (s.transmit a (.setMode c t) o fun a => .checking a c todo tail) :=
        inv_transmit h.rest hm ⟨h.rest.note hm, hc, hhead, hnow⟩
      simp only [State.exec]
      split_ifs
      · exact htransmit
      · exact htransmit

/-- **The look behind a set-mode**; a cold wake is not to find that its request has moved on. -/
theorem inv_check {c : Fin 4} {todo : List (Op τ)} {tail : Option (List (Op τ))}
    (h : WorkerOk s.modesetActive s.live (.checking a c todo tail))
    (hprompt : a.kind = .dualWake → s.modesetRequested c = a.keys c) :
    Inv (s.check a c todo tail) := by
  obtain ⟨hrunning, hc, hhead, htail⟩ := h
  unfold State.check
  split_ifs with hkey
  · exact ⟨hrunning, hc, fun hk => (hhead hk).1, htail⟩
  · split
    case h_1 hk =>
      refine ⟨fun c' hc' => ?_, openOnly_participants hrunning.opened⟩
      rcases hrunning.lit c' hc' with hzero | ⟨hsent, -⟩
      · exact hzero
      · rw [(hhead hk).2 c'] at hsent
        cases hsent
    case h_2 hk => exact absurd (hprompt hk) hkey
    case h_3 runtime hk =>
      exact inv_settle hrunning within_nil rfl fun hdual => by rw [hk] at hdual; cases hdual

/-- **The mode is put in force.** -/
theorem inv_store {c : Fin 4} {todo : List (Op τ)} {tail : Option (List (Op τ))}
    (h : WorkerOk active live (.storing a c todo tail)) :
    WorkerOk (Function.update active c (a.keys c)) live
      (.running { a with sent := Function.update a.sent c true } todo tail) := by
  obtain ⟨hrunning, hc, hhead, htail⟩ := h
  refine ⟨⟨fun c' hc' => ?_, hrunning.opened, hrunning.within⟩, fun hk => ?_, ?_⟩
  · by_cases heq : c' = c
    · subst heq
      simp
    · simpa [heq] using hrunning.lit c' hc'
  · rw [hhead hk]
    exact ⟨Nat.zero_le _, fun h => by cases h⟩
  · cases tail with
    | none => trivial
    | some tail =>
        obtain ⟨hwithin, hnone, hslots⟩ := htail
        refine ⟨hwithin, hnone, fun hk => ⟨(hslots hk).1, fun slot hslot => ?_⟩⟩
        by_cases heq : connectorOf a.valid slot = c
        · exact .inl (by simp [heq])
        · rcases (hslots hk).2 slot hslot with hsent | hnow | hmem
          · exact .inl (by simpa [heq] using hsent)
          · exact absurd (Option.some.inj hnow).symm heq
          · exact .inr (.inr hmem)

/-- Two programmed slots are two connectors. -/
theorem two_le_count_sent (h : Slots a none []) (hk : a.kind = .dualWake) :
    2 ≤ count a.sent := by
  obtain ⟨hvalid, hslots⟩ := h hk
  have hsent : ∀ slot < 2, a.sent (connectorOf a.valid slot) = true := by
    intro slot hslot
    rcases hslots slot hslot with hsent | hnow | ⟨t, ht⟩
    · exact hsent
    · cases hnow
    · cases ht
  have hsub : [connectorOf a.valid 0, connectorOf a.valid 1] ⊆
      (List.finRange 4).filter a.sent := by
    intro c hc
    simp only [List.mem_cons, List.not_mem_nil, or_false] at hc
    rcases hc with rfl | rfl
    · simp [hsent 0]
    · simp [hsent 1]
  have hnodup : [connectorOf a.valid 0, connectorOf a.valid 1].Nodup := by
    simpa using connectorOf_ne hvalid
  have hlength := (hnodup.subperm hsub).length_le
  rw [count, List.countP_eq_length_filter]
  exact hlength

theorem programs_headScript (c : Fin 4) (t : τ) : programs (headScript p c t) = 1 := by
  unfold headScript modesetBracketPre modesetBracketPostOpen modesetBracketPostClose programs
  cases p.protocol.preModeSinkState <;> cases p.protocol.clearModeBeforeSet <;>
    cases p.topology.videoOnCtrlPipe <;> rfl

theorem programs_tail (rounds : ℕ) : programs (a.tail p rounds) = 0 := by
  unfold Transaction.tail
  split
  · unfold headTail
    split_ifs <;> rfl
  · refine List.countP_eq_zero.2 fun op hop => ?_
    obtain ⟨c, -, rfl⟩ := List.mem_map.1 hop
    simp [isProgram]
  · rfl

theorem within_script (hcount : (if a.kind = .head then 1 else a.wanted) ≤ count a.valid) :
    Within a.valid (a.script p) := by
  unfold Transaction.script
  split
  case h_1 hk =>
    rw [if_pos hk] at hcount
    split
    · exact within_headScript (valid_connectorOf (by omega))
    · exact within_nil
  case h_2 hk =>
    rw [if_neg (by rw [hk]; simp), Transaction.wanted, hk] at hcount
    exact within_dualScript hcount
  case h_3 runtime hk =>
    rw [if_neg (by rw [hk]; simp), Transaction.wanted, hk] at hcount
    refine within_dockWideScript fun step hstep slot hslot => ?_
    cases runtime
    · have htwo : Timeline.wanted (steps false) = 2 := by decide
      dsimp only at hcount
      omega
    · have hzero : ∀ step ∈ steps true, ∀ slot, step.slot = some slot → slot = 0 := by
        intro step hstep slot hslot
        simp only [steps, if_true, ellaRuntimeMode, List.mem_cons, List.not_mem_nil, or_false]
          at hstep
        rcases hstep with rfl | rfl | rfl | rfl | rfl | rfl | rfl | rfl <;>
          simp_all [DockWideStep.slot]
      have hone : Timeline.wanted (steps true) = 1 := by decide
      dsimp only at hcount
      rw [hzero step hstep slot hslot]
      omega

theorem within_tail (rounds : ℕ) : Within a.valid (a.tail p rounds) := by
  unfold Transaction.tail
  split
  · exact within_headTail
  · exact within_dualTail rounds
  · exact within_nil

/-- **The script begins.** -/
theorem workerOk_script {todo : List Pre} (h : WorkerOk active live (.preparing a todo))
    (rounds : ℕ) :
    WorkerOk active live (.running a (a.script p) (some (a.tail p rounds))) := by
  obtain ⟨hdark, hopen, hsent, henough⟩ := h
  refine ⟨⟨fun c hc => .inl (hdark c hc), fun c hc => ?_, within_script henough.1⟩, fun hk => ?_,
    within_tail rounds, programs_tail rounds, fun hk => ?_⟩
  · rw [hopen c] at hc
    cases hc
  · refine ⟨?_, fun _ => hsent⟩
    unfold Transaction.script
    rw [hk]
    dsimp only
    split
    · exact (programs_headScript _ _).le
    · exact Nat.zero_le _
  · obtain ⟨hcount, htimings⟩ := henough
    rw [if_neg (by rw [hk]; simp), Transaction.wanted, hk] at hcount
    refine ⟨hcount, fun slot hslot => .inr (.inr ?_)⟩
    obtain ⟨t, ht⟩ := Option.isSome_iff_exists.1 (htimings _ (valid_slot hcount slot))
    refine ⟨t, ?_⟩
    unfold Transaction.script
    rw [hk]
    exact program_mem_dualScript hslot ht

theorem inv_prepareStep {pre : Pre} {todo : List Pre}
    (h : WorkerOk s.modesetActive s.live (.preparing a (pre :: todo))) (o : Outcome) :
    Inv (s.prepareStep p a todo o pre) := by
  obtain ⟨hdark, hopen, hsent, henough⟩ := h
  have hnote : ∀ (c' : Fin 4) n c, Open c (a.note (.close c' n)).log = false := by
    intro c' n c
    rw [← Bool.not_eq_true]
    intro hc
    have hlog := (open_of_open_close hc).2
    rw [hopen c] at hlog
    cases hlog
  cases pre with
  | recheck =>
      simp only [State.prepareStep]
      split_ifs
      · refine fun _ => ⟨hdark, fun c hc => ?_⟩
        rw [hopen c] at hc
        cases hc
      · exact ⟨hdark, hopen, hsent, henough⟩
  | closeBlank c =>
      simp only [State.prepareStep]
      split_ifs with hblank hfour
      · exact ⟨hdark, hnote c _, hsent, henough⟩
      · exact ⟨hdark, hnote c _, hsent, henough⟩
      · refine fun _ => ⟨hdark, fun c' hc' => ?_⟩
        rw [hnote c _ c'] at hc'
        cases hc'
      · exact ⟨hdark, hopen, hsent, henough⟩
  | clearBlank c => exact ⟨hdark, hopen, hsent, henough⟩
  | closeProbe c =>
      simp only [State.prepareStep]
      split_ifs
      · exact ⟨hdark, hnote c _, hsent, henough⟩
      · exact ⟨hdark, hnote c _, hsent, henough⟩
      · exact ⟨hdark, hopen, hsent, henough⟩

/-- A transaction that is being entered. -/
theorem workerOk_start {kind : Kind} (hk : kind ≠ .head) (connectors mask : Fin 4 → Bool)
    (timings : Fin 4 → Option τ) (todo : List (Fin 4)) :
    WorkerOk active live (.entering (.start kind connectors mask timings) todo) := by
  refine ⟨rfl, fun _ => rfl, hk, fun _ c hc => ?_, fun c hc => ?_⟩
  · cases hc
  · cases hc

theorem workerOk_enter {c : Fin 4} {todo : List (Fin 4)}
    (h : WorkerOk s.modesetActive live (.entering a (c :: todo))) :
    WorkerOk s.modesetActive live (.entering (s.enter p hash dualNivo a c) todo) := by
  obtain ⟨hlog, hsent, hkind, hdark, htimings⟩ := h
  unfold State.enter
  split
  · exact ⟨hlog, hsent, hkind, hdark, htimings⟩
  · split_ifs with hvalid
    · refine ⟨hlog, hsent, hkind, fun hk c' hc' => ?_, fun c' hc' => ?_⟩
      · by_cases heq : c' = c
        · rw [heq]
          exact hvalid.2 hk
        · exact hdark hk c' (by simpa [heq] using hc')
      · by_cases heq : c' = c
        · subst heq
          simp
        · simpa [heq] using htimings c' (by simpa [heq] using hc')
    · exact ⟨hlog, hsent, hkind, hdark, htimings⟩

theorem inv_entered (h : WorkerOk s.modesetActive s.live (.entering a [])) :
    Inv (s.entered a) := by
  obtain ⟨hlog, hsent, hkind, hdark, htimings⟩ := h
  have hopen : ∀ c, Open c a.log = false := by
    intro c
    rw [hlog]
    rfl
  unfold State.entered
  split_ifs with hshort hdual
  · refine fun _ => ⟨fun c hc => (by cases hc), fun c hc => ?_⟩
    rw [hopen c] at hc
    cases hc
  · refine ⟨hdark hdual, hopen, hsent, ?_, htimings⟩
    rw [if_neg hkind]
    omega
  · refine ⟨fun c hc => ?_, hopen, hsent, ?_, htimings⟩
    · unfold State.zero
      rw [if_neg hdual]
      simp [hc]
    · rw [if_neg hkind]
      omega

theorem inv_choose (connectors : Fin 4 → Bool) (timings : Fin 4 → Option τ) :
    Inv (s.choose p connectors timings) := by
  unfold State.choose Inv
  dsimp only
  split_ifs
  · exact workerOk_start (by simp) _ _ _ _
  · exact workerOk_start (by simp) _ _ _ _
  · trivial

theorem inv_joined (connectors : Fin 4 → Bool) (timings : Fin 4 → Option τ) :
    Inv (s.joined p connectors timings) := by
  unfold State.joined
  split_ifs
  · trivial
  · exact inv_choose _ _

theorem inv_join (t : τ) (next : Join) (connectors : Fin 4 → Bool) (todo : List (Fin 4))
    (timings : Fin 4 → Option τ) : Inv (s.join p hash t next connectors todo timings) := by
  unfold State.join
  split
  · trivial
  · exact inv_joined _ _
  · trivial
  · trivial

theorem inv_gathered (timings : Fin 4 → Option τ) : Inv (s.gathered p timings) := by
  unfold State.gathered
  split
  · exact inv_joined _ _
  · split_ifs
    · trivial
    · exact inv_joined _ _

theorem inv_folded (connectors : Fin 4 → Bool) (timings fold : Fin 4 → Option τ) :
    Inv (s.folded p connectors timings fold) := by
  unfold State.folded
  split_ifs
  · exact inv_choose _ _
  · exact inv_choose _ _

/-- The bracket of a connector is closed. -/
theorem workerOk_unwind {c : Fin 4} {todo : List (Fin 4)} {r : Result}
    (h : WorkerOk active live (.unwinding a (c :: todo) r)) (alive : Bool) (n : ℕ) :
    WorkerOk active (live && alive) (.unwinding (a.note (.close c n)) todo r) := by
  refine ⟨h.1, fun c' hc' => ?_⟩
  obtain ⟨hne, hopen⟩ := open_of_open_close hc'
  rcases h.2 c' hopen with hmem | hdead
  · rcases List.mem_cons.1 hmem with heq | hmem
    · exact absurd heq.symm hne
    · exact .inl hmem
  · exact .inr (by simp [hdead])

/-- The request is still the one a cold wake activates, when it looks behind the set-mode; no blank
falls between the closing sequence of the presence watcher and its note of it. -/
def Prompt (s : State τ) : Event τ → Prop
  | .work _ =>
      match s.worker with
      | .checking a c _ _ => a.kind = .dualWake → s.modesetRequested c = a.keys c
      | _ => True
  | .blank c _ => s.probing c = false
  | _ => True

theorem inv_work (h : Inv s) (o : Outcome) (hprompt : Prompt s (.work o)) :
    Inv (s.work p hash dualNivo o) := by
  unfold Inv at h
  simp only [Prompt] at hprompt
  unfold State.work
  split
  case h_1 => exact h
  case h_2 => exact h
  case h_3 => trivial
  case h_4 => exact inv_gathered _
  case h_5 => trivial
  case h_6 => exact inv_folded _ _ _
  case h_7 hw =>
    rw [hw] at h
    exact workerOk_enter h
  case h_8 hw =>
    rw [hw] at h
    exact inv_entered h
  case h_9 hw =>
    rw [hw] at h
    exact inv_prepareStep h o
  case h_10 hw =>
    rw [hw] at h
    exact workerOk_script h o.rounds
  case h_11 hw =>
    rw [hw] at h
    exact inv_exec h.1 h.2.1 h.2.2 o
  case h_12 hw =>
    rw [hw] at h
    obtain ⟨hrunning, -, hwithin, hnone, hslots⟩ := h
    exact inv_settle hrunning hwithin hnone (two_le_count_sent hslots)
  case h_13 => exact fun hr => absurd rfl hr
  case h_14 hw =>
    rw [hw] at h hprompt
    exact inv_check h hprompt
  case h_15 hw =>
    rw [hw] at h
    exact inv_store h
  case h_16 hw =>
    rw [hw] at h
    split_ifs with hlive
    · have hclose := workerOk_unwind h o.alive (s.delivered o)
      exact hclose
    · refine ⟨h.1, fun c hc => .inr (by simpa using hlive)⟩
  case h_17 hw =>
    rw [hw] at h
    exact fun _ => h
  case h_18 => exact inv_join ..

theorem eq_free {w : Worker τ} (h : w.isFree = true) : w = .free := by
  cases w with
  | free => rfl
  | _ => cases h

theorem workerOk_isLooking {w : Worker τ} (h : w.isLooking = true) : WorkerOk active live w := by
  cases w with
  | gathering | joining | folding => trivial
  | _ => cases h

theorem inv_activateHead [DecidableEq τ] (hw : s.worker = .free) (c : Fin 4) (t : τ) :
    Inv (s.activateHead p hash dualNivo c t) := by
  unfold State.activateHead Inv
  split_ifs
  · rw [hw]
    trivial
  · rw [hw]
    trivial
  · exact workerOk_start (by simp) _ _ _ _
  · refine ⟨fun c' hc' => ?_, fun _ => rfl, fun _ => rfl, ?_, fun c' hc' => ?_⟩
    · obtain rfl : c' = c := by simpa [State.headOf] using hc'
      simp
    · have hpos : 0 < count fun c' => c' == c :=
        List.countP_pos_iff.2 ⟨c, List.mem_finRange c, by simp⟩
      exact hpos
    · obtain rfl : c' = c := by simpa [State.headOf] using hc'
      simp [State.headOf, Transaction.start]

/-- **One step keeps what the worker has to undo.** -/
theorem inv_step [DecidableEq τ] (s : State τ) (e : Event τ) (h : Inv s) (hprompt : Prompt s e) :
    Inv (step p hash dualNivo s e) := by
  cases e with
  | enable c t =>
      simp only [step]
      split_ifs
      · exact h
      · exact h
  | disable c =>
      simp only [step]
      split_ifs
      · refine WorkerOk.mono h (fun c' => ?_) fun hl => hl
        by_cases heq : c' = c
        · exact .inr (by simp [heq])
        · exact .inl (by simp [heq])
      · exact h
  | publish c => exact h
  | drain =>
      simp only [step]
      split_ifs
      · trivial
      · exact h
  | activateHead c t =>
      simp only [step]
      split_ifs with hfree
      · exact inv_activateHead (eq_free hfree) c t
      · exact h
  | scanout c t ok =>
      simp only [step]
      by_cases hlooking : (s.worker.isLooking && s.modesetRequested c == timingKey hash t) = true
      · rw [if_pos hlooking]
        exact workerOk_isLooking (Bool.and_eq_true_iff.1 hlooking).1
      · rw [if_neg hlooking]
        exact h
  | blank c ok =>
      simp only [step]
      split_ifs
      · exact h
      · exact h
  | probe c o =>
      simp only [step]
      split_ifs
      · exact WorkerOk.mono h (fun _ => .inl rfl) fun hl => by simp [State.close, hl]
      · exact h
  | probeClear c =>
      simp only [step]
      split_ifs
      · exact h
      · exact h
  | work o => exact inv_work h o hprompt
  | finish =>
      simp only [step, State.finish]
      split
      · split <;> trivial
      · exact h
  | requeue back =>
      simp only [step]
      split_ifs
      · exact h
      · exact h

/-! ### Blanks that are forgotten -/

/-- The worker is about to forget a blank. -/
def pendingClears (c : Fin 4) : Worker τ → ℕ
  | .preparing _ todo => todo.countP fun pre => match pre with
      | .clearBlank c' => c' == c
      | _ => false
  | _ => 0

/-- The blanks of a connector that are about to be forgotten. -/
def due (c : Fin 4) (s : State τ) : ℕ := (if s.probing c then 1 else 0) + pendingClears c s.worker

/-- Every blank that is forgotten, or about to be, has had its own complete closing sequence. -/
def Paid (s : State τ) : Prop := ∀ c, s.clears c + due c s ≤ s.closes c

/-- A blank that is about to be forgotten was closed. -/
def Fresh (s : State τ) : Prop := ∀ c, 0 < due c s → s.closed c = true

/-- What a step does to the blanks: those it forgets were due, and what becomes due is closed. -/
structure Settles (s s' : State τ) : Prop where
  balance : ∀ c, s'.clears c + due c s' + s.closes c ≤ s.clears c + due c s + s'.closes c
  forgets : ∀ c, s.blankBracketOpen c = true → s'.blankBracketOpen c = false → 0 < due c s
  closed : ∀ c, 0 < due c s' → s'.closed c = true ∨ 0 < due c s ∧ s'.closed c = s.closed c

theorem Settles.paid {s' : State τ} (h : Settles s s') (hs : Paid s) : Paid s' := by
  intro c
  have := hs c
  have := h.balance c
  omega

theorem Settles.fresh {s' : State τ} (h : Settles s s') (hs : Fresh s) : Fresh s' := by
  intro c hdue
  rcases h.closed c hdue with hclosed | ⟨hbefore, heq⟩
  · exact hclosed
  · rw [heq]
    exact hs c hbefore

/-- A step that closes and forgets nothing. -/
structure Calm (s s' : State τ) : Prop where
  closes : s'.closes = s.closes
  clears : s'.clears = s.clears
  closed : s'.closed = s.closed
  probing : s'.probing = s.probing
  blank : s'.blankBracketOpen = s.blankBracketOpen
  pending : ∀ c, pendingClears c s'.worker ≤ pendingClears c s.worker

end Invariant

/-! ### Runs -/

section Runs

variable [DecidableEq τ] (p : DockProfile) (hash : τ → ℕ) (dualNivo : Bool → τ → τ)

end Runs

/-- The message the dock does not take. -/
def refused : List (Event ℕ) := [.work ⟨false, true, 4, 1⟩]

instance (s : State ℕ) (e : Event ℕ) : Decidable (Prompt s e) := by
  unfold Prompt
  split
  · split <;> infer_instance
  · infer_instance
  · infer_instance

end Vino.Kms.Activation
