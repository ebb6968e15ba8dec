import Mathlib
import Vino.Lib.Effect
import Vino.Scanout
import Vino.Stream

/-!
# The Control Session and its Surroundings

An engaged session talks to the dock over USB.  `World` is the session together with what answers
it, what every transfer reports and every read returns, and with a trace of what it has handed to
the USB layer.  The operations of the session are computations on a `World` that may fail; what
they changed before a failure stays changed.

* `Wire`, `Stable`: invariants that the control channel keeps, as long as each message carries the
  current counter,
* `Wire.withMessage`: a message built and sent at once keeps them,
* `triple_transmit`: the two outcomes of a transfer.
-/

namespace Vino.Session

open Vino.Cp.Messages Vino.Cp.Seal Vino.Lib.Effect Vino.Lib.Spans Vino.Profile Vino.Scanout
open Vino.Stream
open Vino.Haar.Records hiding fill

/-! ### State -/

/-- An index into the per-connector arrays. -/
abbrev Connector := Fin maxConnectors

instance (priority := 2000) neZero_connectors : NeZero (maxConnectors + 1) := ⟨by decide⟩

/-- The errors of the USB layer. -/
inductive UsbError where
  | timeout
  | stall
  | disconnected
  | other
  deriving DecidableEq, Repr

/-- The errors of session operations, by what failed. -/
inductive SessionError where
  | build (label : String) (e : Errno)
  | send (id : UInt16) (e : UsbError)
  | receive (e : UsbError)
  | prologue (head : UInt8) (e : UsbError)
  | submit (head : UInt8) (e : UsbError)
  | transport (e : UsbError)
  | noEdid (head : UInt8)
  | refused (message : String)
  deriving DecidableEq, Repr

/-- The last cursor a connector was given. -/
structure CursorShot where
  width : UInt16
  height : UInt16
  bgra : List UInt8
  x : UInt16
  y : UInt16
  visible : Bool
  deriving DecidableEq, Repr

/-- One authenticated control session. -/
structure ControlSession where
  dock : Dock
  /-- How many connectors the device backs. -/
  connectors : Fin (maxConnectors + 1)
  controlKey : Key
  controlNonce : Nonce
  wireSeq : UInt32
  innerCounter : UInt16
  videoKeys : Connector → Key × Nonce
  modeRestateOwed : Connector → Bool
  programmedMode : Connector → UInt16 × UInt16
  modeActive : Connector → Bool
  videoSealSeq : Connector → UInt32
  frameSeq : Connector → UInt32
  scanout : Connector → HeadScanout
  cursorShot : Connector → Option CursorShot

/-- What one look at the surroundings gives: the result of a write, what a read returns, whether a
deadline has passed, how many rounds a loop makes before its deadline, random bytes, and the strip
at which an allocation fails. -/
structure Answer where
  write : Option UsbError
  reply : Except UsbError (List UInt8)
  expired : Bool
  rounds : ℕ
  random : Rng
  fault : Option ℕ

/-- What the session does to the outside.  A control frame is recorded with the counter it is
sealed at, its plaintext and the error its transfer reported; a video transfer with its pieces;
`enciphered` records what was sealed for a connector, handed over or not. -/
inductive Action where
  | control (seq : UInt32) (id : UInt16) (content : List UInt8) (error : Option UsbError)
  | prologue (head : UInt8) (piece : Piece) (error : Option UsbError)
  | video (head : UInt8) (pieces : List Piece) (error : Option UsbError)
  | enciphered (head : UInt8) (pieces : List Piece)

/-- A session in its surroundings. -/
structure World extends ControlSession where
  answers : ℕ → Answer
  time : ℕ
  trace : List Action

abbrev SessionM := EStateM SessionError World

/-- The session right after engagement, with the counters the bring-up left. -/
def engaged (dock : Dock) (connectors : Fin (maxConnectors + 1)) (controlKey : Key)
    (controlNonce : Nonce) (wireSeq : UInt32) (innerCounter : UInt16)
    (videoKeys : Connector → Key × Nonce) : ControlSession where
  dock := dock
  connectors := connectors
  controlKey := controlKey
  controlNonce := controlNonce
  wireSeq := wireSeq
  innerCounter := innerCounter
  videoKeys := videoKeys
  modeRestateOwed := fun _ => false
  programmedMode := fun _ => (0, 0)
  modeActive := fun _ => false
  videoSealSeq := fun _ => 0
  frameSeq := fun _ => 0
  scanout := fun _ => HeadScanout.new dock
  cursorShot := fun _ => none

/-! ### Primitives -/

def World.tick (w : World) : World := { w with time := w.time + 1 }

def World.log (w : World) (a : Action) : World := { w with trace := w.trace ++ [a] }

/-- Look at the surroundings. -/
def ask : SessionM Answer := fun w => .ok (w.answers w.time) w.tick

/-- Record an action. -/
def record (a : Action) : SessionM Unit := modifyThe World fun w => w.log a

/-- Fail if a transfer did. -/
def check (error : Option UsbError) (fail : UsbError → SessionError) : SessionM Unit :=
  match error with
  | none => pure ()
  | some e => throw (fail e)

/-- The index of a head, if there is one. -/
def connector? (head : UInt8) : Option Connector :=
  if h : head.toNat < maxConnectors then some ⟨head.toNat, h⟩ else none

/-- Read a reply; nothing within the timeout is not an error. -/
def receiveOptional : SessionM (Option (List UInt8)) := do
  let a ← ask
  match a.reply with
  | .ok reply => return some reply
  | .error .timeout => return none
  | .error e => throw (.receive e)

/-- The counters behind a control frame that went out. -/
def World.advance (w : World) (content : List UInt8) : World :=
  { w with
    wireSeq := w.wireSeq + UInt32.ofNat (blocks content.length)
    innerCounter := w.innerCounter + 1 }

/-- Seal a message at the running counters, write it, and advance them once it went out. -/
def transmit (id : UInt16) (content : List UInt8) (fail : UsbError → SessionError) :
    SessionM Unit := do
  let w ← get
  let a ← ask
  record (.control w.wireSeq id content a.write)
  check a.write fail
  modifyThe World fun w => w.advance content

def sendControl (id : UInt16) (content : List UInt8) : SessionM (Option (List UInt8)) := do
  transmit id content (.send id)
  receiveOptional

/-- Build a message from the current counter and hand it on. -/
def withMessage {α : Type} (label : String) (build : UInt16 → Rng → Except Errno (List UInt8))
    (next : List UInt8 → SessionM α) : SessionM α := do
  let w ← get
  let a ← ask
  match build w.innerCounter a.random with
  | .error e => throw (.build label e)
  | .ok content => next content

/-- Build a message from the current counter, send it and take the next reply. -/
def sendBuilt (label : String) (id : UInt16) (build : UInt16 → Rng → Except Errno (List UInt8)) :
    SessionM (Option (List UInt8)) :=
  withMessage label build (sendControl id)

/-! ### Invariants of the control channel -/

/-- The messages of a builder carry the counter they are built from. -/
def Carries (build : UInt16 → Rng → Except Errno (List UInt8)) : Prop :=
  ∀ counter rng content, build counter rng = .ok content → counterOf content = counter

/-- An invariant that sending and receiving keep, and what it becomes when they fail.  A message
must carry the current counter. -/
structure Wire (I R : World → Prop) : Prop where
  tick : ∀ w, I w → I w.tick
  transmit : ∀ id content fail,
    Triple (fun w => I w ∧ counterOf content = w.innerCounter) (transmit id content fail)
      (fun _ => I) R
  receive : Keeps I R receiveOptional

/-- An invariant that any operation of the control channel may abandon for `R`, and that does not
depend on the cursors. -/
structure Stable (I R : World → Prop) : Prop extends Wire I R where
  weaken : ∀ w, I w → R w
  cursor : ∀ w f, I w → I { w with cursorShot := f }

section Rules

variable {I R : World → Prop} {α : Type}

theorem triple_ask {P : World → Prop} {Q : Answer → World → Prop}
    (h : ∀ w, P w → Q (w.answers w.time) w.tick) : Triple P ask Q R :=
  fun w hw => h w hw

/-- **Invariants from the outcomes of a read.** -/
theorem triple_receiveOptional {P : World → Prop} {Q : Option (List UInt8) → World → Prop}
    (hnone : ∀ w, P w → (w.answers w.time).reply = .error .timeout → Q none w.tick)
    (hsome : ∀ w reply, P w → (w.answers w.time).reply = .ok reply → Q (some reply) w.tick)
    (herr : ∀ w e, P w → (w.answers w.time).reply = .error e → e ≠ .timeout → R w.tick) :
    Triple P receiveOptional Q R := by
  refine Triple.bind (Q := fun a w' => ∃ w, P w ∧ w' = w.tick ∧ a = w.answers w.time)
    (triple_ask fun w hw => ⟨w, hw, rfl, rfl⟩) fun a => ?_
  split
  · rename_i reply hreply
    rintro _ ⟨w, hw, rfl, rfl⟩
    exact hsome w reply hw hreply
  · rename_i hreply
    rintro _ ⟨w, hw, rfl, rfl⟩
    exact hnone w hw hreply
  · rename_i e hne hreply
    rintro _ ⟨w, hw, rfl, rfl⟩
    exact herr w e hw hreply fun he => hne (he ▸ rfl)

theorem keeps_receiveOptional (htick : ∀ w, I w → I w.tick) (hweaken : ∀ w, I w → R w) :
    Keeps I R receiveOptional :=
  triple_receiveOptional (fun w hw _ => htick w hw) (fun w _ hw _ => htick w hw) fun w _ hw _ _ =>
    hweaken _ (htick w hw)

theorem keeps_check (hweaken : ∀ w, I w → R w) (error : Option UsbError)
    (fail : UsbError → SessionError) : Keeps I R (check error fail) := by
  unfold check
  split
  · exact Keeps.pure _
  · exact Keeps.throw hweaken _

theorem Wire.ask (h : Wire I R) : Keeps I R ask := triple_ask h.tick

/-- **A message built and handed on at once carries the current counter.** -/
theorem Wire.withMessage (h : Wire I R) {label : String}
    {build : UInt16 → Rng → Except Errno (List UInt8)} {next : List UInt8 → SessionM α}
    (hbuild : Carries build)
    (hfail : ∀ counter rng e, build counter rng = .error e → ∀ w, I w → R w)
    (hnext : ∀ content, Triple (fun w => I w ∧ counterOf content = w.innerCounter) (next content)
      (fun _ => I) R) : Keeps I R (withMessage label build next) := by
  refine Triple.bind (Q := fun w w' => I w' ∧ w'.innerCounter = w.innerCounter)
    (Triple.get fun w hw => ⟨hw, rfl⟩) fun w => ?_
  refine Triple.bind (Q := fun _ w' => I w' ∧ w'.innerCounter = w.innerCounter)
    (fun w' hw => ⟨h.tick w' hw.1, hw.2⟩) fun a => ?_
  split
  · rename_i e he
    exact Triple.throw fun w' hw => hfail _ _ e he w' hw.1
  · rename_i content hcontent
    have hcarried := hbuild _ _ _ hcontent
    exact (hnext content).mono (fun w' hw => ⟨hw.1, hcarried.trans hw.2.symm⟩) (fun _ _ h => h)
      fun _ h => h

theorem Wire.sendControl (h : Wire I R) (id : UInt16) (content : List UInt8) :
    Triple (fun w => I w ∧ counterOf content = w.innerCounter) (sendControl id content)
      (fun _ => I) R :=
  (h.transmit id content (.send id)).bind fun _ => h.receive

theorem carries_ok {f : UInt16 → Rng → List UInt8}
    (h : ∀ counter rng, counterOf (f counter rng) = counter) :
    Carries fun counter rng => .ok (f counter rng) := by
  intro counter rng content hcontent
  rw [← Except.ok.inj hcontent]
  exact h counter rng

/-- A message whose builder cannot fail. -/
theorem Wire.sendOk (h : Wire I R) (label : String) (id : UInt16)
    {f : UInt16 → Rng → List UInt8} (hf : ∀ counter rng, counterOf (f counter rng) = counter) :
    Keeps I R (sendBuilt label id fun counter rng => .ok (f counter rng)) :=
  h.withMessage (carries_ok hf) nofun fun content => h.sendControl id content

theorem Stable.throw (h : Stable I R) (e : SessionError) :
    Keeps I R (MonadExcept.throw e : SessionM α) :=
  Keeps.throw h.weaken e

theorem Stable.sendBuilt (h : Stable I R) (label : String) (id : UInt16)
    {build : UInt16 → Rng → Except Errno (List UInt8)} (hbuild : Carries build) :
    Keeps I R (sendBuilt label id build) :=
  h.withMessage hbuild (fun _ _ _ _ => h.weaken) fun content => h.sendControl id content

end Rules

/-! ### What sending does -/

/-- What the surroundings answer to the write of `transmit`. -/
theorem transmit_run (id : UInt16) (content : List UInt8) (fail : UsbError → SessionError)
    (w : World) :
    transmit id content fail w =
      match (w.answers w.time).write with
      | none => .ok () ((w.tick.log (.control w.wireSeq id content none)).advance content)
      | some e => .error (fail e) (w.tick.log (.control w.wireSeq id content (some e))) := by
  show (check (w.answers w.time).write fail >>= fun _ => modifyThe World fun w => w.advance content)
    (w.tick.log (.control w.wireSeq id content (w.answers w.time).write)) = _
  cases (w.answers w.time).write with
  | none => rfl
  | some e => rfl

/-- **Invariants from the two outcomes of a transfer.** -/
theorem triple_transmit {P : World → Prop} {Q : Unit → World → Prop} {R : World → Prop}
    {id : UInt16} {content : List UInt8} {fail : UsbError → SessionError}
    (hok : ∀ w, P w → (w.answers w.time).write = none →
      Q () ((w.tick.log (.control w.wireSeq id content none)).advance content))
    (herr : ∀ w e, P w → (w.answers w.time).write = some e →
      R (w.tick.log (.control w.wireSeq id content (some e)))) :
    Triple P (transmit id content fail) Q R := by
  intro w hw
  rw [transmit_run]
  cases hwrite : (w.answers w.time).write with
  | none => exact hok w hw hwrite
  | some e => exact herr w e hw hwrite

end Vino.Session
