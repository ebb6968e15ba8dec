import Vino.Cp.Replies
import Vino.Session.State

/-!
# Operations on the Control Channel

Heartbeats, status polls, stream markers, presence probes, the cursor and the DDC/CI tunnel.  Each
builds its messages from the session's current counter and sends them at once, so every invariant of
the control channel is kept by all of them.
-/

namespace Vino.Session

open Vino.Cp.Messages Vino.Cp.Replies Vino.Cp.Seal Vino.Lib.Effect Vino.Profile Vino.Stream
open Vino.Haar.Records hiding fill

/-! ### Builders that carry their counter -/

/-- A builder that first checks its connector. -/
theorem carries_of_bind {check : Except Errno UInt8} {f : UInt16 → UInt8 → List UInt8}
    (h : ∀ counter dock, counterOf (f counter dock) = counter) :
    Carries fun counter _ => check >>= fun dock => .ok (f counter dock) := by
  intro counter rng content hcontent
  cases check with
  | error e => cases hcontent
  | ok dock =>
      rw [← Except.ok.inj hcontent]
      exact h counter dock

theorem carries_cursorCreate (head : UInt8) (width height : UInt16) :
    Carries fun counter _ => cursorCreate counter head width height :=
  carries_of_bind fun _ _ => counterOf_message _ _

theorem carries_cursorMove (head : UInt8) (x y : UInt16) (visible : Bool) :
    Carries fun counter _ => cursorMove counter head x y visible :=
  carries_of_bind fun _ _ => counterOf_message _ _

theorem carries_cursorImage (head : UInt8) (width height : UInt16) (bgra : List UInt8) :
    Carries fun counter _ => cursorImage counter head width height bgra := by
  intro counter rng content hcontent
  dsimp only [cursorImage] at hcontent
  split_ifs at hcontent
  refine carries_of_bind (f := fun counter dock =>
    padTo 32 (message 0x401c 0x41 counter [dock, cursorHidden]) ++ [0, 0] ++
      bgra.take (bgra.length - 2)) (fun _ _ => ?_) counter rng content hcontent
  simp only [padTo, List.append_assoc]
  exact counterOf_message _ _

theorem carries_ddcciForward (head : UInt8) (payload : List UInt8) :
    Carries fun counter rng => ddcciForward counter head payload rng := by
  intro counter rng content hcontent
  dsimp only [ddcciForward] at hcontent
  split_ifs at hcontent
  rw [← Except.ok.inj hcontent]
  simp only [padTo, List.append_assoc]
  exact counterOf_message _ _

/-! ### Status -/

def heartbeat : SessionM Unit := do
  let _ ← sendBuilt "heartbeat" 0x16 fun counter _ => .ok (Cp.Messages.heartbeat counter)

def pollStatus : SessionM Unit := do
  let _ ← sendBuilt "status poll" 0x14 fun counter rng => .ok (deviceQueryReq counter 0x000c rng)

/-- The poll that keeps the session live. -/
def keepalivePoll : SessionM Unit := pollStatus

def sendMarker (head : UInt8) (sub : UInt16) (state : UInt8) : SessionM Unit := do
  let _ ← sendBuilt "stream marker" 0x16 fun counter rng =>
    .ok (streamMarker counter head sub state rng)

/-- Poll if the status period has passed. -/
def pollIfDue : SessionM Unit := do
  let a ← ask
  if a.expired then pollStatus else pure ()

/-! ### Presence -/

/-- The reply echoes the counter of a request. -/
def echoes (c : Crypto) (key : Key) (nonce : Nonce) (requestCounter : UInt16)
    (frame : List UInt8) : Bool :=
  (decodeInLenient c key nonce frame).any fun decoded => decoded.2.2 == requestCounter

/-- Drain replies until one echoes the request or the deadline passes, `n` reads later. -/
def awaitEcho (c : Crypto) (requestCounter : UInt16) :
    ℕ → Option (List UInt8) → SessionM (Option (List UInt8))
  | 0, reply => do
      let w ← get
      return reply.filter (echoes c w.controlKey w.controlNonce requestCounter)
  | n + 1, reply => do
      let w ← get
      match reply.filter (echoes c w.controlKey w.controlNonce requestCounter) with
      | some frame => return some frame
      | none => do
          let reply ← receiveOptional
          awaitEcho c requestCounter n reply

/-- Send a message and return the reply that answers this one. -/
def sendControlEchoing (c : Crypto) (id : UInt16) (content : List UInt8)
    (requestCounter : UInt16) : SessionM (Option (List UInt8)) := do
  let reply ← sendControl id content
  let a ← ask
  awaitEcho c requestCounter a.rounds reply

/-- The presence bit of a probe reply. -/
def presenceBit (c : Crypto) (key : Key) (nonce : Nonce) (frame : List UInt8) : Option Bool :=
  (probeReplyStatus c key nonce frame).map fun status => status.2.1 &&& 0x00001000 != 0

/-- Whether a monitor is attached to a head; `none` when nothing was learned. -/
def probeHeadPresent (c : Crypto) (head : UInt8) : SessionM (Option Bool) := do
  let w ← get
  let reply ← withMessage "monitor presence probe"
    (fun counter rng => .ok (getEdidReqSub counter 0x20 head rng))
    fun message => sendControlEchoing c 0x15 message w.innerCounter
  return reply.bind (presenceBit c w.controlKey w.controlNonce)

/-! ### Cursor -/

/-- A value of the wire format, or an error. -/
def fitU16 (value : ℕ) (message : String) : SessionM UInt16 :=
  if 65535 < value then throw (.refused message) else return UInt16.ofNat value

/-- Change the cursor a connector was last given. -/
def updateShot (head : UInt8) (f : Option CursorShot → Option CursorShot) : SessionM Unit :=
  match connector? head with
  | none => pure ()
  | some i => modifyThe World fun w =>
      { w with cursorShot := Function.update w.cursorShot i (f (w.cursorShot i)) }

def setCursor (head : UInt8) (width height : ℕ) (bgra : List UInt8) : SessionM Unit := do
  let w ← fitU16 width "cursor width exceeds the wire format"
  let h ← fitU16 height "cursor height exceeds the wire format"
  let _ ← sendBuilt "cursor create" 0x1b fun counter _ => cursorCreate counter head w h
  let _ ← sendBuilt "cursor image" 0x1c fun counter _ => cursorImage counter head w h bgra
  updateShot head fun slot =>
    let (x, y, visible) := (slot.map fun s => (s.x, s.y, s.visible)).getD (0, 0, true)
    some { width := w, height := h, bgra := bgra, x := x, y := y, visible := visible }

/-- Clamp a position to the wire format. -/
def clampU16 (v : ℤ) : UInt16 := UInt16.ofNat (max 0 (min v 65535)).toNat

def moveCursor (head : UInt8) (x y : ℤ) : SessionM Unit := do
  let _ ← sendBuilt "cursor move" 0x1a fun counter _ =>
    cursorMove counter head (clampU16 x) (clampU16 y) true
  updateShot head fun slot =>
    slot.map fun shot => { shot with x := clampU16 x, y := clampU16 y, visible := true }

def hideCursor (head : UInt8) : SessionM Unit := do
  let _ ← sendBuilt "cursor hide" 0x1a fun counter _ => cursorMove counter head 0 0 false
  updateShot head fun slot => slot.map fun shot => { shot with visible := false }

/-- Put back the cursor a connector was last given. -/
def rearmCursor (head : UInt8) : SessionM Unit := do
  let w ← get
  match (connector? head).bind w.cursorShot with
  | none => pure ()
  | some shot => do
      setCursor head shot.width.toNat shot.height.toNat shot.bgra
      if shot.visible then moveCursor head shot.x.toNat shot.y.toNat else hideCursor head

/-! ### DDC/CI -/

/-- What a read returns from the reply it took. -/
def ddcciResult (c : Crypto) (key : Key) (nonce : Nonce) (reply : Option (List UInt8)) :
    SessionM (List UInt8) :=
  match reply with
  | none => throw (.refused "dock did not return a DDC/CI read reply")
  | some reply =>
      match parseReply c key nonce reply with
      | .error e => throw (.build "DDC/CI reply" e)
      | .ok none => throw (.refused "dock returned an invalid DDC/CI read reply")
      | .ok (some payload) => return payload

/-- Forward one DDC/CI transaction. -/
def ddcci (c : Crypto) (head : UInt8) (address flags : UInt16) (payload : List UInt8) :
    SessionM (List UInt8) := do
  if address ≠ i2cAddr then throw (.refused "unsupported DDC/CI address")
  else if flags &&& 0x0001 = 0 then do
    let _ ← sendBuilt "DDC/CI write" 0x36 fun counter rng => ddcciForward counter head payload rng
    return []
  else do
    let w ← get
    let reply ← sendBuilt "DDC/CI read" 0x15 fun counter rng =>
      .ok (ddcciReadRequest counter head rng)
    ddcciResult c w.controlKey w.controlNonce reply

/-! ### What the operations keep -/

section Channel

variable {I R : World → Prop} (h : Wire I R)

include h

theorem Wire.heartbeat : Keeps I R heartbeat :=
  (h.sendOk _ _ fun _ _ => counterOf_message _ _).bind fun _ => Keeps.pure _

theorem Wire.pollStatus : Keeps I R pollStatus :=
  (h.sendOk _ _ fun _ _ => counterOf_message' _).bind fun _ => Keeps.pure _

theorem Wire.sendMarker (head : UInt8) (sub : UInt16) (state : UInt8) :
    Keeps I R (sendMarker head sub state) :=
  (h.sendOk _ _ fun _ _ => counterOf_message' _).bind fun _ => Keeps.pure _

theorem Wire.pollIfDue : Keeps I R pollIfDue := by
  refine h.ask.bind fun a => ?_
  split_ifs
  · exact h.pollStatus
  · exact Keeps.pure _

theorem Wire.awaitEcho (c : Crypto) (requestCounter : UInt16) :
    ∀ (n : ℕ) (reply : Option (List UInt8)), Keeps I R (awaitEcho c requestCounter n reply)
  | 0, reply => Keeps.get.bind fun w => Keeps.pure _
  | n + 1, reply => by
      refine Keeps.get.bind fun w => ?_
      split
      · exact Keeps.pure _
      · exact h.receive.bind fun reply => Wire.awaitEcho c requestCounter n reply

theorem Wire.probeHeadPresent (c : Crypto) (head : UInt8) :
    Keeps I R (probeHeadPresent c head) := by
  refine Keeps.get.bind fun w => Keeps.bind ?_ fun reply => Keeps.pure _
  refine h.withMessage (carries_ok fun _ _ => counterOf_message' _) nofun fun content => ?_
  exact (h.sendControl 0x15 content).bind fun reply => h.ask.bind fun a => h.awaitEcho c _ _ _

end Channel

section Keep

variable {I R : World → Prop} (h : Stable I R)

include h

theorem Stable.fitU16 (value : ℕ) (message : String) : Keeps I R (fitU16 value message) := by
  unfold Session.fitU16
  split_ifs
  · exact h.throw _
  · exact Keeps.pure _

theorem Stable.updateShot (head : UInt8) (f : Option CursorShot → Option CursorShot) :
    Keeps I R (updateShot head f) := by
  unfold Session.updateShot
  split
  · exact Keeps.pure _
  · exact Keeps.modify fun w hw => h.cursor w _ hw

theorem Stable.setCursor (head : UInt8) (width height : ℕ) (bgra : List UInt8) :
    Keeps I R (setCursor head width height bgra) := by
  refine (h.fitU16 _ _).bind fun w => (h.fitU16 _ _).bind fun ht => ?_
  refine (h.sendBuilt _ _ (carries_cursorCreate head w ht)).bind fun _ => ?_
  refine (h.sendBuilt _ _ (carries_cursorImage head w ht bgra)).bind fun _ => ?_
  exact h.updateShot head _

theorem Stable.moveCursor (head : UInt8) (x y : ℤ) : Keeps I R (moveCursor head x y) :=
  (h.sendBuilt _ _ (carries_cursorMove head _ _ true)).bind fun _ => h.updateShot head _

theorem Stable.hideCursor (head : UInt8) : Keeps I R (hideCursor head) :=
  (h.sendBuilt _ _ (carries_cursorMove head 0 0 false)).bind fun _ => h.updateShot head _

theorem Stable.rearmCursor (head : UInt8) : Keeps I R (rearmCursor head) := by
  refine Keeps.get.bind fun w => ?_
  split
  · exact Keeps.pure _
  · refine (h.setCursor _ _ _ _).bind fun _ => ?_
    split_ifs
    · exact h.moveCursor _ _ _
    · exact h.hideCursor _

theorem Stable.ddcci (c : Crypto) (head : UInt8) (address flags : UInt16) (payload : List UInt8) :
    Keeps I R (ddcci c head address flags payload) := by
  unfold Session.ddcci
  split_ifs
  · exact h.throw _
  · exact (h.sendBuilt _ _ (carries_ddcciForward head payload)).bind fun _ => Keeps.pure _
  · refine Keeps.get.bind fun w => ?_
    refine (h.sendOk _ _ fun _ _ => counterOf_message' _).bind fun reply => ?_
    unfold ddcciResult
    split
    · exact h.throw _
    · split
      · exact h.throw _
      · exact h.throw _
      · exact Keeps.pure _

end Keep

end Vino.Session
