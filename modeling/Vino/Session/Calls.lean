import Vino.Lib.Run
import Vino.Session.Modes

/-!
# Runs of a Session

The calls a session can be given, and the state behind a sequence of them.  Every call comes with
the answers its surroundings give during it.
-/

namespace Vino.Session

open Vino.Cp.Messages Vino.Cp.Seal Vino.Lib.Effect Vino.Profile

/-- An operation of the session. -/
inductive Call where
  | heartbeat
  | keepalivePoll
  | probeHeadPresent (head : UInt8)
  | fetchEdid (head : UInt8)
  | setCursor (head : UInt8) (width height : ℕ) (bgra : List UInt8)
  | moveCursor (head : UInt8) (x y : ℤ)
  | hideCursor (head : UInt8)
  | ddcci (head : UInt8) (address flags : UInt16) (payload : List UInt8)
  | activateMode (request : Request)
  | activateModes (requests : List Request)
  | presentRgb (head : UInt8) (width height : ℕ) (rgb : List UInt8)
  | deactivateMode (head : UInt8) (width height : ℕ)
  deriving DecidableEq

/-- Run a computation for its effect. -/
def discard {α : Type} (m : SessionM α) : SessionM Unit := do
  let _ ← m

def perform (c : Crypto) : Call → SessionM Unit
  | .heartbeat => heartbeat
  | .keepalivePoll => keepalivePoll
  | .probeHeadPresent head => discard (probeHeadPresent c head)
  | .fetchEdid head => discard (fetchEdid c head)
  | .setCursor head width height bgra => setCursor head width height bgra
  | .moveCursor head x y => moveCursor head x y
  | .hideCursor head => hideCursor head
  | .ddcci head address flags payload => discard (ddcci c head address flags payload)
  | .activateMode r => discard (activateMode r.head r.width r.height r.refreshHz)
  | .activateModes requests => activateModes requests
  | .presentRgb head width height rgb => presentRgb head width height rgb
  | .deactivateMode head width height => deactivateMode head width height

/-- A call and what answers it. -/
structure Event where
  call : Call
  answers : ℕ → Answer

/-- New surroundings for the next call. -/
def World.facing (w : World) (answers : ℕ → Answer) : World :=
  { w with answers := answers, time := 0 }

/-- The state behind a call, whether it failed or not. -/
def step (c : Crypto) (w : World) (e : Event) : World :=
  final (perform c e.call) (w.facing e.answers)

/-- Every write succeeds. -/
def Delivers (w : World) : Prop := ∀ t, (w.answers t).write = none

/-- Every write succeeds, and nothing is ever there to be read. -/
def calmAnswers : ℕ → Answer := fun _ =>
  { write := none, reply := .error .timeout, expired := false, rounds := 0, random := fun _ => 0,
    fault := none }

/-- A session that has handed nothing over yet. -/
def start (s : ControlSession) : World := { s with answers := calmAnswers, time := 0, trace := [] }

/-- A cipher that changes nothing, for examples. -/
def plainCrypto : Crypto := ⟨fun _ b => b, fun _ _ => Vector.replicate 16 0⟩

/-- A session with zero keys and counters, for examples. -/
def freshSession (d : Dock) (connectors : Fin (maxConnectors + 1)) : ControlSession :=
  engaged d connectors (Vector.replicate 16 0) (Vector.replicate 8 0) 0 0
    fun _ => (Vector.replicate 16 0, Vector.replicate 8 0)

theorem Keeps.discard {I R : World → Prop} {α : Type} {m : SessionM α} (h : Keeps I R m) :
    Keeps I R (discard m) :=
  Keeps.bind h fun _ => Keeps.pure _

/-- What the control channel's own calls keep. -/
theorem Stable.perform {I R : World → Prop} (h : Stable I R) (c : Crypto) {call : Call}
    (hactivate : ∀ r, call = .activateMode r → Keeps I R (perform c call))
    (hbatch : ∀ rs, call = .activateModes rs → Keeps I R (perform c call))
    (hpresent : ∀ head width height rgb, call = .presentRgb head width height rgb →
      Keeps I R (perform c call))
    (hdeactivate : ∀ head width height, call = .deactivateMode head width height →
      Keeps I R (perform c call)) : Keeps I R (perform c call) := by
  cases call with
  | heartbeat => exact h.heartbeat
  | keepalivePoll => exact h.pollStatus
  | probeHeadPresent head => exact Keeps.discard (h.probeHeadPresent c head)
  | fetchEdid head => exact Keeps.discard (h.fetchEdid c head)
  | setCursor head width height bgra => exact h.setCursor head width height bgra
  | moveCursor head x y => exact h.moveCursor head x y
  | hideCursor head => exact h.hideCursor head
  | ddcci head address flags payload => exact Keeps.discard (h.ddcci c head address flags payload)
  | activateMode r => exact hactivate r rfl
  | activateModes rs => exact hbatch rs rfl
  | presentRgb head width height rgb => exact hpresent head width height rgb rfl
  | deactivateMode head width height => exact hdeactivate head width height rfl

/-- **What all calls keep**, for an invariant of the control channel that any set-mode message
keeps. -/
theorem Steady.perform {I R : World → Prop} (h : Steady I R)
    (hmode : ∀ content, Keeps I R (sendControl 0x48 content)) (c : Crypto) (call : Call) :
    Keeps I R (perform c call) := by
  refine h.toStable.perform c ?_ ?_ ?_ ?_
  · rintro r rfl
    refine Keeps.discard (Keeps.get.bind fun w => ?_)
    split_ifs
    · exact Keeps.pure _
    · exact h.programMode hmode _ _ _ _
  · rintro rs rfl
    refine Keeps.bind (Keeps.forM _ fun i _ => h.darken i) fun _ => Keeps.forM _ fun r _ => ?_
    exact (h.programMode hmode r.head r.width r.height r.refreshHz).bind fun _ => Keeps.pure _
  · rintro head width height rgb rfl
    exact h.presentRgb head width height rgb
  · rintro head width height rfl
    exact h.deactivateMode head width height

end Vino.Session
