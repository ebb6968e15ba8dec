import Vino.Session.CursorShape

/-!
# The Daemon around a Session

The service drives every connector of a dock through an output of its own, a virtual card that the
compositor paints on.  One turn of its loop hands each output its events and its frame, programs
the whole dock when a mode was declined beside a lit connector, follows what is plugged in, and
keeps the session alive.  An error ends the session; the next one starts from nothing.

The cards are the surroundings: what they report and give is an input of a turn.  Beside the
service's own state, `State` records each call of `presentRgb` and what each output was told of its
power.

* `Tick.steps`: the steps of one turn, in their order,
* `advance`, `serviceRun`: a step of the service and its runs; `sessionSteps`: what a session runs,
* `triple_call`: a call of the session inside the service.
-/

namespace Vino.Session.Daemon

open Vino.Cp.Messages Vino.Cp.Seal Vino.Lib.Effect Vino.Lib.Run Vino.Profile Vino.Scanout

/-! ### Outputs -/

/-- A mode the compositor selects. -/
structure Mode where
  width : ℕ
  height : ℕ
  refreshHz : UInt32
  bitsPerPixel : UInt32
  pixelFormat : UInt32
  deriving DecidableEq, Repr

/-- The mode as the session is asked for it. -/
def Mode.request (m : Mode) (i : Connector) : Request :=
  ⟨headOf i, m.width, m.height, m.refreshHz.toNat⟩

/-- A padded surface of packed RGB. -/
structure Surface where
  padded : List UInt8
  width : ℕ
  height : ℕ
  deriving DecidableEq, Repr

/-- A frame that a card gives, as packed RGB.  A card has one buffer, registered for its mode, so
that its frames have the size of the mode. -/
structure Grab where
  mode : Mode
  rgb : List UInt8
  deriving DecidableEq, Repr

/-- What the service keeps for a connected output. -/
structure Output where
  mode : Option Mode
  active : Bool
  lastSurface : Option Surface
  cursorHotspot : ℤ × ℤ
  deferredMode : Option Mode
  presenceDebounce : UInt8
  silentProbes : UInt8
  deriving DecidableEq, Repr

/-- A monitor has just been connected. -/
def Output.connected : Output := ⟨none, false, none, (0, 0), none, 0, 0⟩

/-- The mode an output is owed or has. -/
def Output.wants (o : Output) : Option Mode := o.deferredMode <|> o.mode

/-- What a card reports. -/
inductive DeviceEvent where
  | dpms (state : ℤ)
  | mode (mode : Mode)
  | crtcState (state : ℤ)
  | cursorSet (cursor : Cursor)
  | cursorMove (x y : ℤ)
  | ddcci (address flags : UInt16) (buffer : List UInt8)
  deriving DecidableEq, Repr

/-! ### State -/

/-- A call of `presentRgb`: its connector and its size, whether the connector was lit, and the
padded size of the mode programmed on it. -/
structure Presented where
  connector : Connector
  size : ℕ × ℕ
  lit : Bool
  programmed : ℕ × ℕ

/-- What an output was told: whether a mode, and whether the last event about its power was a mode
or a wake. -/
structure Heard where
  mode : Bool
  on : Bool
  deriving DecidableEq, Repr

def Heard.nothing : Heard := ⟨false, false⟩

/-- An event about the power of an output. -/
def Heard.hear (heard : Heard) : DeviceEvent → Heard
  | .mode _ => ⟨true, true⟩
  | .dpms state => { heard with on := state = 0 }
  | _ => heard

structure State where
  world : World
  outputs : Connector → Option Output
  presented : List Presented
  heard : Connector → Heard

/-- Why a session is given up. -/
inductive DaemonError where
  | session (e : SessionError)
  | cursor (e : CursorError)
  | noActiveMode (i : Connector)
  /-- A panic, which ends the service as a whole. -/
  | panicked

abbrev DaemonM := EStateM DaemonError State

/-- A call of the session. -/
def call {α : Type} (m : SessionM α) : DaemonM α := fun s =>
  match m s.world with
  | .ok a w => .ok a { s with world := w }
  | .error e w => .error (.session e) { s with world := w }

/-- A call whose error is reported and forgotten. -/
def attempt {α : Type} (m : SessionM α) : DaemonM (Option α) := fun s =>
  match m s.world with
  | .ok a w => .ok (some a) { s with world := w }
  | .error _ w => .ok none { s with world := w }

/-- Replace what is kept for a connector. -/
def setOutput (i : Connector) (o : Option Output) : DaemonM Unit :=
  modifyThe State fun s => { s with outputs := Function.update s.outputs i o }

/-! ### Events -/

def activate (i : Connector) (m : Mode) : DaemonM Bool :=
  call (activateMode (headOf i) m.width m.height m.refreshHz.toNat)

/-- The picture of a cursor, to be uploaded. -/
def cursorPicture (cursor : Cursor) : DaemonM (List UInt8) :=
  match cursorBgra cursor with
  | none => throw .panicked
  | some (.error e) => throw (.cursor e)
  | some (.ok bgra) => return bgra

def showCursor (i : Connector) (cursor : Cursor) : DaemonM Unit := do
  let bgra ← cursorPicture cursor
  let shown ← call (setCursorOrPanic (headOf i) cursor.width.toNat cursor.height.toNat bgra)
  if shown.isNone then throw .panicked else pure ()

/-- What an event does to an output. -/
def handleEvent (c : Crypto) (i : Connector) (output : Output) : DeviceEvent → DaemonM Output
  | .mode mode =>
      if some mode ≠ output.mode then do
        let programmed ← activate i mode
        if programmed then return { output with mode := some mode, active := true }
        -- Owed to the whole dock rather than to this connector.
        else return { output with deferredMode := some mode }
      else return output
  | .crtcState _ => return output
  | .dpms state =>
      if state = 0 then
        match output.active, output.mode with
        | false, some mode => do
            let programmed ← activate i mode
            return { output with active := programmed }
        | _, _ => return output
      else if output.active then
        match output.mode with
        | none => throw (.noActiveMode i)
        | some mode => do
            call (deactivateMode (headOf i) mode.width mode.height)
            return { output with active := false }
      else return output
  | .cursorSet cursor => do
      let s ← get
      if s.world.dock.profile.capabilities.hwCursor then
        if cursor.enabled then do
          showCursor i cursor
          return { output with cursorHotspot := (cursor.hotX, cursor.hotY) }
        else do
          call (hideCursor (headOf i))
          return { output with cursorHotspot := (cursor.hotX, cursor.hotY) }
      else return output
  | .cursorMove x y => do
      let s ← get
      if s.world.dock.profile.capabilities.hwCursor && output.active then do
        call (moveCursor (headOf i) (x - output.cursorHotspot.1) (y - output.cursorHotspot.2))
        return output
      else return output
  | .ddcci address flags buffer => do
      let _ ← attempt (ddcci c (headOf i) address flags buffer)
      return output

/-- Hand an output an event, and note what it says of the output's power. -/
def deliver (c : Crypto) (i : Connector) (event : DeviceEvent) : DaemonM Unit := do
  let s ← get
  match s.outputs i with
  | none => pure ()
  | some output => do
      let output ← handleEvent c i output event
      setOutput i (some output)
      modifyThe State fun s =>
        { s with heard := Function.update s.heard i ((s.heard i).hear event) }

/-! ### Frames -/

/-- Round a surface up to whole strips. -/
def padRgb (d : Dock) (rgb : List UInt8) (width height : ℕ) : Surface :=
  let size := padded d width height
  if size = (width, height) then ⟨rgb, width, height⟩
  else
    ⟨(List.range size.2).flatMap fun row =>
      if row < height then
        (rgb.drop (row * (width * 3))).take (width * 3) ++
          List.replicate ((size.1 - width) * 3) 0
      else List.replicate (size.1 * 3) 0,
      size.1, size.2⟩

/-- What a call of `presentRgb` meets. -/
def State.presenting (s : State) (i : Connector) (surface : Surface) : Presented where
  connector := i
  size := (surface.width, surface.height)
  lit := s.world.modeActive i
  programmed := padded s.world.dock (s.world.programmedMode i).1.toNat
    (s.world.programmedMode i).2.toNat

def present (i : Connector) (surface : Surface) : DaemonM Unit := do
  modifyThe State fun s => { s with presented := s.presented ++ [s.presenting i surface] }
  call (presentRgb (headOf i) surface.width surface.height surface.padded)

/-- A mode that comes with a frame is programmed ahead of it, or owed. -/
def adopt (i : Connector) (output : Output) (mode : Mode) : DaemonM Output :=
  if some mode ≠ output.mode then do
    let programmed ← activate i mode
    if programmed then return { output with mode := some mode }
    else return { output with deferredMode := some mode }
  else return output

/-- Present a frame, padded, and keep its surface. -/
def presentGrab (i : Connector) (output : Output) (grab : Grab) : DaemonM Unit := do
  let s ← get
  let surface := padRgb s.world.dock grab.rgb grab.mode.width grab.mode.height
  present i surface
  setOutput i (some { output with lastSurface := some surface })

/-- Present the frame of an output, or its last surface while strips are owed. -/
def serve (i : Connector) (grab : Option Grab) : DaemonM Unit := do
  let s ← get
  match s.outputs i with
  | none => pure ()
  | some output =>
      if output.active then
        match grab with
        | none =>
            match output.lastSurface with
            | none => pure ()
            | some surface => if owesRepaint s.world (headOf i) then present i surface else pure ()
        | some grab => do
            let output ← adopt i output grab.mode
            presentGrab i output grab
      else pure ()

/-! ### The whole dock -/

/-- Every output with the mode it is owed or has. -/
def requests (outputs : Connector → Option Output) : List Request :=
  (List.finRange maxConnectors).filterMap fun i =>
    ((outputs i).bind Output.wants).map fun m => m.request i

/-- An output whose connector the whole dock was programmed with. -/
def Output.reconfigured (o : Output) : Output :=
  match o.wants with
  | none => o
  | some m => { o with deferredMode := none, mode := some m, active := true }

/-- An output is owed a mode. -/
def Owed (outputs : Connector → Option Output) : Prop :=
  ∃ i, ∃ o ∈ outputs i, o.deferredMode.isSome

instance (outputs : Connector → Option Output) : Decidable (Owed outputs) :=
  decidable_of_iff (∃ i, (outputs i).any (·.deferredMode.isSome)) <| by
    simp [Owed, Option.any_eq_true]

/-- Program every connector once a mode was declined. -/
def reconfigure : DaemonM Unit := do
  let s ← get
  if Owed s.outputs then do
    call (activateModes (requests s.outputs))
    modifyThe State fun s => { s with outputs := fun i => (s.outputs i).map Output.reconfigured }
  else pure ()

/-! ### What is plugged in -/

/-- What a look at a connector meets beside the dock: whether a card can be opened and connected,
and whether the output is past its grace. -/
structure Look where
  connects : Bool
  graceOver : Bool

/-- Fetch an EDID and connect an output to it. -/
def connectOutput (c : Crypto) (i : Connector) (look : Look) : DaemonM Unit := do
  let edid ← attempt (fetchEdid c (headOf i))
  if edid.isSome && look.connects then
    modifyThe State fun s =>
      { s with
        outputs := Function.update s.outputs i (some Output.connected)
        heard := Function.update s.heard i Heard.nothing }
  else pure ()

def presenceSilentLimit : UInt8 := 3

/-- One more, up to the largest. -/
def saturatingSucc (n : UInt8) : UInt8 := if n = 255 then n else n + 1

/-- Two negative answers in a row past the grace disconnect a monitor. -/
def Output.answered (o : Output) (look : Look) (present : Bool) : Option Output :=
  if present || !look.graceOver then some { o with presenceDebounce := 0 }
  else
    let debounce := saturatingSucc o.presenceDebounce
    if 2 ≤ debounce then none else some { o with presenceDebounce := debounce }

/-- What a probe makes of an output; silence counts for nothing until it has lasted. -/
def Output.probed (o : Output) (look : Look) : Option Bool → Option Output
  | some present => { o with silentProbes := 0 }.answered look present
  | none =>
      let o := { o with silentProbes := saturatingSucc o.silentProbes }
      if o.silentProbes < presenceSilentLimit then some o else o.answered look false

/-- Probe one connector. -/
def refreshConnector (c : Crypto) (looks : Connector → Look) (i : Connector) : DaemonM Unit := do
  let s ← get
  match s.outputs i with
  | none => do
      let present ← call (probeHeadPresent c (headOf i))
      if present = some true then connectOutput c i (looks i) else pure ()
  | some output =>
      -- A deliberate DPMS-off closes the downstream stream and can look like removal.
      if output.mode.isSome && !output.active then pure ()
      else do
        let present ← call (probeHeadPresent c (headOf i))
        setOutput i (output.probed (looks i) present)

/-- Follow what is plugged in: every entry of the array is probed. -/
def refreshTopology (c : Crypto) (looks : Connector → Look) : DaemonM Unit := do
  let s ← get
  if s.world.dock.profile.protocol.reportsPresence then
    (List.finRange maxConnectors).forM (refreshConnector c looks)
  else pure ()

/-- Discover one connector at the start of a session. -/
def discoverConnector (c : Crypto) (looks : Connector → Look) (i : Connector) : DaemonM Unit := do
  let s ← get
  let profile := s.world.dock.profile
  if !profile.quirks.sharedEdidHandler || !profile.protocol.reportsPresence then
    connectOutput c i (looks i)
  else do
    let present ← call (probeHeadPresent c (headOf i))
    if present = some true then connectOutput c i (looks i) else pure ()

/-- Discover the connectors the dock has. -/
def discover (c : Crypto) (looks : Connector → Look) : DaemonM Unit := do
  let s ← get
  ((List.finRange maxConnectors).filter fun i => i.val < s.world.connectors.val).forM
    (discoverConnector c looks)

/-! ### Turns -/

/-- What the loop does one after another. -/
inductive Step where
  | discover (looks : Connector → Look)
  | event (i : Connector) (event : DeviceEvent)
  | serve (i : Connector) (grab : Option Grab)
  | reconfigure
  | topology (looks : Connector → Look)
  | keepalive
  | heartbeat

def act (c : Crypto) : Step → DaemonM Unit
  | .discover looks => discover c looks
  | .event i event => deliver c i event
  | .serve i grab => serve i grab
  | .reconfigure => reconfigure
  | .topology looks => refreshTopology c looks
  | .keepalive => call keepalivePoll
  | .heartbeat => call heartbeat

/-- What the surroundings give one turn of the loop: the events and the frame of each card, and
which of the periodic tasks are due. -/
structure Tick where
  events : Connector → List DeviceEvent
  grab : Connector → Option Grab
  topology : Option (Connector → Look)
  keepalive : Bool
  heartbeat : Bool

/-- The steps of one turn. -/
def Tick.steps (t : Tick) : List Step :=
  ((List.finRange maxConnectors).flatMap fun i =>
    (t.events i).map (Step.event i) ++ [Step.serve i (t.grab i)]) ++
  [Step.reconfigure] ++ (t.topology.map Step.topology).toList ++
  (if t.keepalive then [Step.keepalive] else []) ++ if t.heartbeat then [Step.heartbeat] else []

/-- The service: its state, and whether the session is still served. -/
structure Service where
  state : State
  running : Bool

/-- One step of the service; an error ends the session. -/
def advance (c : Crypto) (t : Service) (step : Step) : Service :=
  if t.running then
    match act c step t.state with
    | .ok _ s => ⟨s, true⟩
    | .error _ s => ⟨s, false⟩
  else t

/-- A session without outputs. -/
def idle (w : World) : Service := ⟨⟨w, fun _ => none, [], fun _ => Heard.nothing⟩, true⟩

/-- The steps of a session: the discovery and a number of turns. -/
def sessionSteps (looks : Connector → Look) (ticks : List Tick) : List Step :=
  .discover looks :: ticks.flatMap Tick.steps

/-- The service behind a number of steps. -/
def serviceRun (c : Crypto) (w : World) (steps : List Step) : Service :=
  run (advance c) (idle w) steps

/-! ### Rules -/

section Rules

variable {α : Type} {P : State → Prop} {Q : α → State → Prop} {R : State → Prop}

/-- **A call of the session**, from what it does in each state. -/
theorem triple_call {m : SessionM α}
    (h : ∀ s, P s → Triple (fun w => w = s.world) m (fun a w => Q a { s with world := w })
      fun w => R { s with world := w }) : Triple P (call m) Q R := by
  intro s hs
  have hm := h s hs s.world rfl
  unfold call
  cases hrun : m s.world with
  | ok a w =>
    rw [hrun] at hm
    exact hm
  | error e w =>
    rw [hrun] at hm
    exact hm

theorem triple_attempt {m : SessionM α} {Q : Option α → State → Prop}
    (h : ∀ s, P s → Triple (fun w => w = s.world) m (fun a w => Q (some a) { s with world := w })
      fun w => Q none { s with world := w }) : Triple P (attempt m) Q R := by
  intro s hs
  have hm := h s hs s.world rfl
  unfold attempt
  cases hrun : m s.world with
  | ok a w =>
    rw [hrun] at hm
    exact hm
  | error e w =>
    rw [hrun] at hm
    exact hm

end Rules

end Vino.Session.Daemon
