import Vino.Evdi.Events
import Vino.Lib.Run

/-!
# The Client of a Card

The driver answers what the compositor commits by events, and keeps what a client needs that
connects late.  The client owns one card: it reads the events, registers a framebuffer for each mode
it is told, hands every other event on, and grabs frames.  All of them take their steps in any order;
an event may find no room in the channel, and a read may return any number of the events that fit.
The mode of the display is stored first and announced then, and a connection reads it first and
replays it then, so that the two may overtake each other.

* `Driver`: what the driver keeps, and the events its callbacks send,
* `Device`: the state of a device, with its callbacks and its registered buffer,
* `Commit`, `Replay`: how far the compositor and a connection are with an announcement,
* `step`: one step of any of them.
-/

namespace Vino.Evdi.Client

open Vino.Evdi.Events

/-! ### The driver -/

/-- The display is on. -/
def dpmsOn : Int32 := 0

/-- The display is off. -/
def dpmsOff : Int32 := 3

/-- The format of every framebuffer that is announced. -/
def xrgb8888 : UInt32 := 0x34325258

/-- A mode that the compositor may set. -/
structure DisplayMode where
  hdisplay : UInt16
  vdisplay : UInt16
  vrefresh : Int32
  hdisplayPos : 0 < hdisplay.toNat
  vdisplayPos : 0 < vdisplay.toNat
  vrefreshNonneg : 0 ≤ vrefresh.toInt
  deriving DecidableEq

/-- The framebuffer of a cursor plane; `id` tells it from others. -/
structure CursorBuffer where
  id : ℕ
  width : UInt32
  height : UInt32
  format : UInt32
  pitch : Option UInt32

/-- What is committed to the cursor plane: the framebuffer, and the corners of the visible source
and destination. -/
structure CursorPlane where
  framebuffer : Option CursorBuffer
  visible : Option ((Int32 × Int32) × (Int32 × Int32))

structure Driver where
  connected : Bool
  announcedMode : Option DisplayMode
  cursorEvents : Bool
  cursorBuffer : Option CursorBuffer
  scanout : Bool
  frameDirty : Bool
  /-- What was sent and has not been read. -/
  queue : List Event
  /-- Everything that was sent. -/
  sent : List Event

/-- Send an event, if someone is connected and there is room. -/
def Driver.send (d : Driver) (room : Bool) (e : Event) : Driver :=
  if d.connected && room then { d with queue := d.queue ++ [e], sent := d.sent ++ [e] } else d

/-- The announcement of a mode. -/
def DisplayMode.announcement (m : DisplayMode) : EvdiMode :=
  ⟨Int32.ofNat m.hdisplay.toNat, Int32.ofNat m.vdisplay.toNat, m.vrefresh, 32, xrgb8888⟩

/-- A flip of the primary plane, with or without a framebuffer. -/
def Driver.atomicUpdate (d : Driver) (room : ℕ → Bool) (fb : Bool) : Driver :=
  if fb then { d with scanout := true, frameDirty := true }.send (room 0) .updateReady
  else { d with scanout := false }

def saturatingMul (a b : UInt32) : UInt32 := UInt32.ofNat (min (a.toNat * b.toNat) 0xffffffff)

/-- The event of a cursor image, behind a handle of the client's. -/
def cursorShape (fb : CursorBuffer) (stride handle : UInt32) : EventCursorSet where
  hotX := 0
  hotY := 0
  width := fb.width
  height := fb.height
  enabled := 1
  bufferHandle := handle
  bufferLength := saturatingMul stride fb.height
  pixelFormat := fb.format
  stride := stride

def cursorDisabled : EventCursorSet := ⟨0, 0, 0, 0, 0, 0, 0, 0, 0⟩

/-- Send the image of a cursor, when it can be read and a handle for it could be made. -/
def Driver.notifyCursorSet (d : Driver) (room : ℕ → Bool) (fb : CursorBuffer)
    (handle : Option UInt32) : Driver :=
  match fb.pitch, if d.connected then handle else none with
  | some stride, some handle => d.send (room 0) (.cursorSet (cursorShape fb stride handle))
  | _, _ => d

/-- The corner of the bitmap, also where it is off the screen. -/
def corner (v : (Int32 × Int32) × (Int32 × Int32)) : Int32 × Int32 :=
  (v.2.1 - v.1.1, v.2.2 - v.1.2)

def Driver.notifyCursorMove (d : Driver) (room : ℕ → Bool) (plane : CursorPlane) : Driver :=
  match plane.visible with
  | none => d
  | some v => d.send (room 1) (.cursorMove (corner v).1 (corner v).2)

/-- Report what is on the cursor plane now; the image only where it is another one. -/
def Driver.reportCursor (d : Driver) (room : ℕ → Bool) (handle : Option UInt32)
    (old : Option CursorBuffer) (plane : CursorPlane) : Driver :=
  match plane.framebuffer with
  | none => d.send (room 0) (.cursorSet cursorDisabled)
  | some fb =>
      (if old.map (·.id) ≠ some fb.id then d.notifyCursorSet room fb handle else d).notifyCursorMove
        room plane

def Driver.updateCursor (d : Driver) (room : ℕ → Bool) (handle : Option UInt32)
    (plane : CursorPlane) : Driver :=
  let old := d.cursorBuffer
  let d := { d with cursorBuffer := plane.framebuffer }
  if d.cursorEvents then d.reportCursor room handle old plane else d

/-! ### The client -/

/-- How many of the first `n` events fit into a buffer. -/
def fitting : ℕ → ℕ → List Event → ℕ
  | _, 0, _ => 0
  | _, _, [] => 0
  | size, n + 1, e :: queue =>
      if e.encode.length ≤ size then fitting (size - e.encode.length) n queue + 1 else 0

/-- One read of up to 1024 bytes. -/
def Driver.read (d : Driver) (n : ℕ) : List UInt8 × Driver :=
  let k := fitting 1024 n d.queue
  ((d.queue.take k).flatMap Event.encode, { d with queue := d.queue.drop k })

structure Mode where
  width : ℕ
  height : ℕ
  refreshHz : ℕ
  bitsPerPixel : ℕ
  pixelFormat : UInt32
  deriving DecidableEq, Repr

def Mode.fromAbi (m : EvdiMode) : Option Mode :=
  if 0 < m.width.toInt ∧ 0 < m.height.toInt ∧ 0 ≤ m.refreshRate.toInt ∧
      0 ≤ m.bitsPerPixel.toInt then
    some ⟨m.width.toInt.toNat, m.height.toInt.toNat, m.refreshRate.toInt.toNat,
      m.bitsPerPixel.toInt.toNat, m.pixelFormat⟩
  else none

structure Cursor where
  hotX : Int32
  hotY : Int32
  width : UInt32
  height : UInt32
  enabled : Bool
  pixels : List UInt8
  pixelFormat : UInt32
  stride : UInt32
  deriving DecidableEq, Repr

inductive DeviceEvent where
  | dpms (mode : Int32)
  | mode (mode : Mode)
  | crtcState (state : Int32)
  | cursorSet (cursor : Cursor)
  | cursorMove (x y : Int32)
  | ddcci (address flags : UInt16) (buffer : List UInt8)
  deriving DecidableEq, Repr

/-- The framebuffer the device owns, by its size. -/
structure RegisteredBuffer where
  width : ℕ
  height : ℕ
  stride : ℕ
  length : ℕ

/-- A buffer as the library knows it. -/
structure AbiBuffer where
  id : ℤ
  width : ℕ
  height : ℕ
  stride : ℕ

/-- The id of the one framebuffer of a device. -/
def bufferId : ℤ := 1

structure Device where
  buffer : Option RegisteredBuffer
  mode : Option Mode
  /-- The buffers of the library, and the one that is to be updated. -/
  frameBuffers : List AbiBuffer
  bufferToUpdate : ℤ
  /-- What the callbacks left. -/
  selected : Option EvdiMode
  readyBuffer : Option ℤ
  events : List DeviceEvent

def Device.opened : Device := ⟨none, none, [], 0, none, none, []⟩

/-- The image of a cursor whose pixels could be mapped, or not. -/
def cursorOf (c : EventCursorSet) (pixels : Option (List UInt8)) : Cursor :=
  let pixels := if c.enabled = 0 then none else pixels
  { hotX := c.hotX
    hotY := c.hotY
    width := c.width
    height := c.height
    enabled := pixels.isSome
    pixels := pixels.getD []
    pixelFormat := c.pixelFormat
    stride := c.stride }

/-- What is handed on of an event. -/
def deviceEvent (e : Event) (pixels : Option (List UInt8)) : Option DeviceEvent :=
  match e with
  | .updateReady => none
  | .dpms mode => some (.dpms mode)
  | .modeChanged mode => (Mode.fromAbi mode).map .mode
  | .crtcState state => some (.crtcState state)
  | .cursorSet cursor => some (.cursorSet (cursorOf cursor pixels))
  | .cursorMove x y => some (.cursorMove x y)
  | .ddcciData data =>
      some (.ddcci data.address data.flags (data.buffer.toList.take data.bufferLength.toNat))

/-- The callbacks. -/
def Device.hear (c : Device) (e : Event) (pixels : Option (List UInt8)) : Device :=
  { c with
    selected := match e with
      | .modeChanged mode => some mode
      | _ => c.selected
    readyBuffer := match e with
      | .updateReady => some c.bufferToUpdate
      | _ => c.readyBuffer
    events := c.events ++ (deviceEvent e pixels).toList }

/-- The image of a cursor could not be mapped, so no more are wanted. -/
def gaveUp (e : Event) (pixels : Option (List UInt8)) : Bool :=
  match e with
  | .cursorSet cursor => cursor.enabled != 0 && pixels.isNone
  | _ => false

def Device.unregisterBuffer (c : Device) : Device :=
  if c.buffer.isSome then
    { c with buffer := none, frameBuffers := c.frameBuffers.filter (·.id ≠ bufferId) }
  else c

/-- The sizes of a mode and of its buffer fit into the machine's types and the interface's. -/
def Mode.Fits (m : Mode) : Prop :=
  m.width * 4 < 2 ^ 64 ∧ m.width * 4 * m.height < 2 ^ 64 ∧ m.width < 2 ^ 31 ∧ m.height < 2 ^ 31 ∧
    m.width * 4 < 2 ^ 31

instance (m : Mode) : Decidable m.Fits := inferInstanceAs (Decidable (_ ∧ _))

/-- Own a framebuffer of the mode, unless it is too large for the interface. -/
def Device.registerMode (c : Device) (m : Mode) : Device :=
  let c := { c.unregisterBuffer with mode := none }
  let stride := m.width * 4
  if m.Fits then
    { c with
      buffer := some ⟨m.width, m.height, stride, stride * m.height⟩
      frameBuffers := c.frameBuffers ++ [⟨bufferId, m.width, m.height, stride⟩]
      mode := some m }
  else c

/-- Take the mode that was selected last. -/
def Device.select (c : Device) : Device :=
  let selected := c.selected.bind Mode.fromAbi
  let c := { c with selected := none }
  match selected with
  | none => c
  | some m => if c.mode = some m then c else c.registerMode m

/-- How far a commit is that turns the display on or off: the mode is stored, and then sent. -/
inductive Commit where
  | idle
  | store (mode : Option DisplayMode)
  | dpms (mode : Option DisplayMode)
  | modeChanged (mode : DisplayMode)
  deriving DecidableEq

/-- How far `connect` is: the client is registered, and then told the mode that was stored. -/
inductive Replay where
  | idle
  | registered
  | dpms (mode : DisplayMode)
  | modeChanged (mode : DisplayMode)
  deriving DecidableEq

/-- How far a call of `next_frame` has come. -/
inductive Phase where
  | idle
  | requesting
  | waiting
  | grabbing
  deriving DecidableEq

structure State where
  driver : Driver
  device : Device
  commit : Commit
  replay : Replay
  phase : Phase
  /-- Everything that was handed on. -/
  handed : List DeviceEvent

/-- How the pixels behind a cursor's handle are mapped. -/
abbrev Mapping := EventCursorSet → Option (List UInt8)

/-- The pixels of an event. -/
def Mapping.image (pixels : Mapping) : Event → Option (List UInt8)
  | .cursorSet cursor => pixels cursor
  | _ => none

/-- One event. -/
def State.dispatch (s : State) (pixels : Mapping) (e : Option Event) : State :=
  match e with
  | none => s
  | some e =>
      { s with
        device := s.device.hear e (pixels.image e)
        driver := { s.driver with
          cursorEvents := s.driver.cursorEvents && !gaveUp e (pixels.image e) } }

/-- Read events, if there are any, and take the mode they select. -/
def State.pollEvents (s : State) (n : ℕ) (pixels : Mapping) : State :=
  if s.driver.queue = [] then s
  else
    let (buf, driver) := s.driver.read n
    let s := (parseEvents buf).foldl (·.dispatch pixels) { s with driver := driver }
    { s with device := s.device.select }

structure DamageRect where
  x1 : ℤ
  y1 : ℤ
  x2 : ℤ
  y2 : ℤ
  deriving DecidableEq

structure Frame where
  width : ℕ
  height : ℕ
  stride : ℕ
  length : ℕ
  damage : List DamageRect
  deriving DecidableEq

/-- The buffer a grab is made into. -/
def Device.findBuffer (c : Device) : Option AbiBuffer :=
  c.frameBuffers.find? (·.id = c.bufferToUpdate)

/-- A grab; the driver's rectangles are `none` if it refuses. -/
def Device.grabFrame (c : Device) (rects : Option (List DamageRect)) : Option Frame :=
  let damage := match c.findBuffer, rects with
    | some _, some rects => rects.take 16
    | _, _ => []
  c.buffer.map fun buffer => ⟨buffer.width, buffer.height, buffer.stride, buffer.length, damage⟩

/-- A device that was opened on a card, whatever the compositor did before. -/
def opened (d : Driver) : State where
  driver := { d with connected := false, cursorEvents := true, queue := [], sent := [] }
  device := .opened
  commit := .idle
  replay := .idle
  phase := .idle
  handed := []

/-! ### Steps -/

/-- The compositor begins to turn the display on, one commit at a time. -/
def State.atomicEnable (s : State) (m : DisplayMode) : State :=
  match s.commit with
  | .idle => { s with commit := .store (some m) }
  | _ => s

/-- The compositor begins to turn the display off. -/
def State.atomicDisable (s : State) : State :=
  match s.commit with
  | .idle => { s with driver := { s.driver with scanout := false }, commit := .store none }
  | _ => s

/-- The next step of the commit: the mode is stored, the power state is sent, the mode is sent. -/
def State.announce (s : State) (room : Bool) : State :=
  match s.commit with
  | .idle => s
  | .store mode =>
      { s with driver := { s.driver with announcedMode := mode }, commit := .dpms mode }
  | .dpms none => { s with driver := s.driver.send room (.dpms dpmsOff), commit := .idle }
  | .dpms (some m) =>
      { s with driver := s.driver.send room (.dpms dpmsOn), commit := .modeChanged m }
  | .modeChanged m =>
      { s with driver := s.driver.send room (.modeChanged m.announcement), commit := .idle }

/-- The client is registered. -/
def State.connect (s : State) : State :=
  match s.replay with
  | .idle => { s with driver := { s.driver with connected := true }, replay := .registered }
  | _ => s

/-- The next step of `replay_state`: the mode is read, and sent when its lock is dropped. -/
def State.replayState (s : State) (room : Bool) : State :=
  match s.replay with
  | .idle => s
  | .registered =>
      { s with
        replay := match s.driver.announcedMode with
          | none => .idle
          | some m => .dpms m }
  | .dpms m => { s with driver := s.driver.send room (.dpms dpmsOn), replay := .modeChanged m }
  | .modeChanged m =>
      { s with driver := s.driver.send room (.modeChanged m.announcement), replay := .idle }

/-- Poll and hand on what was heard. -/
def State.events (s : State) (n : ℕ) (pixels : Mapping) : State :=
  if s.phase = .idle then
    let s := s.pollEvents n pixels
    { s with device := { s.device with events := [] }, handed := s.handed ++ s.device.events }
  else s

/-- The first part of `next_frame`: poll, and go on if there is a buffer. -/
def State.nextFrame (s : State) (n : ℕ) (pixels : Mapping) : State :=
  if s.phase = .idle then
    let s := s.pollEvents n pixels
    if s.device.buffer.isNone then s else { s with phase := .requesting }
  else s

def State.requestUpdate (s : State) : State :=
  if s.phase = .requesting then
    { s with
      device := { s.device with readyBuffer := none, bufferToUpdate := bufferId }
      phase := if s.driver.frameDirty then .grabbing else .waiting }
  else s

/-- Poll while waiting for the buffer to be ready. -/
def State.wake (s : State) (n : ℕ) (pixels : Mapping) : State :=
  if s.phase = .waiting then
    let s := s.pollEvents n pixels
    { s with
      device := { s.device with readyBuffer := none }
      phase := if s.device.readyBuffer = some bufferId then .grabbing else .waiting }
  else s

def State.timeout (s : State) : State := if s.phase = .waiting then { s with phase := .idle } else s

/-- The end of `next_frame`.  A grab of a card without a framebuffer takes nothing. -/
def State.grab (s : State) : State :=
  if s.phase = .grabbing then
    { s with
      driver := { s.driver with
        frameDirty := s.driver.frameDirty && !(s.device.findBuffer.isSome && s.driver.scanout) }
      phase := .idle }
  else s

/-- A step of the compositor, of a connection, of the driver's client, or of `next_frame`. -/
inductive Step where
  | atomicEnable (m : DisplayMode)
  | atomicDisable
  | announce (room : Bool)
  | atomicUpdate (fb : Bool) (room : ℕ → Bool)
  | updateCursor (plane : CursorPlane) (handle : Option UInt32) (room : ℕ → Bool)
  | connect
  | replayState (room : Bool)
  | setCursorEvents (enable : Bool)
  | events (n : ℕ) (pixels : Mapping)
  | nextFrame (n : ℕ) (pixels : Mapping)
  | requestUpdate
  | wake (n : ℕ) (pixels : Mapping)
  | timeout
  | grab

/-- One step; a step of `next_frame` that is not due changes nothing. -/
def step (s : State) : Step → State
  | .atomicEnable m => s.atomicEnable m
  | .atomicDisable => s.atomicDisable
  | .announce room => s.announce room
  | .atomicUpdate fb room => { s with driver := s.driver.atomicUpdate room fb }
  | .updateCursor plane handle room =>
      { s with driver := s.driver.updateCursor room handle plane }
  | .connect => s.connect
  | .replayState room => s.replayState room
  | .setCursorEvents enable => { s with driver := { s.driver with cursorEvents := enable } }
  | .events n pixels => s.events n pixels
  | .nextFrame n pixels => s.nextFrame n pixels
  | .requestUpdate => s.requestUpdate
  | .wake n pixels => s.wake n pixels
  | .timeout => s.timeout
  | .grab => s.grab

end Vino.Evdi.Client
