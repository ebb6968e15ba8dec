import Vino.Cp.Seal
import Vino.Profile

/-!
# Control-Plane Messages

The inner plaintexts the host sends on the control channel.  All of them open with the same
eight-byte header, which carries the message's counter at offset 4, and most of them end in a
host-random token, whose bytes are taken from a random source.

* `counterOf_message`: a message carries the counter it was built with.
-/

namespace Vino.Cp.Messages

open Vino.Lib.Bits Vino.Haar.Records Vino.Profile

/-- A source of random bytes. -/
abbrev Rng := ℕ → UInt8

/-- Fill a buffer of `n` bytes. -/
def fill (rng : Rng) (n : ℕ) : List UInt8 := (List.range n).map rng

@[simp]
theorem length_fill (rng : Rng) (n : ℕ) : (fill rng n).length = n := by
  simp [fill]

/-- The number of connectors a host can drive. -/
def maxConnectors : ℕ := 4

/-- The common inner header. -/
def header (id sub counter : UInt16) : List UInt8 :=
  u16Bytes id ++ u16Bytes sub ++ u16Bytes counter ++ [0, 0]

/-- Pad with zeros to a length. -/
def padTo (len : ℕ) (b : List UInt8) : List UInt8 := b ++ List.replicate (len - b.length) 0

/-- The shape most messages share: the header, zeros up to offset 22, a body there. -/
def message (id sub counter : UInt16) (body : List UInt8) : List UInt8 :=
  padTo 22 (header id sub counter) ++ body

/-! ### Session -/

def heartbeat (counter : UInt16) : List UInt8 :=
  padTo 32 (message 0x16 0x75 counter [0xe0, 0x2e])

/-- Stream enable markers bracket each mode set. -/
def streamMarker (counter : UInt16) (connector : UInt8) (sub : UInt16) (state : UInt8) (rng : Rng) :
    List UInt8 :=
  message 0x16 sub counter ([connector, state] ++ fill rng 8)

def streamCommit (counter : UInt16) (connector : UInt8) (rng : Rng) : List UInt8 :=
  message 0x16 0x4c counter ([if connector = 0 then 0 else 1, 0] ++ fill rng 8)

def deviceQueryReq (counter sub : UInt16) (rng : Rng) : List UInt8 :=
  message 0x14 sub counter (fill rng 10)

/-! ### EDID -/

def edidSinkState (counter : UInt16) (connector state : UInt8) (rng : Rng) : List UInt8 :=
  message 0x16 0x0023 counter ([connector, state] ++ fill rng 8)

def edidEngageReq (counter : UInt16) (connector : UInt8) (rng : Rng) : List UInt8 :=
  edidSinkState counter connector connector rng

def postEdidQuery (counter : UInt16) (connector : UInt8) (rng : Rng) : List UInt8 :=
  message 0x15 0x0053 counter (1 <<< connector :: fill rng 9)

def edidReadinessState (counter : UInt16) (connector state : UInt8) (rng : Rng) : List UInt8 :=
  message 0x16 0x4b counter ([connector, state] ++ fill rng 8)

def edidReadinessKick (counter : UInt16) (connector : UInt8) (rng : Rng) : List UInt8 :=
  edidReadinessState counter connector 1 rng

def getEdidReqSub (counter sub : UInt16) (connector : UInt8) (rng : Rng) : List UInt8 :=
  message 0x15 sub counter (connector :: fill rng 9)

def getEdidReq (counter : UInt16) (connector : UInt8) (rng : Rng) : List UInt8 :=
  getEdidReqSub counter 0x21 connector rng

/-! ### Cursor -/

/-- The connector bit of a cursor message. -/
def cursorHeadId (connector : UInt8) : Except Errno UInt8 :=
  if maxConnectors ≤ connector.toNat then .error .EINVAL else .ok (1 <<< connector)

def cursorVisible : UInt8 := 0x01

def cursorHidden : UInt8 := 0x00

def cursorCreate (counter : UInt16) (connector : UInt8) (w h : UInt16) :
    Except Errno (List UInt8) := do
  let dockConnector ← cursorHeadId connector
  return padTo 32
    (message 0x1b 0x42 counter ([dockConnector, cursorHidden] ++ u16Bytes w ++ u16Bytes h))

def cursorMove (counter : UInt16) (connector : UInt8) (x y : UInt16) (visible : Bool) :
    Except Errno (List UInt8) := do
  let dockConnector ← cursorHeadId connector
  return padTo 32 (message 0x1a 0x43 counter
    ([dockConnector, if visible then cursorVisible else cursorHidden] ++ u16Bytes x ++ u16Bytes y))

/-- The pixels start at offset 34 and the last one is truncated. -/
def cursorImage (counter : UInt16) (connector : UInt8) (w h : UInt16) (bgra : List UInt8) :
    Except Errno (List UInt8) :=
  -- An empty image makes the source slice end before it starts.
  if w.toNat * h.toNat * 4 ≠ bgra.length ∨ bgra.length < 2 then .error .EINVAL
  else do
    let dockConnector ← cursorHeadId connector
    return padTo 32 (message 0x401c 0x41 counter [dockConnector, cursorHidden]) ++ [0, 0] ++
      bgra.take (bgra.length - 2)

/-! ### DDC/CI -/

def i2cAddr : UInt16 := 0x37

/-- Forward one DDC/CI write. -/
def ddcciForward (counter : UInt16) (head : UInt8) (payload : List UInt8) (rng : Rng) :
    Except Errno (List UInt8) :=
  if 32 < payload.length then .error .EINVAL
  else .ok (padTo 56 (message 0x36 0x26 counter
    ([head, UInt8.ofNat payload.length] ++ payload)) ++ fill rng 8)

/-- Ask for the result of the preceding DDC/CI command. -/
def ddcciReadRequest (counter : UInt16) (head : UInt8) (rng : Rng) : List UInt8 :=
  message 0x15 0x25 counter (head :: fill rng 9)

/-! ### Modes -/

/-- A display mode as the host states it to the message builder. -/
structure DisplayMode where
  clock : ℕ
  hdisplay : UInt16
  hsyncStart : UInt16
  hsyncEnd : UInt16
  htotal : UInt16
  vdisplay : UInt16
  vsyncStart : UInt16
  vsyncEnd : UInt16
  vtotal : UInt16
  flags : UInt32
  deriving DecidableEq, Repr

/-- A video timing as the set-mode message carries it. -/
structure Timing where
  hactive : UInt16
  hblank : UInt16
  hsyncFront : UInt16
  hsyncWidth : UInt16
  vactive : UInt16
  vblank : UInt16
  vsyncFront : UInt16
  vsyncWidth : UInt16
  refreshHz : UInt16
  pixelClock10khz : UInt32
  syncFlags : UInt16
  stride : UInt16
  totalRows : UInt16
  vicWord : UInt16
  tenBit : Bool
  st2084 : Bool
  dualNivo : Bool
  deriving DecidableEq, Repr

/-- The refresh rate of a progressive mode, rounded up. -/
def DisplayMode.vrefresh (m : DisplayMode) : ℕ :=
  if m.clock = 0 ∨ m.htotal = 0 ∨ m.vtotal = 0 then 0
  else (m.clock * 1000 + m.htotal.toNat * m.vtotal.toNat - 1) / (m.htotal.toNat * m.vtotal.toNat)

/-- The nine numbers that identify a timing. -/
def DisplayMode.shape (m : DisplayMode) : ℕ × List ℕ :=
  (m.clock, [m.hdisplay.toNat, m.hsyncStart.toNat, m.hsyncEnd.toNat, m.htotal.toNat,
    m.vdisplay.toNat, m.vsyncStart.toNat, m.vsyncEnd.toNat, m.vtotal.toNat])

def DisplayMode.ceaVic (m : DisplayMode) : UInt8 :=
  if m.shape = (74250, [1280, 1390, 1430, 1650, 720, 725, 730, 750]) then 4
  else if m.shape = (148500, [1920, 2008, 2052, 2200, 1080, 1084, 1089, 1125]) then 16
  else if m.shape = (297000, [1920, 2008, 2052, 2200, 1080, 1084, 1089, 1125]) then 63
  else 0

/-- Sync polarity over the base bit. -/
def syncFlags (m : DisplayMode) : UInt16 :=
  0x0400 ||| (if m.flags &&& 2 = 2 then 0x0100 else 0) |||
    (if m.flags &&& 8 = 8 then 0x0200 else 0)

/-- The picture aspect in the high byte, the VIC in the low one. -/
def vicWord (vic : UInt8) : UInt16 :=
  let aspect : UInt16 :=
    if 1 ≤ vic.toNat ∧ vic.toNat - 1 < 59 then
      if Nat.testBit 0x055575ebeaaed55c (vic.toNat - 1) then 0x2800 else 0x1800
    else 0x0800
  aspect ||| vic.toUInt16

/-- The two mode-dependent words, from a captured message where there is one. -/
def modeProfile (m : DisplayMode) : Option (UInt16 × UInt16) :=
  if m.clock = 0 ∨ m.vrefresh = 0 then none
  else if m.shape = (148500, [1920, 2008, 2052, 2200, 1080, 1084, 1089, 1125]) then
    some (0x0400, 0x2810)
  else if m.shape = (297000, [1920, 2008, 2052, 2200, 1080, 1084, 1089, 1125]) then
    some (0x0400, 0x083f)
  else if m.shape = (241500, [2560, 2608, 2640, 2720, 1440, 1443, 1448, 1481]) then
    some (0x0600, 0x0800)
  else if m.shape = (497750, [2560, 2608, 2640, 2720, 1440, 1443, 1448, 1525]) then
    some (0x0600, 0x0800)
  else some (syncFlags m, vicWord m.ceaVic)

/-- The render stride in pixels: up to a multiple of 128, then one unit more. -/
def renderStride (hactive : UInt16) : UInt16 :=
  UInt16.ofNat (((hactive.toNat + 128 - 1) / 128 + 1) * 128)

/-- The stride and the row count of a dock's framebuffer allocation. -/
def allocationWords (a : Allocation) (hactive vactive : UInt16) (tenBit : Bool) :
    UInt16 × UInt16 :=
  let bytesPerPixel := if tenBit then 4 else 3
  match a with
  | .fixed stride rows => (stride, rows)
  | .derived bytes =>
      let stride := renderStride hactive
      (stride, UInt16.ofNat (min (bytes.toNat / (stride.toNat * bytesPerPixel)) 65535))
  | .measured rows defaultRows =>
      let r := match rows.find? fun r => r.1 == hactive && r.2.1 == vactive with
        | some r => r.2.2
        | none => defaultRows
      (renderStride hactive, UInt16.ofNat (r.toNat * 3 / bytesPerPixel))

/-- Saturating subtraction of 16-bit words. -/
def satSub (a b : UInt16) : UInt16 := UInt16.ofNat (a.toNat - b.toNat)

def timingFromDrmMode (m : DisplayMode) (a : Allocation) (tenBit : Bool) : Except Errno Timing :=
  match modeProfile m with
  | none => .error .EINVAL
  | some (flags, vic) =>
      let (stride, totalRows) := allocationWords a m.hdisplay m.vdisplay tenBit
      .ok {
        hactive := m.hdisplay
        hblank := satSub m.htotal m.hdisplay
        hsyncFront := satSub m.hsyncStart m.hdisplay
        hsyncWidth := satSub m.hsyncEnd m.hsyncStart
        vactive := m.vdisplay
        vblank := satSub m.vtotal m.vdisplay
        vsyncFront := satSub m.vsyncStart m.vdisplay
        vsyncWidth := satSub m.vsyncEnd m.vsyncStart
        refreshHz := UInt16.ofNat m.vrefresh
        pixelClock10khz := UInt32.ofNat (m.clock / 10)
        syncFlags := flags
        stride := stride
        totalRows := totalRows
        vicWord := vic
        tenBit := tenBit
        st2084 := false
        dualNivo := false }

def clearMode (counter : UInt16) (connector : UInt8) (rng : Rng) : List UInt8 :=
  padTo 74 (padTo 42 (message 0x48 0x22 counter [connector, 0]) ++ u16Bytes 0x8000) ++ fill rng 6

def setMode (counter : UInt16) (connector : UInt8) (t : Timing) (rng : Rng) : List UInt8 :=
  let flags := t.syncFlags ||| (if t.st2084 then 0x0040 else 0) |||
    (if t.dualNivo then 0x0004 else 0)
  let words := [t.hactive, t.hblank, t.hsyncFront, t.hsyncWidth, t.vactive, t.vblank, t.vsyncFront,
    t.vsyncWidth, flags, t.refreshHz, t.stride, t.totalRows].flatMap u16Bytes
  let geometry := padTo 26 (message 0x48 0x22 counter [connector, if t.tenBit then 3 else 2])
  let profile := padTo 58 (geometry ++ words) ++ u16Bytes 0x0080 ++ u16Bytes 0x00ff
  let clock := padTo 66 profile ++ u16Bytes t.vicWord ++
    u16Bytes (if t.tenBit then 0x0300 else 0x0200) ++ leBytes 4 t.pixelClock10khz.toNat
  padTo 74 clock ++ fill rng 6

/-- The timings the host knows, by size and refresh rate. -/
def knownMode (width height refreshHz : UInt16) : Option DisplayMode :=
  if width = 1280 ∧ height = 720 ∧ refreshHz = 60 then
    some ⟨74250, 1280, 1390, 1430, 1650, 720, 725, 730, 750, 5⟩
  else if width = 1920 ∧ height = 1080 ∧ (refreshHz = 60 ∨ refreshHz = 120) then
    some ⟨if refreshHz = 60 then 148500 else 297000, 1920, 2008, 2052, 2200, 1080, 1084, 1089, 1125,
      5⟩
  else if width = 2560 ∧ height = 1440 ∧ (refreshHz = 60 ∨ refreshHz = 120) then
    some ⟨if refreshHz = 60 then 241500 else 497750, 2560, 2608, 2640, 2720, 1440, 1443, 1448,
      if refreshHz = 60 then 1481 else 1525, 9⟩
  else if width = 3840 ∧ height = 2160 ∧ refreshHz = 60 then
    some ⟨533120, 3840, 3888, 3920, 4000, 2160, 2163, 2168, 2222, 9⟩
  else none

/-- The set-mode message of a dock, for one of the known timings. -/
def setModeProfile (d : Dock) (counter : UInt16) (head : UInt8) (width height refreshHz : UInt16)
    (rng : Rng) : Except Errno (List UInt8) :=
  match knownMode width height refreshHz with
  | none => .error .EOPNOTSUPP
  | some m => do
      let timing ← timingFromDrmMode m d.profile.protocol.allocation d.tenBit
      return setMode counter head { timing with st2084 := d.tenBit } rng

/-! ### The counter of a message -/

/-- The counter a message carries. -/
def counterOf (content : List UInt8) : UInt16 := (u16At 4 content).getD 0

variable {id sub counter : UInt16}

/-- Anything that opens with the header carries its counter. -/
theorem counterOf_header (rest : List UInt8) : counterOf (header id sub counter ++ rest) = counter := by
  have hdrop : (header id sub counter ++ rest).drop 4 = u16Bytes counter ++ ([0, 0] ++ rest) := by
    unfold header
    rw [List.append_assoc, List.append_assoc, List.append_assoc, ← List.append_assoc,
      List.drop_left' (by simp)]
  rw [counterOf, u16At_eq hdrop]
  rfl

/-- **A message carries the counter it was built with**, whatever is appended to it. -/
theorem counterOf_message (body rest : List UInt8) :
    counterOf (message id sub counter body ++ rest) = counter := by
  unfold message padTo
  rw [List.append_assoc, List.append_assoc]
  exact counterOf_header _

theorem counterOf_message' (body : List UInt8) :
    counterOf (message id sub counter body) = counter := by
  have h : counterOf (message id sub counter body ++ []) = counter := counterOf_message body []
  rwa [List.append_nil] at h

end Vino.Cp.Messages
