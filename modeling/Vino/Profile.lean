import Vino.Haar.Strip

/-!
# Dock Profiles

What distinguishes one dock from another, as data: topology, capabilities, sequencing choices and
quirks.  The handle `Dock` adds what a session decides at run time, the depth of the link and
whether the frames being built open a stream.
-/

namespace Vino.Profile

open Vino.Haar.Transform Vino.Haar.Coder Vino.Haar.Strip

/-- How logical framebuffer updates are delivered to a dock's rotating buffers. -/
structure FrameDelivery where
  keyframePresentations : UInt8
  deltaPresentations : UInt8
  damageFrames : UInt8
  deriving DecidableEq, Repr

/-- How a sink is taken down. -/
inductive BlankBracket where
  | markersHeld
  | blackThenClose
  deriving DecidableEq, Repr

/-- When the bring-up starts the video engine. -/
inductive VideoCommitPoint where
  | afterFinalize
  | beforeConnectorRecords
  deriving DecidableEq, Repr

/-- The framebuffer allocation a dock is told of with a mode. -/
inductive Allocation where
  | fixed (stride rows : UInt16)
  | derived (bytes : UInt32)
  | measured (rows : List (UInt16 × UInt16 × UInt16)) (defaultRows : UInt16)
  deriving DecidableEq, Repr

/-- The dock's pipes and connectors. -/
structure Topology where
  videoOnCtrlPipe : Bool
  connectors : UInt8
  deriving DecidableEq, Repr

/-- What a dock can do. -/
structure Capabilities where
  hdrCapable : Bool
  hwCursor : Bool
  deriving DecidableEq, Repr

/-- Where a dock departs from the others. -/
structure Quirks where
  sharedEdidHandler : Bool
  edidReadyReported : Bool
  deriving DecidableEq, Repr

/-- How a dock is spoken to: its order of steps, its selectors, its records and its codes. -/
structure Protocol where
  perConnectorOnehot : Bool
  videoCommitPoint : VideoCommitPoint
  dockWideModeset : Bool
  clearModeBeforeSet : Bool
  blankBracket : BlankBracket
  connectorSelectorShift : UInt8
  streamIdMask : UInt8
  strm2Marker : UInt8
  bandParityBit : Bool
  stripBlocksX : ℕ
  interlacedBands : Bool
  dockBuffers : UInt8
  frameDelivery : FrameDelivery
  reportsPresence : Bool
  steadyRecordSubBit : UInt8
  carrierFrames : UInt32
  armBurst : Bool
  sinkDownState : UInt8
  postModeSinkStates : UInt8 × UInt8
  preModeSinkState : Option UInt8
  streamMarkerKind : UInt8
  layoutWord : UInt16
  codeTables : CodeTables
  dockWideInit : Bool
  allocation : Allocation
  deriving DecidableEq, Repr

/-- All that is known of a kind of dock. -/
structure DockProfile where
  topology : Topology
  capabilities : Capabilities
  protocol : Protocol
  quirks : Quirks
  deriving DecidableEq, Repr

/-- How a surface is cut up and coded for the dock. -/
def DockProfile.geometry (p : DockProfile) : Geometry :=
  ((Geometry.new p.protocol.stripBlocksX p.protocol.interlacedBands p.protocol.bandParityBit
    p.protocol.connectorSelectorShift p.protocol.streamIdMask p.protocol.dockBuffers).withCoding
      p.protocol.codeTables).withSteadySubBit p.protocol.steadyRecordSubBit

/-- DL-3x00 docks. -/
def profileElla : DockProfile where
  topology := { videoOnCtrlPipe := true, connectors := 2 }
  capabilities := { hdrCapable := false, hwCursor := false }
  protocol := {
    perConnectorOnehot := false
    videoCommitPoint := .afterFinalize
    dockWideModeset := false
    clearModeBeforeSet := false
    blankBracket := .markersHeld
    connectorSelectorShift := 0
    streamIdMask := 0x08
    strm2Marker := 0x10
    bandParityBit := false
    stripBlocksX := 8
    interlacedBands := true
    dockBuffers := 3
    frameDelivery := ⟨3, 1, 3⟩
    reportsPresence := false
    steadyRecordSubBit := 0
    carrierFrames := 1
    armBurst := false
    sinkDownState := 3
    postModeSinkStates := (3, 0)
    preModeSinkState := none
    streamMarkerKind := 0x01
    layoutWord := 0x1800
    codeTables := .narrow
    dockWideInit := true
    allocation := .derived (48 * 1024 * 1024) }
  quirks := { sharedEdidHandler := false, edidReadyReported := false }

/-- DL-6xxx docks. -/
def profileRidge : DockProfile where
  topology := { videoOnCtrlPipe := false, connectors := 2 }
  capabilities := { hdrCapable := false, hwCursor := true }
  protocol := {
    perConnectorOnehot := false
    videoCommitPoint := .afterFinalize
    dockWideModeset := false
    clearModeBeforeSet := false
    blankBracket := .blackThenClose
    connectorSelectorShift := 0
    streamIdMask := 0x08
    strm2Marker := 0x06
    bandParityBit := true
    stripBlocksX := 8
    interlacedBands := false
    dockBuffers := 2
    frameDelivery := ⟨2, 1, 3⟩
    reportsPresence := true
    steadyRecordSubBit := 0x20
    carrierFrames := 0xffffffff
    armBurst := true
    sinkDownState := 1
    postModeSinkStates := (0, 0)
    preModeSinkState := some 3
    streamMarkerKind := 0x03
    layoutWord := 0x4000
    codeTables := .wide
    dockWideInit := false
    allocation := .fixed 0x4000 0x6000 }
  quirks := { sharedEdidHandler := true, edidReadyReported := true }

/-- DL-7400 quad docks. -/
def profileNavarro : DockProfile where
  topology := { videoOnCtrlPipe := false, connectors := 4 }
  capabilities := { hdrCapable := true, hwCursor := true }
  protocol := {
    perConnectorOnehot := true
    videoCommitPoint := .beforeConnectorRecords
    dockWideModeset := true
    clearModeBeforeSet := true
    blankBracket := .markersHeld
    connectorSelectorShift := 3
    streamIdMask := 0x07
    strm2Marker := 0x0c
    bandParityBit := false
    stripBlocksX := 16
    interlacedBands := true
    dockBuffers := 3
    frameDelivery := ⟨3, 1, 4⟩
    reportsPresence := true
    steadyRecordSubBit := 0
    carrierFrames := 5
    armBurst := false
    sinkDownState := 3
    postModeSinkStates := (3, 3)
    preModeSinkState := some 3
    streamMarkerKind := 0x05
    layoutWord := 0x2100
    codeTables := .wide
    dockWideInit := true
    allocation := .measured [(2560, 1440, 0x66db), (640, 480, 0x6800)] 0x6000 }
  quirks := { sharedEdidHandler := false, edidReadyReported := true }

/-- The families a device can name. -/
inductive Family where
  | ella
  | ridge
  | navarro
  | firefly
  deriving DecidableEq, Repr

/-- The profile of a family, `none` for one that is not driven. -/
def forFamily : Family → Option DockProfile
  | .ella => some profileElla
  | .ridge => some profileRidge
  | .navarro => some profileNavarro
  | .firefly => none

/-! ### The handle a session holds -/

/-- The dock a session drives. -/
structure Dock where
  profile : DockProfile
  opening : Bool
  tenBit : Bool
  deriving DecidableEq, Repr

/-- One of the three profiles, at a depth it supports. -/
def Dock.Known (d : Dock) : Prop :=
  (d.profile = profileElla ∨ d.profile = profileRidge ∨ d.profile = profileNavarro) ∧
    (d.tenBit = true → d.profile.capabilities.hdrCapable = true)

namespace Dock

variable (d : Dock)

/-- The geometry at the depth of the link, and with its opening bit while a stream opens. -/
def geometry : Geometry :=
  let g := d.profile.geometry.withDepth (if d.tenBit then .ten else .eight)
  if d.opening then g.opening else g

/-- How many connectors the dock has. -/
def connectors : ℕ := d.profile.topology.connectors.toNat

/-- How many buffers a frame rotates through. -/
def dockBuffers : ℕ := d.profile.protocol.dockBuffers.toNat

/-- How often a keyframe is presented. -/
def keyframePresentations : ℕ := d.profile.protocol.frameDelivery.keyframePresentations.toNat

/-- How often a delta is presented. -/
def deltaPresentations : ℕ := d.profile.protocol.frameDelivery.deltaPresentations.toNat

/-- How many frames a changed strip is sent in. -/
def damageFrames : ℕ := d.profile.protocol.frameDelivery.damageFrames.toNat

/-- The size of a strip. -/
def stripDims : ℕ × ℕ := (d.geometry.stripW, d.geometry.stripH)

/-- How many carrier frames are sent, where there is a limit. -/
def carrierFrames : Option ℕ :=
  let frames := d.profile.protocol.carrierFrames
  if frames ≠ 0xffffffff then some frames.toNat else none

/-- The same dock while its frames open a stream. -/
def toOpening : Dock := { d with opening := true }

/-- The first frame of a stream carries the burst that arms the dock. -/
def armBurst : Bool := d.profile.protocol.armBurst

/-- The dock takes its video on the control pipe. -/
def videoOnCtrlPipe : Bool := d.profile.topology.videoOnCtrlPipe

/-- A mode set takes down every connector of the dock. -/
def dockWideModeset : Bool := d.profile.protocol.dockWideModeset

/-- A sink is taken down by markers that stay open. -/
def blankHoldsBracket : Bool := d.profile.protocol.blankBracket == .markersHeld

end Dock

end Vino.Profile
