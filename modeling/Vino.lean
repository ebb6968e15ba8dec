import Vino.Lib.Bits
import Vino.Lib.Reader
import Vino.Lib.Ring
import Vino.Lib.Run
import Vino.Lib.Effect
import Vino.Lib.Chunks
import Vino.Lib.Guarded
import Vino.Lib.Spans
import Vino.Haar.Transform
import Vino.Haar.Coder
import Vino.Haar.Strip
import Vino.Haar.Decode
import Vino.Haar.Range
import Vino.Haar.Lossless
import Vino.Haar.Lengths
import Vino.Haar.Sums
import Vino.Haar.Records
import Vino.Haar.Framing
import Vino.Haar.Extents
import Vino.Profile
import Vino.Haar.StripMap
import Vino.Scanout
import Vino.Damage
import Vino.Coherence
import Vino.StripCache
import Vino.Capacity
import Vino.Color
import Vino.Evdi.Painter
import Vino.Evdi.Grabpix
import Vino.Evdi.GrabFaults
import Vino.Evdi.Flips
import Vino.Evdi.Tint
import Vino.Evdi.Recolour
import Vino.Evdi.Registry
import Vino.Cp.Seal
import Vino.Cp.Messages
import Vino.Cp.Replies
import Vino.Cp.Decoders
import Vino.Cp.EdidBlocks
import Vino.VideoArm
import Vino.Stream
import Vino.Session.State
import Vino.Session.Control
import Vino.Session.Edid
import Vino.Session.Modes
import Vino.Session.Calls
import Vino.Session.Readiness
import Vino.Session.Quiet
import Vino.Session.Counter
import Vino.Session.Keystream
import Vino.Session.Frames
import Vino.Session.DockWide
import Vino.Session.VideoKeystream
import Vino.Kms.Pacing
import Vino.Lib.Gather
import Vino.Kms.Assembly
import Vino.Kms.Pipe
import Vino.Kms.Mailbox
import Vino.Kms.Schedule
import Vino.Kms.Shadow
import Vino.Kms.Keystream
import Vino.Kms.ControlLink
import Vino.Kms.RingCounter
import Vino.Kms.Sources
import Vino.Kms.Selection
import Vino.Kms.DamageRects
import Vino.Kms.Snapshot
import Vino.Kms.Delivery
import Vino.Kms.Ledger
import Vino.Kms.Timeline
import Vino.Kms.Activation
import Vino.Kms.Multihead
import Vino.Session.Bringup
import Vino.Kms.Exclusion
import Vino.Kms.Loans
import Vino.Kms.Attribution
import Vino.Kms.Presence
import Vino.Kms.Planes
import Vino.Kms.Budget
import Vino.Kms.Commits
import Vino.Kms.Silence
import Vino.Firmware.Package
import Vino.Firmware.Attempts
import Vino.Firmware.Updates
import Vino.Firmware.Descriptors
import Vino.Firmware.Flash
import Vino.FrameBuilders
import Vino.Lib.Batches
import Vino.Carrier
import Vino.Haar.EllaOrder
import Vino.RingContinuity
import Vino.OwedRects
import Vino.ChangeDetection
import Vino.Lib.Calendar
import Vino.Cp.RtcSync
import Vino.Session.Delimited
import Vino.Session.CursorShape
import Vino.Session.Presented
import Vino.Session.Power
import Vino.Cp.Ake
import Vino.Session.Handshake
import Vino.Session.Receiver
import Vino.Evdi.Events
import Vino.Evdi.Client
import Vino.Evdi.Announced
import Vino.Usb.Pipeline
import Vino.Usb.Writes
