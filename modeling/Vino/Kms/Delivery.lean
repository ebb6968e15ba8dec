import Vino.Kms.Selection
import Vino.Kms.Sources
import Vino.Lib.Ring
import Vino.Lib.Run

/-!
# Delivery of a Connector's Frames

The scanout worker builds a pixel source, reads the geometry, selects the strips of the frame from
the keyframe bit, the hash baseline and the debts, takes their bodies from the cache or encodes
them, presents them, and books the result: the debts are paid, the baseline and the bodies are
published, and a keyframe clears its bit.  Colour updates and activations store to the same cells
from other threads, one store at a time, and the dock keeps a ring of buffers.  One connector is
modelled; the kernel's hash function is a parameter.

* `bodies_fresh`: in every run in which a frame that finds the cache usable has the geometry's depth
  and the framebuffer's format of the frame that published it, every body taken from the cache is
  what the strip would encode to,
* `format_serves_stale`: a flip to another format with the same words is served the old bodies.
-/

namespace Vino.Kms.Delivery

open Vino.Haar.Transform (Depth)
open Vino.Haar.Strip (Geometry colourStrip colourStripAt)
open Vino.Haar.Range (greyBlock colourStripBlocks_grey)
open Vino.Color Vino.Profile Vino.Scanout Vino.Damage Vino.Lib.Bits Vino.Lib.Ring Vino.Lib.Run
open Vino.Kms.Shadow (Rotation)
open Vino.Kms.Sources Vino.Kms.Selection

/-! ### The strip cache -/

/-- The content and the bodies of the frame last submitted. -/
structure StripHashState where
  paddedWidth : ℕ
  paddedHeight : ℕ
  hashes : List UInt64
  bodies : List (List UInt8)
  tag : UInt64
  /-- The depth of the geometry the frame that published it was encoded at; the code does not keep
  it. -/
  geometryDepth : Depth
  /-- The depth the words of that frame were read at; the code does not keep it. -/
  sourceDepth : Depth

/-- A source and the depth of the geometry it is encoded at. -/
structure Frame where
  src : PixelSource
  geometryDepth : Depth

/-- A value that changes whenever the transform does. -/
def pipelineTag (xxh64 : List UInt8 → UInt64 → UInt64) : ColorPipeline → UInt64
  | .fused t => xxh64 t.toList 0x9e3779b185ebca87
  | .mixed ctm gamma =>
      let bytes := (List.finRange 9).flatMap fun i => leBytes 4 (ctm i).toUInt32.toNat
      let h := xxh64 bytes 0x9e3779b185ebca87
      match gamma with
      | some t => xxh64 (t.toList.flatMap fun v => leBytes 2 v.toNat) h
      | none => h

/-- What the tag says the bodies depend on besides the pixels. -/
def encodeTag (xxh64 : List UInt8 → UInt64 → UInt64) (color : Option ColorPipeline) (depth : Depth) :
    UInt64 :=
  (color.map (pipelineTag xxh64)).getD 0 ^^^ if depth = .ten then 0x9e3779b97f4a7c15 else 0

/-- The index of a strip of a surface. -/
def stripIndex (g : Geometry) (paddedWidth : ℕ) (q : ℕ × ℕ) : ℕ :=
  q.2 / g.stripH * (paddedWidth / g.stripW) + q.1 / g.stripW

section Model

variable (p : DockProfile) (xxh64 : List UInt8 → UInt64 → UInt64)

namespace Frame

variable (f : Frame)

def identity : Bool := f.src.rotation.identity

def paddedWidth : ℕ := padded p.geometry.stripW f.src.outputW

def paddedHeight : ℕ := padded p.geometry.stripH f.src.outputH

def hashes : List UInt64 := f.src.snapshot.hashes p.geometry xxh64

def tag : UInt64 := encodeTag xxh64 f.src.color f.src.depth

def index (q : ℕ × ℕ) : ℕ := stripIndex p.geometry (f.paddedWidth p) q

/-- What a strip of the frame encodes to. -/
def encode (q : ℕ × ℕ) : Option (List UInt8) := encodeStrip p.geometry f.geometryDepth f.src q

/-- The cache, if it was filled at this size and under this tag. -/
def usable (cache : Option StripHashState) : Option StripHashState :=
  cache.filter fun c => c.paddedWidth = f.paddedWidth p && c.paddedHeight = f.paddedHeight p &&
    c.tag = f.tag xxh64

/-- The kept body of a strip whose content has not moved. -/
def hit (c : StripHashState) (q : ℕ × ℕ) : Option (List UInt8) := do
  let old ← c.hashes[f.index p q]?
  let new ← (f.hashes p xxh64)[f.index p q]?
  let body ← c.bodies[f.index p q]?
  if old = new ∧ body ≠ [] then some body else none

/-- The cached body of a strip; turned frames use none. -/
def reuse (cache : Option StripHashState) (q : ℕ × ℕ) : Option (List UInt8) :=
  (if f.identity then f.usable p xxh64 cache else none).bind fun c => f.hit p xxh64 c q

/-- The body of a strip, cached or encoded. -/
def body (cache : Option StripHashState) (q : ℕ × ℕ) : Option (List UInt8) :=
  match f.reuse p xxh64 cache q with
  | some b => some b
  | none => f.encode p q

/-- The strips of the frame. -/
def coords (full : Bool) (damage : List Clip) : List (ℕ × ℕ) :=
  if full then allStripCoords p.geometry (f.paddedWidth p) (f.paddedHeight p)
  else damageStripCoords p.geometry (f.paddedWidth p) (f.paddedHeight p) damage

/-- The bodies that are carried forward: those of strips whose content has not moved. -/
def carry (cache : Option StripHashState) : List (List UInt8) :=
  match f.usable p xxh64 cache with
  | none => []
  | some c =>
      if c.hashes.length = c.bodies.length ∧ c.hashes.length = (f.hashes p xxh64).length then
        List.zipWith (fun (b : List UInt8) (h : UInt64 × UInt64) => if h.1 = h.2 then b else [])
          c.bodies (c.hashes.zip (f.hashes p xxh64))
      else c.bodies

/-- Place the bodies of the frame's strips. -/
def place (strips : List ((ℕ × ℕ) × List UInt8)) (bodies : List (List UInt8)) :
    List (List UInt8) :=
  strips.foldl (fun bs s => bs.set (f.index p s.1) s.2) bodies

/-- The bodies behind the frame; `allocated` slots are to be had for new ones. -/
def bodies (cache : Option StripHashState) (strips : List ((ℕ × ℕ) × List UInt8))
    (allocated : ℕ) : List (List UInt8) :=
  let carried := f.carry p xxh64 cache
  let slots := if carried.length = (f.hashes p xxh64).length then carried
    else List.replicate (min allocated (f.hashes p xxh64).length) []
  if slots.length = (f.hashes p xxh64).length then f.place p strips slots else slots

/-- Publish the frame's content; a turned frame leaves none. -/
def publish (cache : Option StripHashState) (strips : List ((ℕ × ℕ) × List UInt8))
    (allocated : ℕ) : Option StripHashState :=
  if f.identity then
    some ⟨f.paddedWidth p, f.paddedHeight p, f.hashes p xxh64, f.bodies p xxh64 cache strips
      allocated, f.tag xxh64, f.geometryDepth, f.src.sourceDepth⟩
  else none

end Frame

/-! ### Debts -/

/-- Charge every strip that moved. -/
def charge (damageFrames : ℕ) (old new : List UInt64) (debt : List ℕ) : List ℕ :=
  List.zipWith (fun (k : ℕ) (h : UInt64 × UInt64) => if h.1 = h.2 then k else damageFrames) debt
    (old.zip new)

/-- A baseline from which exactly the owing strips differ. -/
def owedBaseline (debt : List ℕ) (new : List UInt64) : List UInt64 :=
  List.zipWith (fun (k : ℕ) (h : UInt64) => if 0 < k then ~~~h else h) debt new

def payDamageDebt (full : Bool) (debt : List ℕ) : List ℕ :=
  if full then debt.map fun _ => 0 else debt.map fun k => k - 1

def coldTrainingPresentations : ℕ := 8

/-- The presentations of one submission. -/
def framePresentationCount (full coldTraining : Bool) : ℕ :=
  if full && coldTraining && !p.topology.videoOnCtrlPipe then coldTrainingPresentations
  else if full then max p.protocol.frameDelivery.keyframePresentations.toNat 1
  else max p.protocol.frameDelivery.deltaPresentations.toNat 1

/-- The frames a changed strip is carried by. -/
def damageFrames : ℕ := max p.protocol.frameDelivery.damageFrames.toNat 1

end Model

/-! ### States -/

/-- Where the scanout worker stands with a frame. -/
inductive Job where
  /-- `run_pending_scanout` has built the source. -/
  | sourced (src : PixelSource)
  /-- `encode_and_send_haar` has read the geometry. -/
  | sized (f : Frame)
  /-- The frame has passed the gates, and the keyframe bit is read. -/
  | checked (f : Frame) (owes : Bool)
  | selected (f : Frame) (full : Bool) (damage : List Clip)
  /-- The strips are encoded; some presentations are made and some are left. -/
  | sending (f : Frame) (full : Bool) (strips : List ((ℕ × ℕ) × List UInt8)) (sent left : ℕ)
  | paid (f : Frame) (full : Bool) (strips : List ((ℕ × ℕ) × List UInt8))
  | published (full : Bool)

/-- Where `update_color` stands: which of its stores is the last. -/
inductive Recolour where
  | stored
  | dropped
  | forgotten

/-- Where an activation stands: which of its stores is the last. -/
inductive Activation where
  | active
  | owed
  | dropped
  /-- All stores are made; black carriers may be presented. -/
  | training

/-- A body that was taken from the cache. -/
structure Served where
  frame : Frame
  coord : ℕ × ℕ
  body : List UInt8

structure State where
  color : Option ColorPipeline
  /-- The depth of `last_timing`. -/
  depth : Depth
  /-- The depth of the framebuffer last committed. -/
  connectorDepth : Depth
  /-- The depth the dock is programmed at, as long as `modeset_active` is not zero. -/
  active : Option Depth
  /-- `modeset_active` is the requested generation. -/
  lit : Bool
  stripHashes : Option StripHashState
  dirtyTtl : Option (List ℕ)
  keyframePending : Bool
  recolour : Option Recolour
  activation : Option Activation
  job : Option Job
  /-- The presentations so far. -/
  seq : ℕ
  /-- The buffers of the dock, strip by strip. -/
  ring : ℕ → ℕ × ℕ → List UInt8
  /-- The bodies taken from the cache. -/
  served : List Served

def State.initial (ring : ℕ → ℕ × ℕ → List UInt8) : State where
  color := none
  depth := .eight
  connectorDepth := .eight
  active := none
  lit := false
  stripHashes := none
  dirtyTtl := none
  keyframePending := false
  recolour := none
  activation := none
  job := none
  seq := 0
  ring := ring
  served := []

inductive Event where
  /-- A commit of a framebuffer of this depth. -/
  | setConnectorDepth (depth : Depth)
  /-- `atomic_enable`; `same` if the generation is the one in force. -/
  | enable (depth : Depth) (same : Bool)
  /-- `adopt_programmed_mode`. -/
  | adopt
  /-- `modeset_active` is cleared. -/
  | park
  /-- `atomic_disable`. -/
  | disable
  /-- `update_color` with another transform, at its first store. -/
  | updateColor (color : Option ColorPipeline)
  /-- The next store of `update_color`. -/
  | recolourStep
  /-- An activation at the given depth, at its store of `modeset_active`; `current` if the
  generation is still the requested one. -/
  | activate (depth : Depth) (current : Bool)
  /-- The next store of the activation, or its end. -/
  | activationStep
  /-- A presentation that no frame of the worker makes: a carrier, or the black of a take-down. -/
  | carrier (strips : ℕ × ℕ → Option (List UInt8))
  /-- `select_scanout` raises the keyframe bit for the frame it takes, in the training window or for
  a repaint that has to be a keyframe. -/
  | oweKeyframe
  | start (snapshot : Snapshot) (rotation : Rotation)
  | readGeometry
  | check
  | select
  | encode (training : Bool)
  /-- A presentation that goes out. -/
  | present
  /-- A presentation that fails behind some of its strips. -/
  | fail (delivered : List (ℕ × ℕ))
  | pay
  | publish (allocated : ℕ)
  | clear
  /-- The frame is superseded, or fails outside a presentation. -/
  | abandon

section Step

variable (p : DockProfile) (xxh64 : List UInt8 → UInt64 → UInt64)

/-- The dock's buffers behind a presentation of these strips. -/
def State.presented (s : State) (strips : ℕ × ℕ → Option (List UInt8)) : ℕ → ℕ × ℕ → List UInt8 :=
  write p.protocol.dockBuffers.toNat s.ring s.seq strips

/-- The debts a selection starts from. -/
def State.debts (s : State) (n : ℕ) : List ℕ :=
  match s.dirtyTtl with
  | some t => if t.length = n then t else List.replicate n 0
  | none => List.replicate n 0

/-- The baseline a frame is compared with, if it is compared with one. -/
def State.baseline (s : State) (f : Frame) (owes : Bool) : Option StripHashState :=
  if owes || !f.identity then none
  else s.stripHashes.filter fun c =>
    c.paddedWidth = f.paddedWidth p && c.paddedHeight = f.paddedHeight p

/-- Select the strips of a frame: all of them, or those that owe a transmission. -/
def State.select (s : State) (f : Frame) (owes : Bool) : State :=
  match s.baseline p f owes with
  | none => { s with job := some (.selected f true []) }
  | some c =>
      let hashes := f.hashes p xxh64
      let debt := charge (damageFrames p) c.hashes hashes (s.debts hashes.length)
      match changedStripRects p.geometry (f.paddedWidth p) (f.paddedHeight p)
          (owedBaseline debt hashes) hashes with
      | none | some [] => { s with dirtyTtl := some debt, job := none }
      | some damage => { s with dirtyTtl := some debt, job := some (.selected f false damage) }

/-- Look the strips up and encode those that are missing. -/
def State.encode (s : State) (f : Frame) (full : Bool) (damage : List Clip) (training : Bool) :
    State :=
  let coords := f.coords p full damage
  let served := coords.filterMap fun q =>
    (f.reuse p xxh64 s.stripHashes q).map fun b => ⟨f, q, b⟩
  match coords.mapM (f.body p xxh64 s.stripHashes) with
  | none | some [] => { s with served := s.served ++ served, job := none }
  | some bodies =>
      { s with
        served := s.served ++ served
        job := some (.sending f full (coords.zip bodies) 0
          (framePresentationCount p full training)) }

def step (s : State) : Event → State
  | .setConnectorDepth depth => { s with connectorDepth := depth }
  | .enable depth same => { s with depth := depth, lit := s.lit && same && depth = s.depth }
  | .adopt => if s.active = some s.depth then { s with lit := true } else s
  | .park => { s with active := none, lit := false }
  | .disable =>
      { s with active := none, lit := false, stripHashes := none, dirtyTtl := none }
  | .updateColor color =>
      match s.recolour with
      | none => { s with color := color, recolour := some .stored }
      | some _ => s
  | .recolourStep =>
      match s.recolour with
      | some .stored => { s with stripHashes := none, recolour := some .dropped }
      | some .dropped => { s with dirtyTtl := none, recolour := some .forgotten }
      | some .forgotten => { s with keyframePending := true, recolour := none }
      | none => s
  | .activate depth current =>
      match s.activation with
      | none => { s with
          active := some depth, lit := current && depth = s.depth, activation := some .active }
      | some _ => s
  | .activationStep =>
      match s.activation with
      | some .active => { s with keyframePending := true, activation := some .owed }
      | some .owed => { s with stripHashes := none, activation := some .dropped }
      | some .dropped => { s with dirtyTtl := none, activation := some .training }
      | some .training => { s with activation := none }
      | none => s
  | .carrier strips =>
      match s.activation, s.active with
      | some .training, _ | _, none => { s with ring := s.presented p strips, seq := s.seq + 1 }
      | _, _ => s
  | .oweKeyframe =>
      match s.job with
      | none => { s with keyframePending := true }
      | some _ => s
  | .start snapshot rotation =>
      match s.job with
      | none => { s with
          job := some (.sourced ⟨snapshot, rotation, s.color, s.depth, s.connectorDepth⟩) }
      | some _ => s
  | .readGeometry =>
      match s.job with
      | some (.sourced src) => { s with job := some (.sized ⟨src, s.depth⟩) }
      | _ => s
  | .check =>
      match s.job with
      | some (.sized f) =>
          if s.lit then { s with job := some (.checked f s.keyframePending) }
          else { s with job := none }
      | _ => s
  | .select =>
      match s.job with
      | some (.checked f owes) => s.select p xxh64 f owes
      | _ => s
  | .encode training =>
      match s.job with
      | some (.selected f full damage) => s.encode p xxh64 f full damage training
      | _ => s
  | .present =>
      match s.job with
      | some (.sending f full strips sent (left + 1)) =>
          { s with
            ring := s.presented p fun q => strips.lookup q
            seq := s.seq + 1
            job := some (.sending f full strips (sent + 1) left) }
      | _ => s
  | .fail delivered =>
      match s.job with
      | some (.sending _ _ strips _ (_ + 1)) =>
          { s with
            ring := s.presented p fun q => if q ∈ delivered then strips.lookup q else none
            job := none }
      | _ => s
  | .pay =>
      match s.job with
      | some (.sending f full strips _ 0) =>
          { s with dirtyTtl := s.dirtyTtl.map (payDamageDebt full)
                   job := some (.paid f full strips) }
      | _ => s
  | .publish allocated =>
      match s.job with
      | some (.paid f full strips) =>
          { s with stripHashes := f.publish p xxh64 s.stripHashes strips allocated
                   job := some (.published full) }
      | _ => s
  | .clear =>
      match s.job with
      | some (.published full) =>
          { s with keyframePending := s.keyframePending && !full, job := none }
      | _ => s
  | .abandon =>
      match s.job with
      | some (.sending _ _ _ _ 0) | some (.paid ..) | some (.published _) => s
      | _ => { s with job := none }

end Step

/-! ### What the cache holds -/

section Cache

/-- The tags tell different settings apart. -/
def TagsDistinct (xxh64 : List UInt8 → UInt64 → UInt64) (K : List (Option ColorPipeline)) : Prop :=
  ∀ a ∈ K, ∀ b ∈ K, ∀ d e, encodeTag xxh64 a d = encodeTag xxh64 b e → a = b ∧ d = e

variable {p : DockProfile} {xxh64 : List UInt8 → UInt64 → UInt64} {S : List Snapshot}
  {K : List (Option ColorPipeline)} {f r : Frame} {c : StripHashState} {q : ℕ × ℕ}
  {b : List UInt8}

/-- The source shows one of the snapshots under one of the transforms. -/
def Known (S : List Snapshot) (K : List (Option ColorPipeline)) (src : PixelSource) : Prop :=
  src.snapshot ∈ S ∧ src.color ∈ K

theorem outputW_of_identity (hf : f.identity = true) : f.src.outputW = f.src.snapshot.w := by
  have hupright : f.src.rotation = upright := Rotation.eq_of_identity hf (by decide)
  rw [PixelSource.outputW, hupright]
  rfl

theorem outputH_of_identity (hf : f.identity = true) : f.src.outputH = f.src.snapshot.h := by
  have hupright : f.src.rotation = upright := Rotation.eq_of_identity hf (by decide)
  rw [PixelSource.outputH, hupright]
  rfl

/-- The strips of a surface, by their indices. -/
theorem index_of_mem {g : Geometry} {pw ph : ℕ} (hw : g.stripW ∣ pw) (hh : g.stripH ∣ ph)
    (hq : q ∈ allStripCoords g pw ph) : ∃ tx < pw / g.stripW, ∃ ty < ph / g.stripH,
      q = (tx * g.stripW, ty * g.stripH) ∧ stripIndex g pw q = ty * (pw / g.stripW) + tx := by
  obtain ⟨tx, htx, ty, hty, rfl⟩ := (mem_allStripCoords hw hh).1 hq
  refine ⟨tx, htx, ty, hty, rfl, ?_⟩
  simp only [stripIndex, Nat.mul_div_cancel _ (stripW_pos g), Nat.mul_div_cancel _ (stripH_pos g)]

theorem index_inj {g : Geometry} {pw ph : ℕ} (hw : g.stripW ∣ pw) (hh : g.stripH ∣ ph)
    {q q' : ℕ × ℕ} (hq : q ∈ allStripCoords g pw ph) (hq' : q' ∈ allStripCoords g pw ph)
    (heq : stripIndex g pw q = stripIndex g pw q') : q = q' := by
  obtain ⟨tx, htx, ty, hty, rfl, hi⟩ := index_of_mem hw hh hq
  obtain ⟨tx', htx', ty', hty', rfl, hi'⟩ := index_of_mem hw hh hq'
  rw [hi, hi'] at heq
  have hpos : 0 < pw / g.stripW := by omega
  have hx : tx = tx' := by
    have h := congrArg (· % (pw / g.stripW)) heq
    simpa [Nat.mod_eq_of_lt htx, Nat.mod_eq_of_lt htx'] using h
  have hy : ty = ty' := by
    subst hx
    exact Nat.eq_of_mul_eq_mul_right hpos (by omega)
  rw [hx, hy]

/-- The hash of a strip, by its index. -/
theorem getElem?_hashes (hf : f.identity = true)
    (hq : q ∈ allStripCoords p.geometry (f.paddedWidth p) (f.paddedHeight p)) :
    (f.hashes p xxh64)[f.index p q]? =
      some (f.src.snapshot.stripHash p.geometry xxh64 q.1 q.2) := by
  obtain ⟨tx, htx, ty, hty, rfl, hi⟩ := index_of_mem (dvd_padded _ _) (dvd_padded _ _) hq
  unfold Frame.index Frame.paddedWidth
  rw [hi]
  rw [outputW_of_identity hf] at htx ⊢
  rw [outputH_of_identity hf] at hty
  exact f.src.snapshot.getElem?_hashes p.geometry xxh64 htx hty

theorem length_hashes (hf : f.identity = true) : (f.hashes p xxh64).length =
    f.paddedHeight p / p.geometry.stripH * (f.paddedWidth p / p.geometry.stripW) := by
  unfold Frame.paddedWidth Frame.paddedHeight
  rw [outputW_of_identity hf, outputH_of_identity hf]
  exact f.src.snapshot.length_hashes p.geometry xxh64

/-- The body of the strip comes from a frame that shows what the baseline shows there, under the
cache's tag and the settings it was published under. -/
structure Encoded (p : DockProfile) (xxh64 : List UInt8 → UInt64 → UInt64) (S : List Snapshot)
    (K : List (Option ColorPipeline)) (c : StripHashState) (q : ℕ × ℕ) (b : List UInt8)
    (r : Frame) : Prop where
  known : Known S K r.src
  identity : r.identity = true
  width : r.paddedWidth p = c.paddedWidth
  height : r.paddedHeight p = c.paddedHeight
  tag : r.tag xxh64 = c.tag
  geometryDepth : r.geometryDepth = c.geometryDepth
  sourceDepth : r.src.sourceDepth = c.sourceDepth
  hash : (r.hashes p xxh64)[r.index p q]? = c.hashes[r.index p q]?
  body : r.encode p q = some b

/-- Every body the cache would serve is the encoding of what its hash stands for. -/
structure Valid (p : DockProfile) (xxh64 : List UInt8 → UInt64 → UInt64) (S : List Snapshot)
    (K : List (Option ColorPipeline)) (c : StripHashState) : Prop where
  width : p.geometry.stripW ∣ c.paddedWidth
  height : p.geometry.stripH ∣ c.paddedHeight
  length : c.hashes.length =
    c.paddedHeight / p.geometry.stripH * (c.paddedWidth / p.geometry.stripW)
  body : ∀ q ∈ allStripCoords p.geometry c.paddedWidth c.paddedHeight, ∀ b,
    c.bodies[stripIndex p.geometry c.paddedWidth q]? = some b → b ≠ [] →
      ∃ r, Encoded p xxh64 S K c q b r

/-- **The content and the settings determine the body.** -/
theorem Encoded.encode_eq (hS : HashesDistinct p.geometry xxh64 S) (hK : TagsDistinct xxh64 K)
    (hr : Encoded p xxh64 S K c q b r) (hf : f.identity = true) (hknown : Known S K f.src)
    (hwidth : c.paddedWidth = f.paddedWidth p) (hheight : c.paddedHeight = f.paddedHeight p)
    (htag : c.tag = f.tag xxh64) (hgeometry : c.geometryDepth = f.geometryDepth)
    (hsource : c.sourceDepth = f.src.sourceDepth)
    (hq : q ∈ allStripCoords p.geometry (f.paddedWidth p) (f.paddedHeight p))
    (hhash : c.hashes[f.index p q]? = (f.hashes p xxh64)[f.index p q]?) :
    f.encode p q = some b := by
  have hindex : r.index p q = f.index p q := by
    rw [Frame.index, Frame.index, hr.width, hwidth]
  have hq' : q ∈ allStripCoords p.geometry (r.paddedWidth p) (r.paddedHeight p) := by
    rwa [hr.width, hr.height, hwidth, hheight]
  have hstrip : r.src.snapshot.stripHash p.geometry xxh64 q.1 q.2 =
      f.src.snapshot.stripHash p.geometry xxh64 q.1 q.2 := by
    have h := hr.hash
    rw [hindex, hhash, ← hindex, getElem?_hashes hr.identity hq', hindex,
      getElem?_hashes hf hq] at h
    exact Option.some.inj h
  obtain ⟨hcolor, hdepth⟩ := hK _ hr.known.2 _ hknown.2 _ _ (hr.tag.trans htag)
  rw [← hr.body, Frame.encode, Frame.encode, ← hgeometry, ← hr.geometryDepth]
  exact (encodeStrip_congr hr.identity hf hcolor hdepth (hr.sourceDepth.trans hsource)
    (hS _ hr.known.1 _ hknown.1 _ _ hstrip)).symm

theorem usable_eq_some {cache : Option StripHashState} :
    f.usable p xxh64 cache = some c ↔ cache = some c ∧ c.paddedWidth = f.paddedWidth p ∧
      c.paddedHeight = f.paddedHeight p ∧ c.tag = f.tag xxh64 := by
  simp [Frame.usable, Option.filter_eq_some_iff, and_assoc]

/-- The cache, where the frame would use it, was published under the frame's settings. -/
def Matches (p : DockProfile) (xxh64 : List UInt8 → UInt64 → UInt64) (cache : Option StripHashState)
    (f : Frame) : Prop :=
  ∀ c, f.usable p xxh64 cache = some c →
    c.geometryDepth = f.geometryDepth ∧ c.sourceDepth = f.src.sourceDepth

/-- **A cached body is what the strip encodes to.** -/
theorem reuse_eq (hS : HashesDistinct p.geometry xxh64 S) (hK : TagsDistinct xxh64 K)
    {cache : Option StripHashState} (hcache : ∀ c, cache = some c → Valid p xxh64 S K c)
    (hmatch : Matches p xxh64 cache f) (hknown : Known S K f.src)
    (hq : q ∈ allStripCoords p.geometry (f.paddedWidth p) (f.paddedHeight p))
    (hb : f.reuse p xxh64 cache q = some b) : f.encode p q = some b := by
  obtain ⟨c, huse, hhit⟩ := Option.bind_eq_some_iff.1 hb
  simp only [Frame.hit, Option.bind_eq_bind, Option.bind_eq_some_iff] at hhit
  obtain ⟨old, hold, new, hnew, body, hbody, hsome⟩ := hhit
  split_ifs at huse with hid
  split_ifs at hsome with hsame
  obtain rfl := Option.some.inj hsome
  obtain ⟨hsome, hwidth, hheight, htag⟩ := usable_eq_some.1 huse
  obtain ⟨hgeometry, hsource⟩ := hmatch c huse
  have hindex : stripIndex p.geometry c.paddedWidth q = f.index p q := by
    rw [Frame.index, hwidth]
  obtain ⟨r, hr⟩ := (hcache c hsome).body q (by rwa [hwidth, hheight]) body
    (by rw [hindex, hbody]) hsame.2
  exact hr.encode_eq hS hK hid hknown hwidth hheight htag hgeometry hsource hq
    (by rw [hold, hnew, hsame.1])

/-- Nothing is taken from a cache that is not there. -/
theorem body_none (f : Frame) (q : ℕ × ℕ) : f.body p xxh64 none q = f.encode p q := by
  have hreuse : f.reuse p xxh64 none q = none := by
    simp [Frame.reuse, Frame.usable]
  rw [Frame.body, hreuse]

/-- A carried body is one of the cache, of a strip that has not moved. -/
theorem carry_eq_some {cache : Option StripHashState} (hf : f.identity = true)
    (hcache : ∀ c, cache = some c → Valid p xxh64 S K c)
    (hlength : (f.carry p xxh64 cache).length = (f.hashes p xxh64).length) {i : ℕ}
    (hb : (f.carry p xxh64 cache)[i]? = some b) (hne : b ≠ []) :
    ∃ c, f.usable p xxh64 cache = some c ∧ c.bodies[i]? = some b ∧
      c.hashes[i]? = (f.hashes p xxh64)[i]? := by
  unfold Frame.carry at hb hlength
  split at hb
  case h_1 => simp at hb
  case h_2 c huse =>
    obtain ⟨hsome, hwidth, hheight, -⟩ := usable_eq_some.1 huse
    have hhashes : c.hashes.length = (f.hashes p xxh64).length := by
      rw [(hcache c hsome).length, length_hashes hf, hwidth, hheight]
    simp only [huse] at hlength
    split_ifs at hb hlength with hsame
    · rw [List.getElem?_zipWith_eq_some] at hb
      obtain ⟨body, h, hbody, hh, hb⟩ := hb
      obtain ⟨hold, hnew⟩ := List.getElem?_zip_eq_some.1 hh
      split_ifs at hb with heq
      · exact ⟨c, huse, by rw [hbody, hb], by rw [hold, hnew, heq]⟩
      · exact absurd hb.symm hne
    · exact absurd ⟨hhashes.trans hlength.symm, hhashes⟩ hsame

/-- A placed body is one of the frame, or one that was there. -/
theorem place_eq_some : ∀ (strips : List ((ℕ × ℕ) × List UInt8)) {bodies : List (List UInt8)}
    {i : ℕ}, (f.place p strips bodies)[i]? = some b →
      bodies[i]? = some b ∨ ∃ x ∈ strips, f.index p x.1 = i ∧ x.2 = b
  | [], _, _, hb => .inl hb
  | x :: strips, bodies, i, hb => by
      rcases place_eq_some strips hb with hset | ⟨y, hy, hi⟩
      · rw [List.getElem?_set] at hset
        split_ifs at hset with heq
        · exact .inr ⟨x, List.mem_cons_self, heq, Option.some.inj hset⟩
        · exact .inl hset
      · exact .inr ⟨y, List.mem_cons_of_mem x hy, hi⟩

/-- A body behind the frame is carried or one of the frame. -/
theorem bodies_eq_some {cache : Option StripHashState} {strips : List ((ℕ × ℕ) × List UInt8)}
    {allocated i : ℕ} (hb : (f.bodies p xxh64 cache strips allocated)[i]? = some b) (hne : b ≠ []) :
    ((f.carry p xxh64 cache).length = (f.hashes p xxh64).length ∧
      (f.carry p xxh64 cache)[i]? = some b) ∨ ∃ x ∈ strips, f.index p x.1 = i ∧ x.2 = b := by
  have hslots : ∀ {slots : List (List UInt8)}, slots = (if (f.carry p xxh64 cache).length =
      (f.hashes p xxh64).length then f.carry p xxh64 cache
        else List.replicate (min allocated (f.hashes p xxh64).length) []) → slots[i]? = some b →
      (f.carry p xxh64 cache).length = (f.hashes p xxh64).length ∧
        (f.carry p xxh64 cache)[i]? = some b := by
    intro slots heq hi
    rw [heq] at hi
    split_ifs at hi with hlength
    · exact ⟨hlength, hi⟩
    · rw [List.getElem?_replicate] at hi
      split_ifs at hi
      exact absurd (Option.some.inj hi).symm hne
  unfold Frame.bodies at hb
  dsimp only at hb
  split_ifs at hb with hlength hfits
  · rcases place_eq_some strips hb with hi | hx
    · exact .inl ⟨hlength, hi⟩
    · exact .inr hx
  · rcases place_eq_some strips hb with hi | hx
    · exact .inl (hslots (by rw [if_neg hlength]) hi)
    · exact .inr hx
  · exact .inl (hslots (by rw [if_neg hlength]) hb)

/-- **Publishing keeps the cache valid.** -/
theorem valid_publish {cache : Option StripHashState} {strips : List ((ℕ × ℕ) × List UInt8)}
    {allocated : ℕ} {c' : StripHashState} (hcache : ∀ c, cache = some c → Valid p xxh64 S K c)
    (hmatch : Matches p xxh64 cache f) (hknown : Known S K f.src)
    (hstrips : ∀ x ∈ strips, x.1 ∈ allStripCoords p.geometry (f.paddedWidth p) (f.paddedHeight p) ∧
      f.encode p x.1 = some x.2)
    (hpublish : f.publish p xxh64 cache strips allocated = some c') : Valid p xxh64 S K c' := by
  unfold Frame.publish at hpublish
  split_ifs at hpublish with hf
  obtain rfl := Option.some.inj hpublish
  have hw : p.geometry.stripW ∣ f.paddedWidth p := dvd_padded _ _
  have hh : p.geometry.stripH ∣ f.paddedHeight p := dvd_padded _ _
  refine ⟨hw, hh, length_hashes hf, fun q hq b hb hne => ?_⟩
  rcases bodies_eq_some hb hne with ⟨hlength, hcarry⟩ | ⟨x, hx, hindex, rfl⟩
  · obtain ⟨c, huse, hbody, hhash⟩ := carry_eq_some hf hcache hlength hcarry hne
    obtain ⟨hsome, hwidth, hheight, htag⟩ := usable_eq_some.1 huse
    obtain ⟨hgeometry, hsource⟩ := hmatch c huse
    obtain ⟨r, hr⟩ := (hcache c hsome).body q (by rwa [hwidth, hheight]) b (by rwa [hwidth]) hne
    have hrindex : r.index p q = f.index p q := by rw [Frame.index, Frame.index, hr.width, hwidth]
    refine ⟨r, hr.known, hr.identity, hr.width.trans hwidth, hr.height.trans hheight,
      hr.tag.trans htag, hr.geometryDepth.trans hgeometry, hr.sourceDepth.trans hsource, ?_, hr.body⟩
    rw [hr.hash, hrindex]
    exact hhash
  · obtain ⟨hmem, hencode⟩ := hstrips x hx
    obtain rfl : x.1 = q := index_inj hw hh hmem hq hindex
    exact ⟨f, hknown, hf, rfl, rfl, rfl, rfl, rfl, rfl, hencode⟩

end Cache

/-! ### Runs -/

/-- The snapshot of a step. -/
def Event.snapshot : Event → Option Snapshot
  | .start snapshot _ => some snapshot
  | _ => none

/-- The transform of a step. -/
def Event.color : Event → Option (Option ColorPipeline)
  | .updateColor color => some color
  | _ => none

def snapshots (es : List Event) : List Snapshot := es.filterMap Event.snapshot

/-- The transforms that come to be in force. -/
def colors (es : List Event) : List (Option ColorPipeline) := none :: es.filterMap Event.color

/-- The step brings in nothing but these snapshots and transforms. -/
def Event.Within (S : List Snapshot) (K : List (Option ColorPipeline)) (e : Event) : Prop :=
  (∀ snapshot, e.snapshot = some snapshot → snapshot ∈ S) ∧ ∀ color, e.color = some color → color ∈ K

theorem within_of_mem {es : List Event} {e : Event} (he : e ∈ es) :
    e.Within (snapshots es) (colors es) :=
  ⟨fun _ h => List.mem_filterMap.2 ⟨e, he, h⟩,
    fun _ h => List.mem_cons_of_mem _ (List.mem_filterMap.2 ⟨e, he, h⟩)⟩

section Runs

variable {p : DockProfile} {xxh64 : List UInt8 → UInt64 → UInt64} {S : List Snapshot}
  {K : List (Option ColorPipeline)} {s s' : State}

/-- A frame that uses the cache has the settings the cache was published under. -/
def Matched (p : DockProfile) (xxh64 : List UInt8 → UInt64 → UInt64) (s : State) : Event → Prop
  | .encode _ => ∀ f full damage, s.job = some (.selected f full damage) →
      Matches p xxh64 s.stripHashes f
  | _ => True

/-- The strips of the frame, each with what it encodes to. -/
def Fresh (p : DockProfile) (f : Frame) (strips : List ((ℕ × ℕ) × List UInt8)) : Prop :=
  ∀ x ∈ strips, x.1 ∈ allStripCoords p.geometry (f.paddedWidth p) (f.paddedHeight p) ∧
    f.encode p x.1 = some x.2

/-- The worker's frame is made of known parts. -/
def JobSound (p : DockProfile) (xxh64 : List UInt8 → UInt64 → UInt64) (S : List Snapshot)
    (K : List (Option ColorPipeline)) (cache : Option StripHashState) : Option Job → Prop
  | some (.sourced src) => Known S K src
  | some (.sized f) | some (.checked f _) | some (.selected f _ _) => Known S K f.src
  | some (.sending f _ strips _ _) | some (.paid f _ strips) =>
      Known S K f.src ∧ Matches p xxh64 cache f ∧ Fresh p f strips
  | some (.published _) | none => True

structure Sound (p : DockProfile) (xxh64 : List UInt8 → UInt64 → UInt64) (S : List Snapshot)
    (K : List (Option ColorPipeline)) (s : State) : Prop where
  color : s.color ∈ K
  cache : ∀ c, s.stripHashes = some c → Valid p xxh64 S K c
  job : JobSound p xxh64 S K s.stripHashes s.job
  served : ∀ e ∈ s.served, e.frame.encode p e.coord = some e.body

theorem matches_none (f : Frame) : Matches p xxh64 none f := fun _ h => by cases h

/-- A frame stays sound when the cache is dropped. -/
theorem JobSound.drop {cache : Option StripHashState} {job : Option Job}
    (hjob : JobSound p xxh64 S K cache job) : JobSound p xxh64 S K none job := by
  cases job with
  | none => trivial
  | some job =>
      cases job with
      | sending f full strips sent left => exact ⟨hjob.1, matches_none f, hjob.2.2⟩
      | paid f full strips => exact ⟨hjob.1, matches_none f, hjob.2.2⟩
      | sourced src => exact hjob
      | sized f => exact hjob
      | checked f owes => exact hjob
      | selected f full damage => exact hjob
      | published full => trivial

/-- A step that publishes nothing and takes nothing from the cache. -/
theorem Sound.keep (hs : Sound p xxh64 S K s) (hcolor : s'.color ∈ K)
    (hcache : s'.stripHashes = s.stripHashes ∨ s'.stripHashes = none)
    (hjob : JobSound p xxh64 S K s.stripHashes s'.job) (hserved : s'.served = s.served) :
    Sound p xxh64 S K s' := by
  refine ⟨hcolor, fun c hc => ?_, ?_, by rw [hserved]; exact hs.served⟩
  · rcases hcache with h | h
    · exact hs.cache c (h ▸ hc)
    · rw [h] at hc
      cases hc
  · rcases hcache with h | h <;> rw [h]
    · exact hjob
    · exact hjob.drop

theorem mem_zip_of_mapM {α β : Type} {F : α → Option β} : ∀ {l : List α} {bs : List β},
    l.mapM F = some bs → ∀ x ∈ l.zip bs, x.1 ∈ l ∧ F x.1 = some x.2
  | [], bs, _, x, hx => by simp at hx
  | a :: l, bs, hl, x, hx => by
      rw [List.mapM_cons] at hl
      obtain ⟨b, hb, hrest⟩ := Option.bind_eq_some_iff.1 hl
      obtain ⟨bs', hbs', hcons⟩ := Option.bind_eq_some_iff.1 hrest
      obtain rfl : b :: bs' = bs := by simpa using hcons
      rcases List.mem_cons.1 hx with rfl | hx
      · exact ⟨List.mem_cons_self, hb⟩
      · obtain ⟨hmem, hx⟩ := mem_zip_of_mapM hbs' x hx
        exact ⟨List.mem_cons_of_mem a hmem, hx⟩

theorem coords_subset (f : Frame) (full : Bool) (damage : List Clip) {q : ℕ × ℕ}
    (hq : q ∈ f.coords p full damage) :
    q ∈ allStripCoords p.geometry (f.paddedWidth p) (f.paddedHeight p) := by
  unfold Frame.coords at hq
  split_ifs at hq
  · exact hq
  · exact damageStripCoords_subset hq

/-- The body of a strip is what it encodes to, cached or not. -/
theorem body_eq (hS : HashesDistinct p.geometry xxh64 S) (hK : TagsDistinct xxh64 K) {f : Frame}
    {cache : Option StripHashState} (hcache : ∀ c, cache = some c → Valid p xxh64 S K c)
    (hmatch : Matches p xxh64 cache f) (hknown : Known S K f.src) {q : ℕ × ℕ}
    (hq : q ∈ allStripCoords p.geometry (f.paddedWidth p) (f.paddedHeight p)) :
    f.body p xxh64 cache q = f.encode p q := by
  unfold Frame.body
  split
  case h_1 b hb => exact (reuse_eq hS hK hcache hmatch hknown hq hb).symm
  case h_2 => rfl

/-- **Taking bodies from the cache.** -/
theorem sound_encode (hS : HashesDistinct p.geometry xxh64 S) (hK : TagsDistinct xxh64 K)
    (hs : Sound p xxh64 S K s) {f : Frame} {full training : Bool} {damage : List Clip}
    (hknown : Known S K f.src) (hmatch : Matches p xxh64 s.stripHashes f) :
    Sound p xxh64 S K (s.encode p xxh64 f full damage training) := by
  have hserved : ∀ e ∈ s.served ++ (f.coords p full damage).filterMap (fun q =>
      (f.reuse p xxh64 s.stripHashes q).map fun b => (⟨f, q, b⟩ : Served)),
      e.frame.encode p e.coord = some e.body := by
    intro e he
    rcases List.mem_append.1 he with he | he
    · exact hs.served e he
    · obtain ⟨q, hq, hmap⟩ := List.mem_filterMap.1 he
      obtain ⟨b, hb, rfl⟩ := Option.map_eq_some_iff.1 hmap
      exact reuse_eq hS hK hs.cache hmatch hknown (coords_subset f full damage hq) hb
  unfold State.encode
  dsimp only
  split
  case h_1 => exact ⟨hs.color, hs.cache, trivial, hserved⟩
  case h_2 => exact ⟨hs.color, hs.cache, trivial, hserved⟩
  case h_3 bodies hbodies =>
    refine ⟨hs.color, hs.cache, ⟨hknown, hmatch, fun x hx => ?_⟩, hserved⟩
    obtain ⟨hmem, hbody⟩ := mem_zip_of_mapM hbodies x hx
    have hall := coords_subset f full damage hmem
    exact ⟨hall, by rw [← body_eq hS hK hs.cache hmatch hknown hall, hbody]⟩

theorem sound_select (hs : Sound p xxh64 S K s) {f : Frame} {owes : Bool}
    (hknown : Known S K f.src) : Sound p xxh64 S K (s.select p xxh64 f owes) := by
  unfold State.select
  split
  case h_1 => exact hs.keep hs.color (.inl rfl) hknown rfl
  case h_2 c hc =>
    dsimp only
    split
    case h_1 => exact hs.keep hs.color (.inl rfl) trivial rfl
    case h_2 => exact hs.keep hs.color (.inl rfl) trivial rfl
    case h_3 => exact hs.keep hs.color (.inl rfl) hknown rfl

/-- **One step** keeps the cache sound. -/
theorem sound_step (hS : HashesDistinct p.geometry xxh64 S) (hK : TagsDistinct xxh64 K) (s : State)
    (e : Event) (hs : Sound p xxh64 S K s) (he : Matched p xxh64 s e ∧ e.Within S K) :
    Sound p xxh64 S K (step p xxh64 s e) := by
  obtain ⟨hmatched, hsnapshot, hcolor⟩ := he
  have hjob := hs.job
  cases e with
  | setConnectorDepth depth => exact hs.keep hs.color (.inl rfl) hs.job rfl
  | enable depth same => exact hs.keep hs.color (.inl rfl) hs.job rfl
  | adopt =>
      simp only [step]
      split_ifs
      · exact hs.keep hs.color (.inl rfl) hs.job rfl
      · exact hs
  | park => exact hs.keep hs.color (.inl rfl) hs.job rfl
  | disable => exact hs.keep hs.color (.inr rfl) hs.job rfl
  | updateColor color =>
      simp only [step]
      split
      case h_1 => exact hs.keep (hcolor color rfl) (.inl rfl) hs.job rfl
      case h_2 => exact hs
  | recolourStep =>
      simp only [step]
      split
      case h_1 => exact hs.keep hs.color (.inr rfl) hs.job rfl
      case h_4 => exact hs
      all_goals exact hs.keep hs.color (.inl rfl) hs.job rfl
  | activate depth current =>
      simp only [step]
      split
      case h_1 => exact hs.keep hs.color (.inl rfl) hs.job rfl
      case h_2 => exact hs
  | activationStep =>
      simp only [step]
      split
      case h_2 => exact hs.keep hs.color (.inr rfl) hs.job rfl
      case h_5 => exact hs
      all_goals exact hs.keep hs.color (.inl rfl) hs.job rfl
  | carrier strips =>
      simp only [step]
      split
      case h_3 => exact hs
      all_goals exact hs.keep hs.color (.inl rfl) hs.job rfl
  | oweKeyframe =>
      simp only [step]
      split
      case h_1 => exact hs.keep hs.color (.inl rfl) hs.job rfl
      case h_2 => exact hs
  | start snapshot rotation =>
      simp only [step]
      split
      case h_1 => exact hs.keep hs.color (.inl rfl) ⟨hsnapshot snapshot rfl, hs.color⟩ rfl
      case h_2 => exact hs
  | readGeometry =>
      simp only [step]
      split
      case h_1 hsourced =>
        rw [hsourced] at hjob
        exact hs.keep hs.color (.inl rfl) hjob rfl
      case h_2 => exact hs
  | check =>
      simp only [step]
      split
      case h_1 hsized =>
        rw [hsized] at hjob
        split_ifs
        · exact hs.keep hs.color (.inl rfl) hjob rfl
        · exact hs.keep hs.color (.inl rfl) trivial rfl
      case h_2 => exact hs
  | select =>
      simp only [step]
      split
      case h_1 hchecked =>
        rw [hchecked] at hjob
        exact sound_select hs hjob
      case h_2 => exact hs
  | encode training =>
      simp only [step]
      split
      case h_1 f full damage hselected =>
        rw [hselected] at hjob
        exact sound_encode hS hK hs hjob (hmatched f full damage hselected)
      case h_2 => exact hs
  | present =>
      simp only [step]
      split
      case h_1 hsending =>
        rw [hsending] at hjob
        exact hs.keep hs.color (.inl rfl) hjob rfl
      case h_2 => exact hs
  | fail delivered =>
      simp only [step]
      split
      case h_1 => exact hs.keep hs.color (.inl rfl) trivial rfl
      case h_2 => exact hs
  | pay =>
      simp only [step]
      split
      case h_1 hsending =>
        rw [hsending] at hjob
        exact hs.keep hs.color (.inl rfl) hjob rfl
      case h_2 => exact hs
  | publish allocated =>
      simp only [step]
      split
      case h_1 hpaid =>
        rw [hpaid] at hjob
        obtain ⟨hknown, hmatch, hfresh⟩ := hjob
        exact ⟨hs.color, fun c hc => valid_publish hs.cache hmatch hknown hfresh hc, trivial,
          hs.served⟩
      case h_2 => exact hs
  | clear =>
      simp only [step]
      split
      case h_1 => exact hs.keep hs.color (.inl rfl) trivial rfl
      case h_2 => exact hs
  | abandon =>
      simp only [step]
      split
      case h_4 => exact hs.keep hs.color (.inl rfl) trivial rfl
      all_goals exact hs

theorem sound_initial (ring : ℕ → ℕ × ℕ → List UInt8) (hK : none ∈ K) :
    Sound p xxh64 S K (State.initial ring) :=
  ⟨hK, fun _ h => (by cases h), trivial, fun _ h => (by cases h)⟩

theorem sound_run (ring : ℕ → ℕ × ℕ → List UInt8) (es : List Event)
    (hS : HashesDistinct p.geometry xxh64 (snapshots es)) (hK : TagsDistinct xxh64 (colors es))
    (hrun : Along (Matched p xxh64) (step p xxh64) (State.initial ring) es) :
    Sound p xxh64 (snapshots es) (colors es) (run (step p xxh64) (State.initial ring) es) :=
  run_invariant (P := Sound p xxh64 (snapshots es) (colors es)) (sound_step hS hK) es
    (State.initial ring) (sound_initial ring List.mem_cons_self)
    (hrun.and es (State.initial ring) fun _ he => within_of_mem he)

end Runs

/-- **The cache is never stale**: in every run in which a frame that uses the cache has the
geometry's depth and the framebuffer's format of the frame that published it, every body taken from
the cache is what the strip encodes to. -/
theorem bodies_fresh (p : DockProfile) (xxh64 : List UInt8 → UInt64 → UInt64)
    (ring : ℕ → ℕ × ℕ → List UInt8) (es : List Event)
    (hS : HashesDistinct p.geometry xxh64 (snapshots es)) (hK : TagsDistinct xxh64 (colors es))
    (hrun : Along (Matched p xxh64) (step p xxh64) (State.initial ring) es) :
    ∀ e ∈ (run (step p xxh64) (State.initial ring) es).served,
      e.frame.encode p e.coord = some e.body :=
  (sound_run ring es hS hK hrun).served

/-! ### A flat surface -/

section Flat

variable (xxh64 : List UInt8 → UInt64 → UInt64)

/-- A surface of one strip, grey at either format. -/
def flat : Snapshot := ⟨128, 8, fun _ _ => 0x15555555⟩

/-- The flat surface on a link of eight bits. -/
def flatFrame (sourceDepth : Depth) : Frame := ⟨⟨flat, upright, none, .eight, sourceDepth⟩, .eight⟩

/-- The value of the grey. -/
def flatGrey : Depth → UInt16
  | .eight => 85
  | .ten => 341

/-- What the flat strip encodes to. -/
def flatBody (sourceDepth : Depth) : List UInt8 :=
  colourStrip profileNavarro.geometry (List.replicate 16 (greyBlock (flatGrey sourceDepth).toNat))
    0 0

theorem word_flat (d : Depth) : (flatFrame d).src.corrected ((flatFrame d).src.unpack 0x15555555) =
    (flatGrey d, flatGrey d, flatGrey d) := by
  cases d <;> decide

/-- A strip of one grey. -/
theorem encode_grey {src : PixelSource} (hsnapshot : src.snapshot = flat)
    (hrotation : src.rotation = upright) {v : UInt16} (hv : v.toNat ≤ 1023)
    (hword : src.corrected (src.unpack 0x15555555) = (v, v, v)) :
    encodeStrip profileNavarro.geometry .eight src (0, 0) =
      some (colourStrip profileNavarro.geometry (List.replicate 16 (greyBlock v.toNat)) 0 0) := by
  have hconst : encodeStrip profileNavarro.geometry .eight src (0, 0) =
      colourStripAt (profileNavarro.geometry.withDepth .eight) 0 0 fun _ _ => (v, v, v) := by
    refine colourStripAt_congr fun dx hdx dy hdy => ?_
    have hx : dx < 128 := hdx
    have hy : dy < 8 := hdy
    rw [PixelSource.px_identity _ (by rw [hrotation]; rfl), Nat.zero_add, Nat.zero_add, hsnapshot,
      if_pos ⟨hx, hy⟩]
    exact hword
  rw [hconst, colourStripAt, colourStripBlocks_grey hv (fun _ _ => rfl) 0 0]
  rfl

theorem encode_flat (d : Depth) :
    (flatFrame d).encode profileNavarro (0, 0) = some (flatBody d) :=
  encode_grey rfl rfl (by cases d <;> decide) (word_flat d)

theorem body_flat (d : Depth) :
    (flatFrame d).body profileNavarro xxh64 none (0, 0) = some (flatBody d) := by
  rw [body_none, encode_flat]

theorem flatBody_ne : flatBody .eight ≠ flatBody .ten ∧ flatBody .eight ≠ [] := by
  decide +kernel

theorem coords_flat (d : Depth) : (flatFrame d).coords profileNavarro true [] = [(0, 0)] := by
  cases d <;> decide

theorem padded_flat (d : Depth) : (flatFrame d).paddedWidth profileNavarro = 128 ∧
    (flatFrame d).paddedHeight profileNavarro = 8 := by
  cases d <;> decide

theorem index_flat (d : Depth) : (flatFrame d).index profileNavarro (0, 0) = 0 := by
  cases d <;> decide

theorem length_hashes_flat (d : Depth) :
    ((flatFrame d).hashes profileNavarro xxh64).length = 1 := by
  rw [length_hashes (by cases d <;> rfl)]
  cases d <;> decide

/-- What publishing the flat surface leaves, where nothing was cached. -/
def flatCache (d : Depth) : StripHashState :=
  ⟨128, 8, (flatFrame d).hashes profileNavarro xxh64, [flatBody d], (flatFrame d).tag xxh64, .eight,
    d⟩

theorem publish_flat (d : Depth) :
    (flatFrame d).publish profileNavarro xxh64 none [((0, 0), flatBody d)] 1 =
      some (flatCache xxh64 d) := by
  have hbodies : (flatFrame d).bodies profileNavarro xxh64 none [((0, 0), flatBody d)] 1 =
      [flatBody d] := by
    have hcarry : (flatFrame d).carry profileNavarro xxh64 none = [] := rfl
    simp [Frame.bodies, hcarry, length_hashes_flat, Frame.place, index_flat]
  have hid : (flatFrame d).identity = true := by cases d <;> rfl
  rw [Frame.publish, hbodies, if_pos hid, (padded_flat d).1, (padded_flat d).2]
  rfl

/-- The cached body of the flat surface is served at either format. -/
theorem reuse_flat (d d' : Depth) (hbody : flatBody d ≠ []) :
    (flatFrame d').reuse profileNavarro xxh64 (some (flatCache xxh64 d)) (0, 0) =
      some (flatBody d) := by
  have husable : (flatFrame d').usable profileNavarro xxh64 (some (flatCache xxh64 d)) =
      some (flatCache xxh64 d) :=
    usable_eq_some.2 ⟨rfl, (padded_flat d').1.symm, (padded_flat d').2.symm, rfl⟩
  have hid : (flatFrame d').identity = true := by cases d' <;> rfl
  have hmem : (0, 0) ∈ (flatFrame d').coords profileNavarro true [] := by
    rw [coords_flat]
    exact List.mem_cons_self
  have hhash := @getElem?_hashes _ xxh64 _ _ hid (coords_subset _ _ _ hmem)
  have hsame : (flatFrame d).hashes profileNavarro xxh64 =
      (flatFrame d').hashes profileNavarro xxh64 := rfl
  rw [Frame.reuse, if_pos hid, husable, Option.bind_some, Frame.hit]
  rw [index_flat] at hhash ⊢
  simp only [flatCache, hsame, hhash]
  simp [hbody]

/-- The buffers behind three presentations of the flat strip. -/
def flatRing (ring : ℕ → ℕ × ℕ → List UInt8) (seq : ℕ) (b : List UInt8) :
    ℕ → ℕ × ℕ → List UInt8 :=
  let frame := fun q => [(((0, 0) : ℕ × ℕ), b)].lookup q
  write 3 (write 3 (write 3 ring seq frame) (seq + 1) frame) (seq + 1 + 1) frame

/-- A keyframe of the flat surface. -/
def flatKeyframe : List Event :=
  [.start flat upright, .readGeometry, .check, .select, .encode false, .present, .present, .present,
    .pay, .publish 1, .clear]

/-- The connector is lit at eight bits, and the flat surface is sent. -/
def lit : List Event :=
  [.enable .eight false, .activate .eight true, .activationStep, .activationStep, .activationStep,
    .activationStep]

/-- The flat surface is encoded. -/
theorem State.encode_flat (s : State) (d : Depth) {b : List UInt8}
    (hb : (flatFrame d).body profileNavarro xxh64 s.stripHashes (0, 0) = some b) :
    s.encode profileNavarro xxh64 (flatFrame d) true [] false = { s with
      served := s.served ++ ((flatFrame d).reuse profileNavarro xxh64 s.stripHashes
        (0, 0)).toList.map fun b => ⟨flatFrame d, (0, 0), b⟩
      job := some (.sending (flatFrame d) true [((0, 0), b)] 0 3) } := by
  have hcount : framePresentationCount profileNavarro true false = 3 := by decide
  have hbodies : [((0, 0) : ℕ × ℕ)].mapM
      ((flatFrame d).body profileNavarro xxh64 s.stripHashes) = some [b] := by
    rw [List.mapM_cons, hb]
    rfl
  have hserved : ([((0, 0) : ℕ × ℕ)].filterMap fun q =>
      ((flatFrame d).reuse profileNavarro xxh64 s.stripHashes q).map fun b =>
        (⟨flatFrame d, q, b⟩ : Served)) =
      ((flatFrame d).reuse profileNavarro xxh64 s.stripHashes (0, 0)).toList.map
        fun b => ⟨flatFrame d, (0, 0), b⟩ := by
    cases h : (flatFrame d).reuse profileNavarro xxh64 s.stripHashes (0, 0) <;> simp [h]
  unfold State.encode
  simp only [coords_flat, hbodies, hcount, hserved]
  rfl

theorem run_flatKeyframe {s : State} (hjob : s.job = none) (hlit : s.lit = true)
    (howes : s.keyframePending = true) (hcolor : s.color = none) (hdepth : s.depth = .eight)
    {b : List UInt8}
    (hb : (flatFrame s.connectorDepth).body profileNavarro xxh64 s.stripHashes (0, 0) = some b) :
    run (step profileNavarro xxh64) s flatKeyframe = { s with
      dirtyTtl := s.dirtyTtl.map (payDamageDebt true)
      stripHashes := (flatFrame s.connectorDepth).publish profileNavarro xxh64 s.stripHashes
        [((0, 0), b)] 1
      keyframePending := false
      seq := s.seq + 1 + 1 + 1
      ring := flatRing s.ring s.seq b
      served := s.served ++ ((flatFrame s.connectorDepth).reuse profileNavarro xxh64 s.stripHashes
        (0, 0)).toList.map fun b => ⟨flatFrame s.connectorDepth, (0, 0), b⟩ } := by
  obtain ⟨color, depth, connectorDepth, active, lit, stripHashes, dirtyTtl, keyframePending,
    recolour, activation, job, seq, ring, served⟩ := s
  subst hjob hlit howes hcolor hdepth
  exact congrArg (run (step profileNavarro xxh64) ·
    [.present, .present, .present, .pay, .publish 1, .clear])
      (State.encode_flat xxh64 ⟨none, .eight, connectorDepth, active, true, stripHashes, dirtyTtl,
        true, recolour, activation, some (.selected (flatFrame connectorDepth) true []), seq, ring,
        served⟩ connectorDepth hb)

theorem hashesDistinct_flat (es : List Event) (h : ∀ f ∈ snapshots es, f = flat) :
    HashesDistinct profileNavarro.geometry xxh64 (snapshots es) := by
  intro f hf f' hf' sx sy _
  rw [h f hf, h f' hf']

theorem tagsDistinct_plain : TagsDistinct xxh64 [none] := by
  intro a ha b hb d e htag
  obtain rfl := List.mem_singleton.1 ha
  obtain rfl := List.mem_singleton.1 hb
  refine ⟨rfl, ?_⟩
  cases d <;> cases e <;> simp [encodeTag] at htag ⊢

/-- The connector is lit and the flat surface sent; behind the steps of `between`, a keyframe of
the training window sends it again. -/
def resent (between : List Event) : List Event :=
  lit ++ flatKeyframe ++ between ++ .oweKeyframe :: flatKeyframe

/-- The flat surface is served from the cache, at the format in force. -/
theorem served_resent (ring : ℕ → ℕ × ℕ → List UInt8) (d : Depth) :
    (run (step profileNavarro xxh64) (State.initial ring)
      (resent [.setConnectorDepth d])).served = [⟨flatFrame d, (0, 0), flatBody .eight⟩] := by
  have hbody := flatBody_ne.2
  have hwarm : (flatFrame d).body profileNavarro xxh64 (some (flatCache xxh64 .eight)) (0, 0) =
      some (flatBody .eight) := by
    rw [Frame.body, reuse_flat xxh64 .eight d hbody]
  rw [resent, run_append, run_append, run_append]
  have hfirst := run_flatKeyframe xxh64 (b := flatBody .eight)
    (s := run (step profileNavarro xxh64) (State.initial ring) lit) rfl rfl rfl rfl rfl
      (body_flat xxh64 .eight)
  rw [hfirst, show (run (step profileNavarro xxh64) (State.initial ring) lit).connectorDepth =
    .eight from rfl, show (run (step profileNavarro xxh64) (State.initial ring) lit).stripHashes =
      none from rfl, publish_flat]
  have hsecond := run_flatKeyframe xxh64 (b := flatBody .eight)
    (s := ⟨none, .eight, d, some .eight, true, some (flatCache xxh64 .eight), none, true, none, none,
      none, 3, flatRing ring 0 (flatBody .eight), []⟩) rfl rfl rfl rfl rfl hwarm
  refine (congrArg State.served hsecond).trans ?_
  rw [reuse_flat xxh64 .eight d hbody]
  rfl

theorem along_flatKeyframe {s : State} (hjob : s.job = none) (hlit : s.lit = true)
    (howes : s.keyframePending = true) (hcolor : s.color = none) (hdepth : s.depth = .eight)
    (hmatch : Matches profileNavarro xxh64 s.stripHashes (flatFrame s.connectorDepth)) :
    Along (Matched profileNavarro xxh64) (step profileNavarro xxh64) s flatKeyframe := by
  obtain ⟨color, depth, connectorDepth, active, lit, stripHashes, dirtyTtl, keyframePending,
    recolour, activation, job, seq, ring, served⟩ := s
  subst hjob hlit howes hcolor hdepth
  refine ⟨trivial, trivial, trivial, trivial, ?_, trivial, trivial, trivial, trivial, trivial,
    trivial, trivial⟩
  intro f full damage hselected
  cases hselected
  exact hmatch

/-- The flat surface is sent twice at one format. -/
theorem along_resent (ring : ℕ → ℕ × ℕ → List UInt8) :
    Along (Matched profileNavarro xxh64) (step profileNavarro xxh64) (State.initial ring)
      (resent [.setConnectorDepth .eight]) := by
  have hlit : Along (Matched profileNavarro xxh64) (step profileNavarro xxh64) (State.initial ring)
      lit := ⟨trivial, trivial, trivial, trivial, trivial, trivial, trivial⟩
  have hfirst := run_flatKeyframe xxh64 (b := flatBody .eight)
    (s := run (step profileNavarro xxh64) (State.initial ring) lit) rfl rfl rfl rfl rfl
      (body_flat xxh64 .eight)
  unfold resent
  refine (along_append _ _ _).2 ⟨(along_append _ _ _).2 ⟨(along_append _ _ _).2 ⟨hlit,
    along_flatKeyframe xxh64 rfl rfl rfl rfl rfl (matches_none _)⟩, trivial, trivial⟩, ?_⟩
  rw [run_append, run_append, hfirst,
    show (run (step profileNavarro xxh64) (State.initial ring) lit).connectorDepth = .eight from rfl,
    show (run (step profileNavarro xxh64) (State.initial ring) lit).stripHashes = none from rfl,
    publish_flat]
  refine ⟨trivial, along_flatKeyframe xxh64 rfl rfl rfl rfl rfl fun c hc => ?_⟩
  obtain ⟨hc, -⟩ := usable_eq_some.1 hc
  cases hc
  exact ⟨rfl, rfl⟩

end Flat

theorem bodies_fresh_resent :
    HashesDistinct profileNavarro.geometry xxh64 (snapshots (resent [.setConnectorDepth .eight])) ∧
    TagsDistinct xxh64 (colors (resent [.setConnectorDepth .eight])) ∧
    Along (Matched profileNavarro xxh64) (step profileNavarro xxh64) (State.initial fun _ _ => [])
      (resent [.setConnectorDepth .eight]) ∧
    (run (step profileNavarro xxh64) (State.initial fun _ _ => [])
      (resent [.setConnectorDepth .eight])).served =
        [⟨flatFrame .eight, (0, 0), flatBody .eight⟩] ∧
    ∀ e ∈ (run (step profileNavarro xxh64) (State.initial fun _ _ => [])
      (resent [.setConnectorDepth .eight])).served,
        e.frame.encode profileNavarro e.coord = some e.body := by
  have hS := hashesDistinct_flat xxh64 (resent [.setConnectorDepth .eight]) fun f hf => by
    simpa [snapshots, resent, lit, flatKeyframe, Event.snapshot, eq_comm] using hf
  have hrun := along_resent xxh64 fun _ _ => []
  exact ⟨hS, tagsDistinct_plain xxh64, hrun, served_resent xxh64 _ .eight,
    bodies_fresh profileNavarro xxh64 _ _ hS (tagsDistinct_plain xxh64) hrun⟩

/-- **A flip to another format with the same words** is served bodies of the old format. -/
theorem format_serves_stale :
    HashesDistinct profileNavarro.geometry xxh64 (snapshots (resent [.setConnectorDepth .ten])) ∧
    TagsDistinct xxh64 (colors (resent [.setConnectorDepth .ten])) ∧
    ¬ ∀ e ∈ (run (step profileNavarro xxh64) (State.initial fun _ _ => [])
      (resent [.setConnectorDepth .ten])).served,
        e.frame.encode profileNavarro e.coord = some e.body := by
  have hS := hashesDistinct_flat xxh64 (resent [.setConnectorDepth .ten]) fun f hf => by
    simpa [snapshots, resent, lit, flatKeyframe, Event.snapshot, eq_comm] using hf
  refine ⟨hS, tagsDistinct_plain xxh64, fun hfresh => ?_⟩
  rw [served_resent xxh64 _ .ten] at hfresh
  have h := hfresh _ List.mem_cons_self
  rw [encode_flat] at h
  exact flatBody_ne.1 (Option.some.inj h).symm

end Vino.Kms.Delivery
