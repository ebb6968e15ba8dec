import Vino.Damage
import Vino.Haar.Framing
import Vino.Lib.Ring
import Vino.Lib.Run

/-!
# The Dock's Buffers Stay Coherent

The dock keeps `dockBuffers` buffers; the presentation that carries frame sequence `s` overwrites,
in buffer `s % dockBuffers`, the strips of that frame.  A head and its dock take a step for every
call of `present_rgb`, with any outcome, and for every keyframe that comes to be owed.

The invariant `Synced` relates a strip's debt to the buffers: a strip that still owes `d` of its
`damageFrames` transmissions is current in the buffers of the last `damageFrames - d`
presentations.  A strip that owes nothing is therefore current everywhere, and that is when `plan`
says that there is nothing to send.

* `idle_coherent`: the buffers of a head whose plan is idle, behind any run in which the frame
  counter does not wrap in the middle of what is owed,
* `wrapped_keyframe_incoherent`: the three presentations of a keyframe that crosses the wrap of the
  counter reach two of three buffers.
-/

namespace Vino.Coherence

open Vino.Haar.Strip Vino.Haar.Records Vino.Haar.Framing Vino.Haar.Range Vino.Profile
open Vino.Scanout Vino.Damage
open Vino.Lib.Ring Vino.Lib.Run

/-! ### Surfaces -/

/-- A padded packed RGB888 surface: a whole number of the dock's strips. -/
structure Surface (d : Dock) where
  width : ℕ
  height : ℕ
  rgb : List UInt8
  width_dvd : d.geometry.stripW ∣ width
  height_dvd : d.geometry.stripH ∣ height
  size : rgb.length = width * height * 3

namespace Surface

variable {d : Dock} (f : Surface d)

def tilesX : ℕ := f.width / d.geometry.stripW

def tilesY : ℕ := f.height / d.geometry.stripH

/-- The strip in column `tx` and band `ty`. -/
def lines (tx ty : ℕ) : List (List UInt8) :=
  stripLines f.rgb f.width d.geometry.stripW d.geometry.stripH tx ty

def hashes : List UInt64 :=
  stripHashes f.rgb f.width f.height d.geometry.stripW d.geometry.stripH

/-- The body of the strip at a coordinate. -/
def body (p : ℕ × ℕ) : List UInt8 := (encodeStrip d f.width f.rgb p.1 p.2).getD []

def coords : List (ℕ × ℕ) := allStripCoords d.geometry f.width f.height

theorem encodeStrip_eq (p : ℕ × ℕ) : encodeStrip d f.width f.rgb p.1 p.2 = some (f.body p) := by
  obtain ⟨b, hb⟩ := encodeStrip_isSome d f.rgb p.1 p.2
  rw [body, hb, Option.getD_some]

theorem length_hashes : f.hashes.length = f.tilesX * f.tilesY := by
  rw [Nat.mul_comm]
  exact length_grid _ _ _

theorem getD_hashes {tx ty : ℕ} (htx : tx < f.tilesX) (hty : ty < f.tilesY) :
    f.hashes.getD (ty * f.tilesX + tx) 0 = stripHash tx ty (f.lines tx ty) := by
  rw [List.getD_eq_getElem?_getD]
  have hgrid := getElem?_grid (fun ty tx => stripHash tx ty (f.lines tx ty)) f.tilesX hty htx
  exact congrArg (fun o => o.getD 0) hgrid

theorem mem_coords {p : ℕ × ℕ} : p ∈ f.coords ↔ ∃ tx < f.tilesX, ∃ ty < f.tilesY,
    p = (tx * d.geometry.stripW, ty * d.geometry.stripH) :=
  mem_allStripCoords f.width_dvd f.height_dvd

end Surface

/-- The strip hashes tell different contents of the same strip of these surfaces apart. -/
def HashesDistinct {d : Dock} (S : List (Surface d)) : Prop :=
  ∀ f ∈ S, ∀ f' ∈ S, f.width = f'.width → f.height = f'.height →
    ∀ tx < f.tilesX, ∀ ty < f.tilesY,
      stripHash tx ty (f.lines tx ty) = stripHash tx ty (f'.lines tx ty) →
        f.lines tx ty = f'.lines tx ty

/-! ### A head and its dock -/

/-- The host's side of a head and the buffers of its dock, strip by strip. -/
structure System where
  scanout : HeadScanout
  frameSeq : UInt32
  ring : ℕ → ℕ × ℕ → List UInt8

/-- How a call of `present_rgb` ends: an allocation fails after some strips were encoded, the
transport fails after some presentations were taken, or all of them are. -/
inductive Outcome where
  | delivered
  | encodeFails (strips : ℕ)
  | transportFails (taken : ℕ)

def Outcome.fault : Outcome → Option ℕ
  | .encodeFails strips => some strips
  | _ => none

inductive Event (d : Dock) where
  | oweKeyframe
  | presentRgb (f : Surface d) (outcome : Outcome)

/-- The surface of a call. -/
def Event.surface {d : Dock} : Event d → Option (Surface d)
  | .oweKeyframe => none
  | .presentRgb f _ => some f

/-- The strips a frame carries. -/
def carried (frame : Frame) (p : ℕ × ℕ) : Option (List UInt8) :=
  (frame.coords.zip frame.strips).lookup p

namespace System

variable {d : Dock}

/-- A fresh head on a dock whose buffers hold anything. -/
def new (d : Dock) (frameSeq : UInt32) (ring : ℕ → ℕ × ℕ → List UInt8) : System :=
  ⟨HeadScanout.new d, frameSeq, ring⟩

/-- The dock's buffers behind the first presentations of a frame. -/
def shown (st : System) (frame : Frame) (taken : ℕ) : ℕ → ℕ × ℕ → List UInt8 :=
  writes st.scanout.dock.dockBuffers st.ring (fun r => (st.frameSeq + UInt32.ofNat r).toNat)
    (carried frame) taken

/-- Encode and present one surface. -/
def presentRgb (head : UInt8) (st : System) (f : Surface d) (outcome : Outcome) : System :=
  let (s, plan) := st.scanout.plan f.width f.height f.rgb
  match s.encode plan f.rgb head outcome.fault with
  | (s, .ok (some frame)) =>
      match outcome with
      | .transportFails taken =>
          { st with scanout := s, ring := st.shown frame (min taken frame.presentations) }
      | _ =>
          { scanout := s.presented plan
            frameSeq := st.frameSeq + UInt32.ofNat frame.presentations
            ring := st.shown frame frame.presentations }
  | (s, _) => { st with scanout := s }

def step (head : UInt8) (st : System) : Event d → System
  | .oweKeyframe => { st with scanout := st.scanout.oweKeyframe }
  | .presentRgb f outcome => st.presentRgb head f outcome

end System

/-! ### The invariant -/

variable {d : Dock} {S : List (Surface d)} {f f' : Surface d} {s : HeadScanout} {st : System}

/-- The tables of a head have an entry for each strip of its surface. -/
structure Sized (s : HeadScanout) : Prop where
  hashes : s.hashes.length = s.wPad / s.dock.stripDims.1 * (s.hPad / s.dock.stripDims.2)
  debt : s.debt.length = s.hashes.length
  bodies : s.bodies.length = s.hashes.length
  bodyHashes : s.bodyHashes.length = s.hashes.length

/-- The surface has the size of the head's. -/
def Fits (s : HeadScanout) (f : Surface d) : Prop := f.width = s.wPad ∧ f.height = s.hPad

/-- A cached body is that of a surface of the run with the recorded hash. -/
def CacheOk (S : List (Surface d)) (s : HeadScanout) : Prop :=
  ∀ i b, s.bodies.getD i none = some b → ∃ f ∈ S, Fits s f ∧
    ∀ tx < f.tilesX, ∀ ty < f.tilesY, ty * f.tilesX + tx = i →
      s.bodyHashes.getD i 0 = stripHash tx ty (f.lines tx ty) ∧
        f.body (tx * d.geometry.stripW, ty * d.geometry.stripH) = b

/-- **The ledger.**  A strip that still owes some of its transmissions is current in the buffers
of the presentations it has had. -/
def Paid (f : Surface d) (s : HeadScanout) (seq : ℕ) (ring : ℕ → ℕ × ℕ → List UInt8) : Prop :=
  ∀ tx < f.tilesX, ∀ ty < f.tilesY,
    s.debt.getD (ty * f.tilesX + tx) 0 ≤ d.damageFrames ∧
      Recent d.dockBuffers ring seq (d.damageFrames - s.debt.getD (ty * f.tilesX + tx) 0)
        (tx * d.geometry.stripW, ty * d.geometry.stripH)
        (f.body (tx * d.geometry.stripW, ty * d.geometry.stripH))

/-- The invariant of a head and its dock. -/
structure Synced (S : List (Surface d)) (st : System) : Prop where
  dock : st.scanout.dock = d
  sized : Sized st.scanout
  cache : CacheOk S st.scanout
  published : st.scanout.keyframeOwed = false → ∃ f ∈ S, Fits st.scanout f ∧
    st.scanout.hashes = f.hashes ∧ Paid f st.scanout st.frameSeq.toNat st.ring

theorem synced_new (d : Dock) (S : List (Surface d)) (frameSeq : UInt32)
    (ring : ℕ → ℕ × ℕ → List UInt8) : Synced S (System.new d frameSeq ring) where
  dock := rfl
  sized := ⟨by simp [System.new, HeadScanout.new], rfl, rfl, rfl⟩
  cache := fun i b h => by simp [System.new, HeadScanout.new] at h
  published := fun h => by simp [System.new, HeadScanout.new] at h

/-- **Equal hashes, equal bodies.** -/
theorem body_eq_of_hash (hS : HashesDistinct S) (hf : f ∈ S) (hf' : f' ∈ S)
    (hw : f.width = f'.width) (hh : f.height = f'.height) {tx ty : ℕ} (htx : tx < f.tilesX)
    (hty : ty < f.tilesY)
    (heq : stripHash tx ty (f.lines tx ty) = stripHash tx ty (f'.lines tx ty)) :
    f.body (tx * d.geometry.stripW, ty * d.geometry.stripH) =
      f'.body (tx * d.geometry.stripW, ty * d.geometry.stripH) := by
  have hlines := hS f hf f' hf' hw hh tx htx ty hty heq
  unfold Surface.lines at hlines
  unfold Surface.body
  rw [hw] at hlines ⊢
  rw [encodeStrip_congr hlines]

/-! ### Planning -/

/-- A head that has decided what to send for a surface: its ledger, charged with what moved, holds
both for the surface that was published and for the one to be sent. -/
structure Planned (S : List (Surface d)) (f : Surface d) (s : HeadScanout) (seq : ℕ)
    (ring : ℕ → ℕ × ℕ → List UInt8) : Prop where
  dock : s.dock = d
  sized : Sized s
  cache : CacheOk S s
  fits : Fits s f
  pending : s.pending = f.hashes
  ledger : s.keyframeOwed = false → Paid f s seq ring ∧ ∃ p ∈ S, Fits s p ∧
    s.hashes = p.hashes ∧ ∀ tx < f.tilesX, ∀ ty < f.tilesY,
      d.damageFrames = s.debt.getD (ty * f.tilesX + tx) 0 ∨
        p.body (tx * d.geometry.stripW, ty * d.geometry.stripH) =
          f.body (tx * d.geometry.stripW, ty * d.geometry.stripH)

theorem resized_eq_or (s : HeadScanout) (wPad hPad : ℕ) :
    let expected := wPad / s.dock.stripDims.1 * (hPad / s.dock.stripDims.2)
    (s.resized wPad hPad expected = s ∧ s.wPad = wPad ∧ s.hPad = hPad) ∨
      s.resized wPad hPad expected =
        { s with
          wPad := wPad
          hPad := hPad
          hashes := List.replicate expected 0
          debt := List.replicate expected 0
          bodies := List.replicate expected none
          bodyHashes := List.replicate expected 0
          keyframeOwed := true } := by
  intro expected
  unfold HeadScanout.resized
  split_ifs with hdiff
  · exact .inr rfl
  · simp only [not_or, not_not] at hdiff
    exact .inl ⟨rfl, hdiff.1, hdiff.2.1⟩

theorem getD_mapIdx {α β : Type} (l : List α) (F : ℕ → α → β) (a : α) (b : β) {i : ℕ}
    (hi : i < l.length) : (l.mapIdx F).getD i b = F i (l.getD i a) := by
  simp [List.getD_eq_getElem?_getD, hi]

theorem index_lt {n m tx ty : ℕ} (htx : tx < n) (hty : ty < m) : ty * n + tx < n * m := by
  have hrow : (ty + 1) * n ≤ m * n := Nat.mul_le_mul_right n hty
  rw [Nat.succ_mul] at hrow
  rw [Nat.mul_comm n m]
  omega

theorem Fits.tiles {p : Surface d} (hf : Fits s f) (hp : Fits s p) :
    p.width = f.width ∧ p.height = f.height ∧ p.tilesX = f.tilesX ∧ p.tilesY = f.tilesY := by
  have hw : p.width = f.width := hp.1.trans hf.1.symm
  have hh : p.height = f.height := hp.2.trans hf.2.symm
  unfold Surface.tilesX Surface.tilesY
  exact ⟨hw, hh, by rw [hw], by rw [hh]⟩

theorem Sized.length_debt (hs : Sized s) (hdock : s.dock = d) (hf : Fits s f) :
    s.debt.length = f.tilesX * f.tilesY := by
  rw [hs.debt, hs.hashes, hdock, ← hf.1, ← hf.2]
  rfl

/-- Charging what moved makes the ledger of the published surface one of the new surface. -/
theorem planned_charged (hS : HashesDistinct S) {p : Surface d} {seq : ℕ}
    {ring : ℕ → ℕ × ℕ → List UInt8} (hf : f ∈ S) (hp : p ∈ S) (hdock : s.dock = d)
    (hsized : Sized s) (hcache : CacheOk S s) (hfits : Fits s f) (hpending : s.pending = f.hashes)
    (hpfits : Fits s p) (hhashes : s.hashes = p.hashes) (hpaid : Paid p s seq ring) :
    Planned S f { s with debt := s.charged } seq ring := by
  obtain ⟨hw, hh, htX, htY⟩ := hfits.tiles hpfits
  -- A strip is charged in full, or it is as it was published.
  have hcell : ∀ tx < f.tilesX, ∀ ty < f.tilesY,
      s.charged.getD (ty * f.tilesX + tx) 0 = d.damageFrames ∨
        s.charged.getD (ty * f.tilesX + tx) 0 = s.debt.getD (ty * f.tilesX + tx) 0 ∧
          p.body (tx * d.geometry.stripW, ty * d.geometry.stripH) =
            f.body (tx * d.geometry.stripW, ty * d.geometry.stripH) := by
    intro tx htx ty hty
    have hlen : ty * f.tilesX + tx < s.debt.length := by
      rw [hsized.length_debt hdock hfits]
      exact index_lt htx hty
    unfold HeadScanout.charged
    rw [getD_mapIdx s.debt _ 0 0 hlen, hdock]
    split_ifs with hmoved
    · exact .inl rfl
    · refine .inr ⟨rfl, ?_⟩
      rw [not_not, hhashes, hpending, f.getD_hashes htx hty, ← htX,
        p.getD_hashes (htX ▸ htx) (htY ▸ hty)] at hmoved
      exact body_eq_of_hash hS hp hf hw hh (htX ▸ htx) (htY ▸ hty) hmoved
  refine ⟨hdock, ⟨hsized.hashes, ?_, hsized.bodies, hsized.bodyHashes⟩, hcache, hfits, hpending,
    fun _ => ⟨?_, p, hp, hpfits, hhashes, ?_⟩⟩
  · show s.charged.length = _
    rw [HeadScanout.charged, List.length_mapIdx, hsized.debt]
  · intro tx htx ty hty
    show s.charged.getD _ 0 ≤ _ ∧ Recent _ _ _ (_ - s.charged.getD _ 0) _ _
    rcases hcell tx htx ty hty with hfull | ⟨hkeep, hbody⟩
    · rw [hfull, Nat.sub_self]
      exact ⟨le_rfl, Recent.zero⟩
    · rw [hkeep, ← hbody, ← htX]
      exact hpaid tx (htX ▸ htx) ty (htY ▸ hty)
  · intro tx htx ty hty
    rcases hcell tx htx ty hty with hfull | ⟨-, hbody⟩
    · exact .inl hfull.symm
    · exact .inr hbody

/-- A head that owes a keyframe has nothing to keep. -/
theorem planned_of_owed {seq : ℕ} {ring : ℕ → ℕ × ℕ → List UInt8} (hdock : s.dock = d)
    (hsized : Sized s) (hcache : CacheOk S s) (hfits : Fits s f) (hpending : s.pending = f.hashes)
    (howed : s.keyframeOwed = true) : Planned S f s seq ring :=
  ⟨hdock, hsized, hcache, hfits, hpending, fun h => by rw [howed] at h; cases h⟩

/-- **Planning.**  The head is ready for the surface, and unless it sends a keyframe its
rectangles are those of the charged ledger. -/
theorem plan_spec (hS : HashesDistinct S) (hst : Synced S st) (hf : f ∈ S) :
    let r := st.scanout.plan f.width f.height f.rgb
    Planned S f r.1 st.frameSeq.toNat st.ring ∧ (r.2 = .keyframe ∨ r.1.keyframeOwed = false ∧
      ∃ rects, owedRects r.1.debt f.tilesX f.tilesY d.geometry.stripW d.geometry.stripH =
        some rects ∧ r.2 = if rects = [] then .idle else .damage rects) := by
  obtain ⟨hdock, hsized, hcache, hpub⟩ := hst
  have hdims : st.scanout.dock.stripDims = (d.geometry.stripW, d.geometry.stripH) := by
    rw [hdock]
    rfl
  unfold HeadScanout.plan
  rw [hdims]
  dsimp only
  have hresized := resized_eq_or st.scanout f.width f.height
  rw [hdims] at hresized
  rcases hresized with ⟨heq, hw, hh⟩ | heq <;> rw [heq]
  · have hfits : Fits st.scanout f := ⟨hw.symm, hh.symm⟩
    split_ifs with howed
    · exact ⟨planned_of_owed hdock ⟨hsized.1, hsized.2, hsized.3, hsized.4⟩ hcache hfits rfl howed,
        .inl rfl⟩
    · have howed' : st.scanout.keyframeOwed = false := Bool.not_eq_true _ ▸ howed
      obtain ⟨p, hp, hpfits, hhashes, hpaid⟩ := hpub howed'
      have hplanned := planned_charged
        (s := { st.scanout with pending := f.hashes }) hS hf hp hdock
        ⟨hsized.1, hsized.2, hsized.3, hsized.4⟩ hcache hfits rfl hpfits hhashes hpaid
      split
      · exact ⟨hplanned, .inl rfl⟩
      · next hnil => exact ⟨hplanned, .inr ⟨howed', [], hnil, rfl⟩⟩
      · next rects hne hrects =>
          exact ⟨hplanned, .inr ⟨howed', rects, hrects, by rw [if_neg hne]⟩⟩
  · rw [if_pos rfl]
    refine ⟨planned_of_owed hdock ⟨?_, ?_, ?_, ?_⟩ ?_ ⟨rfl, rfl⟩ rfl rfl, .inl rfl⟩
    · rw [hdock]
      simp [Dock.stripDims]
    · simp
    · simp
    · simp
    · intro i b hb
      simp at hb

/-! ### Encoding -/

theorem getD_set {α : Type} (l : List α) (a b : α) {i j : ℕ} (hi : i < l.length) :
    (l.set i a).getD j b = if i = j then a else l.getD j b := by
  rw [List.getD_eq_getElem?_getD, List.getElem?_set]
  split_ifs
  · rfl
  · rfl

/-- What a head keeps while strips are encoded: everything but the cache. -/
def SameButCache (s s' : HeadScanout) : Prop :=
  s' = { s with bodies := s'.bodies, bodyHashes := s'.bodyHashes }

theorem SameButCache.trans {s1 s2 s3 : HeadScanout} (h : SameButCache s1 s2)
    (h' : SameButCache s2 s3) : SameButCache s1 s3 := by
  unfold SameButCache at *
  rw [h'] at *
  rw [h]

theorem Planned.sameButCache {seq : ℕ} {ring : ℕ → ℕ × ℕ → List UInt8} {s' : HeadScanout}
    (h : Planned S f s seq ring) (hsame : SameButCache s s')
    (hb : s'.bodies.length = s.bodies.length)
    (hbh : s'.bodyHashes.length = s.bodyHashes.length) (hc : CacheOk S s') :
    Planned S f s' seq ring := by
  obtain ⟨hdock, hsized, -, hfits, hpending, hledger⟩ := h
  obtain ⟨h1, h2, h3, h4⟩ := hsized
  unfold SameButCache at hsame
  rw [hsame] at hc ⊢
  exact ⟨hdock, ⟨h1, h2, hb.trans h3, hbh.trans h4⟩, hc, hfits, hpending, hledger⟩

/-- The index of a strip is its place in raster order. -/
theorem stripIndex_eq (hdock : s.dock = d) (hfits : Fits s f) (tx ty : ℕ) :
    s.stripIndex (tx * d.geometry.stripW) (ty * d.geometry.stripH) = ty * f.tilesX + tx := by
  unfold HeadScanout.stripIndex Surface.tilesX
  rw [hdock, ← hfits.1]
  show ty * d.geometry.stripH / d.geometry.stripH * _ +
    tx * d.geometry.stripW / d.geometry.stripW = _
  rw [Nat.mul_div_cancel _ (stripW_pos _), Nat.mul_div_cancel _ (stripH_pos _)]
  rfl

/-- A head that can encode the strips of a surface: its cache is in order and the hashes it
compares with are the surface's. -/
structure Ready (S : List (Surface d)) (f : Surface d) (s : HeadScanout) : Prop where
  dock : s.dock = d
  bodies : s.bodies.length = f.tilesX * f.tilesY
  bodyHashes : s.bodyHashes.length = f.tilesX * f.tilesY
  cache : CacheOk S s
  fits : Fits s f
  pending : s.pending = f.hashes

theorem Planned.ready {seq : ℕ} {ring : ℕ → ℕ × ℕ → List UInt8} (h : Planned S f s seq ring) :
    Ready S f s := by
  have hlen : s.hashes.length = f.tilesX * f.tilesY := by
    rw [← h.sized.debt, h.sized.length_debt h.dock h.fits]
  exact ⟨h.dock, h.sized.bodies.trans hlen, h.sized.bodyHashes.trans hlen, h.cache, h.fits,
    h.pending⟩

/-- The body of a strip of some surface of the run whose hash is the strip's. -/
def Serves (S : List (Surface d)) (f : Surface d) (p : ℕ × ℕ) (b : List UInt8) : Prop :=
  ∃ q ∈ S, q.width = f.width ∧ q.height = f.height ∧ q.body p = b ∧
    ∃ tx < f.tilesX, ∃ ty < f.tilesY, p = (tx * d.geometry.stripW, ty * d.geometry.stripH) ∧
      stripHash tx ty (q.lines tx ty) = stripHash tx ty (f.lines tx ty)

/-- If hashes tell contents apart, the body is the strip's own. -/
theorem Serves.eq {p : ℕ × ℕ} {b : List UInt8} (h : Serves S f p b) (hS : HashesDistinct S)
    (hf : f ∈ S) : b = f.body p := by
  obtain ⟨q, hq, hw, hh, rfl, tx, htx, ty, hty, rfl, hhash⟩ := h
  have htX : q.tilesX = f.tilesX := by unfold Surface.tilesX; rw [hw]
  have htY : q.tilesY = f.tilesY := by unfold Surface.tilesY; rw [hh]
  exact body_eq_of_hash hS hq hf hw hh (htX ▸ htx) (htY ▸ hty) hhash

/-- **One strip**: the body is a fresh one or one that was cached under the strip's hash. -/
theorem stripBody_ready (hf : f ∈ S) (h : Ready S f s) {p : ℕ × ℕ} (hp : p ∈ f.coords) :
    ∃ s' b, s.stripBody f.rgb p = (s', some b) ∧ Serves S f p b ∧ SameButCache s s' ∧
      Ready S f s' := by
  obtain ⟨tx, htx, ty, hty, rfl⟩ := f.mem_coords.1 hp
  have hindex := stripIndex_eq h.dock h.fits tx ty
  have hhash : s.pending.getD (ty * f.tilesX + tx) 0 = stripHash tx ty (f.lines tx ty) := by
    rw [h.pending, f.getD_hashes htx hty]
  unfold HeadScanout.stripBody
  dsimp only
  rw [hindex]
  split
  · next b hcached =>
      obtain ⟨hb, hcurrent⟩ := Option.filter_eq_some_iff.1 hcached
      obtain ⟨q, hq, hqfits, hcell⟩ := h.cache _ b hb
      obtain ⟨hw, hh, htX, htY⟩ := h.fits.tiles hqfits
      obtain ⟨hqhash, hqbody⟩ := hcell tx (htX ▸ htx) ty (htY ▸ hty) (by rw [htX])
      refine ⟨s, b, rfl, ⟨q, hq, hw, hh, hqbody, tx, htx, ty, hty, rfl, ?_⟩, rfl, h⟩
      rw [← hqhash, ← hhash]
      exact beq_iff_eq.1 hcurrent
  · have henc : encodeStrip s.dock s.wPad f.rgb (tx * d.geometry.stripW)
        (ty * d.geometry.stripH) =
          some (f.body (tx * d.geometry.stripW, ty * d.geometry.stripH)) := by
      rw [h.dock, ← h.fits.1]
      exact f.encodeStrip_eq (tx * d.geometry.stripW, ty * d.geometry.stripH)
    rw [henc, hhash]
    refine ⟨_, _, rfl, ⟨f, hf, rfl, rfl, rfl, tx, htx, ty, hty, rfl, rfl⟩, rfl, h.dock,
      (List.length_set ..).trans h.bodies, (List.length_set ..).trans h.bodyHashes, ?_, h.fits,
      h.pending⟩
    intro i b hb
    dsimp only at hb ⊢
    rw [getD_set _ _ _ (by rw [h.bodies]; exact index_lt htx hty)] at hb
    rw [getD_set _ _ _ (by rw [h.bodyHashes]; exact index_lt htx hty)]
    split_ifs at hb ⊢ with hi
    · refine ⟨f, hf, h.fits, ?_⟩
      intro tx' htx' ty' hty' hi'
      obtain ⟨rfl, rfl⟩ : tx' = tx ∧ ty' = ty := by
        have hmod := congrArg (· % f.tilesX) (hi'.trans hi.symm)
        have hdiv := congrArg (· / f.tilesX) (hi'.trans hi.symm)
        simp only [Nat.mul_add_mod', Nat.mod_eq_of_lt htx', Nat.mod_eq_of_lt htx] at hmod
        refine ⟨hmod, ?_⟩
        have hpos : 0 < f.tilesX := by omega
        simpa [Nat.mul_comm _ f.tilesX, Nat.mul_add_div hpos, Nat.div_eq_of_lt htx',
          Nat.div_eq_of_lt htx] using hdiv
      exact ⟨rfl, Option.some.inj hb⟩
    · exact h.cache i b hb

/-- **The selected strips.** -/
theorem stripBodies_ready (hf : f ∈ S) : ∀ (ps : List (ℕ × ℕ)) (s : HeadScanout), Ready S f s →
      (∀ p ∈ ps, p ∈ f.coords) →
      ∃ s' bs, s.stripBodies f.rgb ps = (s', some bs) ∧ List.Forall₂ (Serves S f) ps bs ∧
        SameButCache s s' ∧ Ready S f s'
  | [], s, h, _ => ⟨s, [], rfl, .nil, rfl, h⟩
  | p :: ps, s, h, hps => by
      obtain ⟨s1, b, hbody, hserves, hsame, h1⟩ := stripBody_ready hf h (hps p List.mem_cons_self)
      obtain ⟨s2, bs, hrest, hserves', hsame', h2⟩ := stripBodies_ready hf ps s1 h1
        fun q hq => hps q (List.mem_cons_of_mem p hq)
      refine ⟨s2, b :: bs, ?_, .cons hserves hserves', hsame.trans hsame', h2⟩
      rw [HeadScanout.stripBodies, hbody]
      dsimp only
      rw [hrest]
      rfl

theorem serves_eq_map (hS : HashesDistinct S) (hf : f ∈ S) {ps : List (ℕ × ℕ)}
    {bs : List (List UInt8)} (h : List.Forall₂ (Serves S f) ps bs) : bs = ps.map f.body := by
  induction h with
  | nil => rfl
  | cons hserves _ ih => rw [List.map_cons, hserves.eq hS hf, ih]

/-- A head that has planned encodes the strips of its surface. -/
theorem stripBodies_spec (hS : HashesDistinct S) {seq : ℕ} {ring : ℕ → ℕ × ℕ → List UInt8}
    (hf : f ∈ S) (ps : List (ℕ × ℕ)) (s : HeadScanout) (h : Planned S f s seq ring)
    (hps : ∀ p ∈ ps, p ∈ f.coords) :
    ∃ s', s.stripBodies f.rgb ps = (s', some (ps.map f.body)) ∧ SameButCache s s' ∧
      Planned S f s' seq ring := by
  obtain ⟨s', bs, hbodies, hserves, hsame, h'⟩ := stripBodies_ready hf ps s h.ready hps
  refine ⟨s', ?_, hsame, h.sameButCache hsame (h'.bodies.trans h.ready.bodies.symm)
    (h'.bodyHashes.trans h.ready.bodyHashes.symm) h'.cache⟩
  rw [hbodies, serves_eq_map hS hf hserves]

theorem lookup_zip_map {α β : Type} [BEq α] [LawfulBEq α] (F : α → β) (a : α) :
    ∀ l : List α, (l.zip (l.map F)).lookup a = if a ∈ l then some (F a) else none
  | [] => by simp
  | x :: l => by
      have hrest := lookup_zip_map F a l
      rw [List.map_cons, List.zip_cons_cons, List.lookup_cons]
      by_cases hx : a = x
      · simp [hx]
      · rw [beq_false_of_ne hx, hrest]
        simp [hx]

theorem selection_subset (hdock : s.dock = d) (hfits : Fits s f) (plan : Plan) :
    ∀ p ∈ (s.selection plan).1, p ∈ f.coords := by
  have hall : allStripCoords s.dock.geometry s.wPad s.hPad = f.coords := by
    rw [hdock, ← hfits.1, ← hfits.2]
    rfl
  intro p hp
  cases plan with
  | idle => cases hp
  | damage clips => exact hall ▸ damageStripCoords_subset hp
  | keyframe => exact hall ▸ hp

/-- **Encoding a frame** changes only the cache; a frame that comes out carries the surface's own
strips, and one does if they are not too long for a record. -/
theorem encode_spec (hS : HashesDistinct S) {seq : ℕ} {ring : ℕ → ℕ × ℕ → List UInt8}
    (hf : f ∈ S) (h : Planned S f s seq ring) (plan : Plan) (head : UInt8) (fault : Option ℕ) :
    ∃ s' r, s.encode plan f.rgb head fault = (s', r) ∧ SameButCache s s' ∧
      Planned S f s' seq ring ∧
      (∀ frame, r = .ok (some frame) → fault = none ∧
        frame.presentations = (s.selection plan).2 ∧
          ∀ p, carried frame p = if p ∈ (s.selection plan).1 then some (f.body p) else none) ∧
      (fault = none → (s.selection plan).1 ≠ [] →
        (∀ p ∈ f.coords, (f.body p).length ≤ 4062) → ∃ frame, r = .ok (some frame)) := by
  unfold HeadScanout.encode
  dsimp only
  have hsub := selection_subset h.dock h.fits plan
  split_ifs with hempty
  · refine ⟨s, _, rfl, rfl, h, nofun, fun _ hne => ?_⟩
    exact absurd (List.isEmpty_iff.1 hempty) hne
  · cases fault with
    | some n =>
        obtain ⟨s', hbodies, hsame, h'⟩ := stripBodies_spec hS hf
          ((s.selection plan).1.take n) s h fun p hp => hsub p (List.mem_of_mem_take hp)
        dsimp only
        rw [hbodies]
        exact ⟨s', _, rfl, hsame, h', nofun, nofun⟩
    | none =>
        obtain ⟨s', hbodies, hsame, h'⟩ := stripBodies_spec hS hf (s.selection plan).1 s h hsub
        dsimp only
        rw [hbodies]
        dsimp only
        split
        · next e herr =>
            refine ⟨s', _, rfl, hsame, h', nofun, ?_⟩
            intro _ _ hshort
            rcases frameRecordsWithBoundary_spec s'.dock.geometry
              ((s.selection plan).1.map f.body) head none with ⟨⟨b, hb, hlong⟩, -⟩ | ⟨_, -, hok, -⟩
            · obtain ⟨p, hp, rfl⟩ := List.mem_map.1 hb
              exact absurd (hshort p (hsub p hp)) (by omega)
            · rw [frameRecords, hok] at herr
              cases herr
        · next records _ =>
            refine ⟨s', _, rfl, hsame, h', ?_, fun _ _ _ => ⟨_, rfl⟩⟩
            intro frame hframe
            obtain rfl := Option.some.inj (Except.ok.inj hframe)
            exact ⟨rfl, rfl, fun p => lookup_zip_map f.body p _⟩

/-! ### One step -/

/-- Presentations that carry strips of the planned surface spoil nothing. -/
theorem Planned.writes {seq : ℕ} {ring : ℕ → ℕ × ℕ → List UInt8} (h : Planned S f s seq ring)
    {frame : ℕ × ℕ → Option (List UInt8)} (hframe : ∀ p w, frame p = some w → w = f.body p)
    (seqs : ℕ → ℕ) (k : ℕ) :
    Planned S f s seq (Lib.Ring.writes d.dockBuffers ring seqs frame k) := by
  refine ⟨h.dock, h.sized, h.cache, h.fits, h.pending, fun howed => ?_⟩
  obtain ⟨hpaid, hpub⟩ := h.ledger howed
  refine ⟨fun tx htx ty hty => ?_, hpub⟩
  obtain ⟨hle, hrecent⟩ := hpaid tx htx ty hty
  exact ⟨hle, hrecent.writes (hframe _) k⟩

/-- **A step that publishes nothing.** -/
theorem Planned.synced {seq : UInt32} {ring : ℕ → ℕ × ℕ → List UInt8}
    (h : Planned S f s seq.toNat ring) : Synced S ⟨s, seq, ring⟩ := by
  refine ⟨h.dock, h.sized, h.cache, fun howed => ?_⟩
  obtain ⟨hpaid, p, hp, hpfits, hhashes, hcell⟩ := h.ledger howed
  obtain ⟨-, -, htX, htY⟩ := h.fits.tiles hpfits
  refine ⟨p, hp, hpfits, hhashes, fun tx htx ty hty => ?_⟩
  rw [htX] at htx ⊢
  rw [htY] at hty
  obtain ⟨hle, hrecent⟩ := hpaid tx htx ty hty
  refine ⟨hle, ?_⟩
  rcases hcell tx htx ty hty with hfull | hbody
  · rw [hfull, Nat.sub_self]
    exact Recent.zero
  · rw [hbody]
    exact hrecent

/-- A head that has published a surface. -/
theorem synced_presented {seq seq' : UInt32} {ring ring' : ℕ → ℕ × ℕ → List UInt8} (hf : f ∈ S)
    (h : Planned S f s seq.toNat ring) {debt : List ℕ} {owed : Bool}
    (hlen : debt.length = s.debt.length)
    (hpaid : Paid f { s with debt := debt } seq'.toNat ring') :
    Synced S ⟨{ s with debt := debt, keyframeOwed := owed, hashes := s.pending, pending := [] },
      seq', ring'⟩ := by
  have hlen' : s.pending.length = s.hashes.length := by
    rw [h.pending, f.length_hashes, ← h.sized.length_debt h.dock h.fits, h.sized.debt]
  refine ⟨h.dock, ⟨hlen'.trans h.sized.hashes, ?_, ?_, ?_⟩, h.cache,
    fun _ => ⟨f, hf, h.fits, h.pending, hpaid⟩⟩
  · exact hlen.trans (h.sized.debt.trans hlen'.symm)
  · exact h.sized.bodies.trans hlen'.symm
  · exact h.sized.bodyHashes.trans hlen'.symm

/-- The docks' delivery: a keyframe is presented once for each buffer, a delta once, and a change
is charged at least one transmission for each buffer. -/
theorem delivery (hd : d.Known) : d.keyframePresentations = d.dockBuffers ∧
    d.deltaPresentations = 1 ∧ d.dockBuffers ≤ d.damageFrames ∧ 0 < d.dockBuffers := by
  unfold Dock.keyframePresentations Dock.deltaPresentations Dock.dockBuffers Dock.damageFrames
  rcases hd.1 with h | h | h <;> rw [h] <;> decide

/-- The phase of a presentation, as long as the counter does not wrap or wraps in phase. -/
theorem phase {n : ℕ} {seq : UInt32} {r : ℕ} (h : n ∣ 2 ^ 32 ∨ seq.toNat + r < 2 ^ 32) :
    (seq + UInt32.ofNat r).toNat % n = (seq.toNat + r) % n := by
  rw [UInt32.toNat_add, UInt32.toNat_ofNat', Nat.add_mod_mod]
  rcases h with hdvd | hlt
  · exact Nat.mod_mod_of_dvd _ hdvd
  · rw [Nat.mod_eq_of_lt hlt]

/-- **A keyframe** leaves every strip current in every buffer. -/
theorem paid_keyframe (hd : d.Known) {seq seq' : UInt32} {ring : ℕ → ℕ × ℕ → List UInt8}
    {frame : ℕ × ℕ → Option (List UInt8)} (hframe : ∀ p ∈ f.coords, frame p = some (f.body p))
    (hwrap : d.dockBuffers ∣ 2 ^ 32 ∨ seq.toNat + d.dockBuffers ≤ 2 ^ 32) :
    Paid f { s with debt := s.debt.map fun _ => 0 } seq'.toNat
      (writes d.dockBuffers ring (fun r => (seq + UInt32.ofNat r).toNat) frame d.dockBuffers) := by
  obtain ⟨-, -, -, hpos⟩ := delivery hd
  intro tx htx ty hty
  have hzero : (s.debt.map fun _ => 0).getD (ty * f.tilesX + tx) 0 = 0 := by
    simp [List.getD_eq_getElem?_getD]
  refine ⟨by rw [hzero]; exact Nat.zero_le _, All.recent ?_ hpos _ _⟩
  have hphase : ∀ r < d.dockBuffers, (seq + UInt32.ofNat r).toNat % d.dockBuffers =
      (seq.toNat + r) % d.dockBuffers := by
    refine fun r hr => phase ?_
    rcases hwrap with hdvd | hle
    · exact .inl hdvd
    · exact .inr (by omega)
  exact all_of_writes hphase (hframe _ (f.mem_coords.2 ⟨tx, htx, ty, hty, rfl⟩))

/-- **A delta** pays one transmission of every strip that owes some. -/
theorem paid_damage (hd : d.Known) {seq : UInt32} {ring : ℕ → ℕ × ℕ → List UInt8}
    (hpaid : Paid f s seq.toNat ring) {frame : ℕ × ℕ → Option (List UInt8)}
    (hframe : ∀ p w, frame p = some w → w = f.body p)
    (howing : ∀ tx < f.tilesX, ∀ ty < f.tilesY, 0 < s.debt.getD (ty * f.tilesX + tx) 0 →
      frame (tx * d.geometry.stripW, ty * d.geometry.stripH) =
        some (f.body (tx * d.geometry.stripW, ty * d.geometry.stripH)))
    (hwrap : d.dockBuffers ∣ 2 ^ 32 ∨ seq.toNat + 1 < 2 ^ 32) :
    Paid f { s with debt := s.debt.map (· - 1) } (seq + UInt32.ofNat 1).toNat
      (writes d.dockBuffers ring (fun r => (seq + UInt32.ofNat r).toNat) frame 1) := by
  obtain ⟨-, -, hle, hpos⟩ := delivery hd
  intro tx htx ty hty
  obtain ⟨hdebt, hrecent⟩ := hpaid tx htx ty hty
  have hpred : (s.debt.map (· - 1)).getD (ty * f.tilesX + tx) 0 =
      s.debt.getD (ty * f.tilesX + tx) 0 - 1 := by
    simp only [List.getD_eq_getElem?_getD, List.getElem?_map]
    cases s.debt[ty * f.tilesX + tx]? <;> rfl
  have hfirst : (seq + UInt32.ofNat 0).toNat = seq.toNat := by simp
  refine ⟨by rw [hpred]; omega, ?_⟩
  rw [hpred]
  rcases Nat.eq_zero_or_pos (s.debt.getD (ty * f.tilesX + tx) 0) with hzero | howes
  · -- The strip has reached every buffer, and may be sent along with its macro-tile.
    rw [hzero, Nat.sub_zero] at hrecent
    exact All.recent ((hrecent.all hle).write (hframe _) _) hpos _ _
  · have hsent := hrecent.write (howing tx htx ty hty howes)
    rw [show d.damageFrames - s.debt.getD (ty * f.tilesX + tx) 0 + 1 =
      d.damageFrames - (s.debt.getD (ty * f.tilesX + tx) 0 - 1) by omega] at hsent
    have hphase : (seq.toNat + 1) % d.dockBuffers =
        (seq + UInt32.ofNat 1).toNat % d.dockBuffers := (phase hwrap).symm
    refine Recent.congr ?_ hphase
    rw [Lib.Ring.writes, Lib.Ring.writes, hfirst]
    exact hsent

/-- The frame counter does not wrap in the middle of what is owed: a keyframe's presentations end
at the wrap at the latest and a delta's before it, unless the number of buffers divides the range
of the counter. -/
def Unwrapped (d : Dock) (seq : UInt32) (plan : Plan) : Prop :=
  d.dockBuffers ∣ 2 ^ 32 ∨
    match plan with
    | .keyframe => seq.toNat + d.keyframePresentations ≤ 2 ^ 32
    | .damage _ => seq.toNat + d.deltaPresentations < 2 ^ 32
    | .idle => True

/-- A surface is delivered without such a wrap. -/
def NoWrap (st : System) : Event d → Prop
  | .presentRgb f .delivered =>
      Unwrapped d st.frameSeq (st.scanout.plan f.width f.height f.rgb).2
  | _ => True

/-- Every owing strip is among those a delta selects. -/
theorem owing_selected {seq : ℕ} {ring : ℕ → ℕ × ℕ → List UInt8} (h : Planned S f s seq ring)
    {rects : List Clip}
    (hrects : owedRects s.debt f.tilesX f.tilesY d.geometry.stripW d.geometry.stripH = some rects)
    {tx ty : ℕ} (htx : tx < f.tilesX) (hty : ty < f.tilesY)
    (howes : 0 < s.debt.getD (ty * f.tilesX + tx) 0) :
    (tx * d.geometry.stripW, ty * d.geometry.stripH) ∈ (s.selection (.damage rects)).1 := by
  have hcovers := owedRects_covers (stripH_pos _) (stripW_pos _) hrects hty htx howes
  have hmem := mem_damageStripCoords_of_covers f.width_dvd f.height_dvd htx hty hcovers
  unfold HeadScanout.selection
  rw [h.dock, ← h.fits.1, ← h.fits.2]
  exact hmem

/-- **A delivered frame** publishes its surface. -/
theorem synced_delivered (hd : d.Known) {seq : UInt32} {ring : ℕ → ℕ × ℕ → List UInt8}
    (hf : f ∈ S) {plan : Plan} {s' : HeadScanout} (hsame : SameButCache s s')
    (h : Planned S f s' seq.toNat ring) {frame : Frame}
    (hplan : plan = .keyframe ∨ s.keyframeOwed = false ∧
      ∃ rects, owedRects s.debt f.tilesX f.tilesY d.geometry.stripW d.geometry.stripH =
        some rects ∧ plan = if rects = [] then .idle else .damage rects)
    (hcount : frame.presentations = (s.selection plan).2)
    (hcarried : ∀ p, carried frame p =
      if p ∈ (s.selection plan).1 then some (f.body p) else none)
    (hwrap : Unwrapped d seq plan) :
    Synced S ⟨s'.presented plan, seq + UInt32.ofNat frame.presentations,
      writes d.dockBuffers ring (fun r => (seq + UInt32.ofNat r).toNat) (carried frame)
        frame.presentations⟩ := by
  obtain ⟨hkey, hdelta, -, -⟩ := delivery hd
  have hdock : s.dock = s'.dock := by rw [hsame]
  have hw : s.wPad = s'.wPad := by rw [hsame]
  have hh : s.hPad = s'.hPad := by rw [hsame]
  have howed : s.keyframeOwed = s'.keyframeOwed := by rw [hsame]
  have hdebt : s.debt = s'.debt := by rw [hsame]
  have hsel : s.selection plan = s'.selection plan := by
    unfold HeadScanout.selection
    rw [hdock, hw, hh]
  rw [hsel] at hcount hcarried
  rw [howed, hdebt] at hplan
  have hbody : ∀ p w, carried frame p = some w → w = f.body p := by
    intro p w hp
    rw [hcarried p] at hp
    split_ifs at hp
    exact (Option.some.inj hp).symm
  rcases hplan with rfl | ⟨hnotOwed, rects, hrects, rfl⟩
  · have hall : ∀ p ∈ f.coords, carried frame p = some (f.body p) := by
      intro p hp
      rw [hcarried p, if_pos]
      unfold HeadScanout.selection
      rw [h.dock, ← h.fits.1, ← h.fits.2]
      exact hp
    have hn : frame.presentations = d.dockBuffers := by
      rw [hcount, ← hkey, ← h.dock]
      rfl
    rw [hn]
    unfold Unwrapped at hwrap
    rw [hkey] at hwrap
    exact synced_presented hf h (List.length_map ..) (paid_keyframe hd hall hwrap)
  · split_ifs at hwrap hcount hcarried ⊢ with hnil
    · -- An idle plan is presented no times.
      have hzero : seq + UInt32.ofNat 0 = seq := by simp
      rw [hcount]
      show Synced S ⟨s', seq + UInt32.ofNat 0, ring⟩
      rw [hzero]
      exact h.synced
    · have hn : frame.presentations = 1 := by
        rw [hcount, ← hdelta, ← h.dock]
        rfl
      rw [hn]
      unfold Unwrapped at hwrap
      rw [hdelta] at hwrap
      refine synced_presented hf h (List.length_map ..)
        (paid_damage hd (h.ledger hnotOwed).1 hbody (fun tx htx ty hty howes => ?_) hwrap)
      rw [hcarried, if_pos (owing_selected h hrects htx hty howes)]

/-- **One step.** -/
theorem synced_step (hd : d.Known) (hS : HashesDistinct S) (head : UInt8) (st : System)
    (e : Event d) (hst : Synced S st) (hwrap : NoWrap st e)
    (he : ∀ f outcome, e = .presentRgb f outcome → f ∈ S) : Synced S (st.step head e) := by
  cases e with
  | oweKeyframe =>
      refine ⟨hst.dock, ⟨hst.sized.1, hst.sized.2, hst.sized.3, hst.sized.4⟩, hst.cache, ?_⟩
      intro h
      cases h
  | presentRgb f outcome =>
      have hf := he f outcome rfl
      obtain ⟨hplanned, hplan⟩ := plan_spec hS hst hf
      obtain ⟨s', r, henc, hsame, h', hframe, -⟩ := encode_spec hS hf hplanned
        (st.scanout.plan f.width f.height f.rgb).2 head outcome.fault
      unfold System.step System.presentRgb
      dsimp only
      rw [henc]
      split
      · next s1 frame heq =>
          obtain ⟨rfl, rfl⟩ := Prod.mk.inj heq
          obtain ⟨hfault, hcount, hcarried⟩ := hframe frame rfl
          have hbody : ∀ p w, carried frame p = some w → w = f.body p := by
            intro p w hp
            rw [hcarried p] at hp
            split_ifs at hp
            exact (Option.some.inj hp).symm
          cases outcome with
          | transportFails taken =>
              dsimp only
              unfold System.shown
              rw [hst.dock]
              exact (h'.writes hbody _ _).synced
          | encodeFails strips => cases hfault
          | delivered =>
              dsimp only
              unfold System.shown
              rw [hst.dock]
              exact synced_delivered hd hf hsame h' hplan hcount hcarried hwrap
      · next s1 x heq =>
          obtain ⟨rfl, rfl⟩ := Prod.mk.inj heq
          exact h'.synced

/-! ### Runs -/

/-- The surfaces of a run. -/
def surfaces (es : List (Event d)) : List (Surface d) := es.filterMap Event.surface

theorem synced_run (hd : d.Known) (hS : HashesDistinct S) (head : UInt8) (es : List (Event d))
    (st : System) (hst : Synced S st) (hwrap : Along NoWrap (System.step head) st es)
    (hes : ∀ f ∈ surfaces es, f ∈ S) : Synced S (run (System.step head) st es) := by
  have hevents : ∀ e ∈ es, ∀ f outcome, e = Event.presentRgb f outcome → f ∈ S := by
    rintro e he f outcome rfl
    exact hes f (List.mem_filterMap.2 ⟨_, he, rfl⟩)
  exact run_invariant (fun st e hst he => synced_step hd hS head st e hst he.1 he.2) es st hst
    (Along.and es st hwrap hevents)

/-- **The dock's buffers stay coherent.**  On each of the three docks, from a fresh head on
buffers that hold anything, behind every run of presented surfaces with any outcomes and of
keyframes that come to be owed, in which the frame counter does not wrap in the middle of what is
owed: when there is nothing to send for a surface, every buffer holds exactly its strips. -/
theorem idle_coherent (hd : d.Known) (head : UInt8) (frameSeq : UInt32)
    (ring : ℕ → ℕ × ℕ → List UInt8) (es : List (Event d)) (f : Surface d)
    (hhash : HashesDistinct (f :: surfaces es))
    (hwrap : Along NoWrap (System.step head) (System.new d frameSeq ring) es)
    (hidle : ((run (System.step head) (System.new d frameSeq ring) es).scanout.plan f.width
      f.height f.rgb).2 = .idle) :
    ∀ slot < d.dockBuffers, ∀ p ∈ allStripCoords d.geometry f.width f.height,
      encodeStrip d f.width f.rgb p.1 p.2 =
        some ((run (System.step head) (System.new d frameSeq ring) es).ring slot p) := by
  have hst := synced_run hd hhash head es _ (synced_new d (f :: surfaces es) frameSeq ring) hwrap
    fun f' hf' => List.mem_cons_of_mem f hf'
  obtain ⟨hplanned, hplan⟩ := plan_spec hhash hst List.mem_cons_self
  obtain ⟨-, -, hle, -⟩ := delivery hd
  rw [hidle] at hplan
  rcases hplan with hplan | ⟨howed, rects, hrects, hplan⟩
  · cases hplan
  · split_ifs at hplan with hnil
    subst hnil
    intro slot hslot p hp
    obtain ⟨tx, htx, ty, hty, rfl⟩ := f.mem_coords.1 hp
    have hzero := owedRects_nil (stripH_pos _) (stripW_pos _) hrects hty htx
    obtain ⟨-, hrecent⟩ := (hplanned.ledger howed).1 tx htx ty hty
    rw [hzero, Nat.sub_zero] at hrecent
    rw [f.encodeStrip_eq, hrecent.all hle slot hslot]

/-! ### The wrap of the counter -/

theorem plan_owed (howed : s.keyframeOwed = true) (w h : ℕ) (rgb : List UInt8) :
    (s.plan w h rgb).2 = .keyframe := by
  have hresized : ∀ n, (s.resized w h n).keyframeOwed = true := by
    intro n
    unfold HeadScanout.resized
    split_ifs
    · rfl
    · exact howed
  unfold HeadScanout.plan
  dsimp only
  rw [if_pos (hresized _)]

/-- **A keyframe that is owed** is presented in full. -/
theorem presentRgb_owed (hS : HashesDistinct S) (hst : Synced S st)
    (howed : st.scanout.keyframeOwed = true) (hf : f ∈ S) (head : UInt8) (hne : f.coords ≠ [])
    (hshort : ∀ p ∈ f.coords, (f.body p).length ≤ 4062) :
    ∃ s frame, st.presentRgb head f .delivered =
        ⟨s.presented .keyframe, st.frameSeq + UInt32.ofNat d.keyframePresentations,
          st.shown frame d.keyframePresentations⟩ ∧
      Planned S f s st.frameSeq.toNat st.ring ∧
        ∀ p ∈ f.coords, carried frame p = some (f.body p) := by
  obtain ⟨hplanned, -⟩ := plan_spec hS hst hf
  have hplan := plan_owed howed f.width f.height f.rgb
  obtain ⟨s, r, henc, hsame, h, hframe, hout⟩ := encode_spec hS hf hplanned .keyframe head none
  have hsel : ((st.scanout.plan f.width f.height f.rgb).1.selection .keyframe) =
      (f.coords, d.keyframePresentations) := by
    unfold HeadScanout.selection
    rw [hplanned.dock, ← hplanned.fits.1, ← hplanned.fits.2]
    rfl
  rw [hsel] at hframe hout
  obtain ⟨frame, rfl⟩ := hout rfl hne hshort
  obtain ⟨-, hcount, hcarried⟩ := hframe frame rfl
  refine ⟨s, frame, ?_, h, fun p hp => by rw [hcarried p, if_pos hp]⟩
  unfold System.presentRgb
  dsimp only
  rw [hplan]
  show (match (st.scanout.plan f.width f.height f.rgb).1.encode .keyframe f.rgb head none with
    | (s, .ok (some frame)) => _
    | (s, _) => _) = _
  rw [henc]
  dsimp only
  rw [hcount]

theorem owedRects_zero {debt : List ℕ} (hzero : ∀ i, debt.getD i 0 = 0)
    (tilesX tilesY stripW stripH : ℕ) : owedRects debt tilesX tilesY stripW stripH = some [] := by
  unfold owedRects
  simp only [hzero, lt_self_iff_false, decide_false, bandRuns_none, List.foldlM_nil]
  generalize List.range tilesY = l
  induction l with
  | nil => rfl
  | cons _ l ih => simpa using ih

/-- A surface that has just been sent whole leaves nothing to send. -/
theorem plan_presented {seq : ℕ} {ring : ℕ → ℕ × ℕ → List UInt8} (h : Planned S f s seq ring) :
    ((s.presented .keyframe).plan f.width f.height f.rgb).2 = .idle := by
  have hdims : (s.presented .keyframe).dock.stripDims =
      (d.geometry.stripW, d.geometry.stripH) := by
    show s.dock.stripDims = _
    rw [h.dock]
    rfl
  have hresized : (s.presented .keyframe).resized f.width f.height
      (f.width / d.geometry.stripW * (f.height / d.geometry.stripH)) =
        s.presented .keyframe := by
    have hlen : (s.presented .keyframe).hashes.length =
        f.width / d.geometry.stripW * (f.height / d.geometry.stripH) := by
      show s.pending.length = _
      rw [h.pending]
      exact f.length_hashes
    unfold HeadScanout.resized
    exact if_neg (by simpa [hlen] using ⟨h.fits.1.symm, h.fits.2.symm⟩)
  unfold HeadScanout.plan
  rw [hdims]
  dsimp only
  rw [hresized, if_neg (by simp [HeadScanout.presented])]
  have hcharged : ∀ i, (HeadScanout.charged { s.presented .keyframe with
      pending := f.hashes }).getD i 0 = 0 := by
    intro i
    simp [HeadScanout.charged, HeadScanout.presented, h.pending, List.getD_eq_getElem?_getD]
  have hrects := owedRects_zero hcharged (f.width / d.geometry.stripW)
    (f.height / d.geometry.stripH) d.geometry.stripW d.geometry.stripH
  unfold Surface.hashes at hrects
  rw [hrects]

/-- A dock with three buffers, driven at ten bits. -/
def navarro : Dock := ⟨profileNavarro, false, true⟩

theorem known_navarro : navarro.Known := ⟨.inr (.inr rfl), fun _ => rfl⟩

/-- A surface of one evenly grey strip. -/
def grey (v : UInt8) : Surface navarro where
  width := 128
  height := 8
  rgb := List.replicate 3072 v
  width_dvd := by decide
  height_dvd := by decide
  size := List.length_replicate

theorem coords_grey (v : UInt8) : (grey v).coords = [(0, 0)] := by
  show allStripCoords navarro.geometry 128 8 = _
  decide

/-- A byte at ten bits. -/
def widened (v : UInt8) : UInt16 := v.toUInt16 <<< 2 ||| v.toUInt16 >>> 6

theorem body_grey (v : UInt8) : (grey v).body (0, 0) =
    colourStrip navarro.geometry (List.replicate 16 (greyBlock (widened v).toNat)) 0 0 := by
  have hconst : colourStripAt navarro.geometry 0 0 (rgbReader true 128 (List.replicate 3072 v)) =
      colourStripAt navarro.geometry 0 0 fun _ _ => (widened v, widened v, widened v) := by
    refine colourStripAt_congr fun dx hdx dy hdy => ?_
    have hx : dx < 128 := hdx
    have hy : dy < 8 := hdy
    have hbyte : ∀ j < 3, (List.replicate 3072 v).getD (((0 + dy) * 128 + (0 + dx)) * 3 + j) 0 =
        v := by
      intro j hj
      exact List.getD_replicate _ (by omega)
    have h0 := hbyte 0 (by omega)
    rw [Nat.add_zero] at h0
    simp only [rgbReader, h0, hbyte 1 (by omega), hbyte 2 (by omega), if_true, widened]
  have hblocks := colourStripBlocks_grey (g := navarro.geometry) (toNat_widen_le v)
    (fun _ _ => rfl) 0 0
  show (colourStripAt navarro.geometry 0 0 (rgbReader true 128 (List.replicate 3072 v))).getD [] = _
  rw [hconst, colourStripAt]
  unfold widened
  rw [hblocks]
  rfl

theorem strips_grey :
    colourStrip navarro.geometry (List.replicate 16 (greyBlock (widened 0).toNat)) 0 0 ≠
      colourStrip navarro.geometry (List.replicate 16 (greyBlock (widened 255).toNat)) 0 0 ∧
    (colourStrip navarro.geometry (List.replicate 16 (greyBlock (widened 0).toNat)) 0 0).length
      ≤ 4062 ∧
    (colourStrip navarro.geometry (List.replicate 16 (greyBlock (widened 255).toNat)) 0 0).length
      ≤ 4062 := by
  decide +kernel

theorem hash_grey : stripHash 0 0 (stripLines (List.replicate 3072 0) 128 128 8 0 0) ≠
    stripHash 0 0 (stripLines (List.replicate 3072 255) 128 128 8 0 0) := by
  decide +kernel

/-- Black and white are told apart. -/
theorem hashesDistinct_grey {S : List (Surface navarro)}
    (hS : ∀ f ∈ S, f = grey 0 ∨ f = grey 255) : HashesDistinct S := by
  intro f hf f' hf' hw hh tx htx ty hty heq
  have h1 : ∀ f ∈ S, f.tilesX = 1 ∧ f.tilesY = 1 := by
    intro f hf
    rcases hS f hf with rfl | rfl <;> exact ⟨rfl, rfl⟩
  obtain rfl : tx = 0 := by have := h1 f hf; omega
  obtain rfl : ty = 0 := by have := h1 f hf; omega
  rcases hS f hf with rfl | rfl <;> rcases hS f' hf' with rfl | rfl
  · rfl
  · exact absurd heq hash_grey
  · exact absurd heq.symm hash_grey
  · rfl

/-- A keyframe that is owed and delivered. -/
def round (f : Surface navarro) : List (Event navarro) := [.oweKeyframe, .presentRgb f .delivered]

theorem surface_of_mem_round {f f' : Surface navarro} {e : Event navarro} (he : e ∈ round f)
    (hf : e.surface = some f') : f' = f := by
  rcases List.mem_cons.1 he with rfl | he
  · cases hf
  · obtain rfl := List.mem_singleton.1 he
    exact (Option.some.inj hf).symm

section Rounds

variable {S : List (Surface navarro)} {f : Surface navarro} (hS : ∀ f ∈ S, f = grey 0 ∨ f = grey 255)
include hS

theorem round_spec (hf : f ∈ S) (hst : Synced S st) :
    ∃ s frame, run (System.step 0) st (round f) =
        ⟨s.presented .keyframe, st.frameSeq + 3, st.shown frame 3⟩ ∧
      Planned S f s st.frameSeq.toNat st.ring ∧ carried frame (0, 0) = some (f.body (0, 0)) := by
  obtain ⟨hne, h0, h255⟩ := strips_grey
  have hcoords : f.coords = [(0, 0)] := by
    rcases hS f hf with rfl | rfl <;> exact coords_grey _
  have hshort : ∀ p ∈ f.coords, (f.body p).length ≤ 4062 := by
    rw [hcoords]
    intro p hp
    obtain rfl := List.mem_singleton.1 hp
    rcases hS f hf with rfl | rfl
    · rw [body_grey]
      exact h0
    · rw [body_grey]
      exact h255
  have hDistinct := hashesDistinct_grey hS
  have howe := synced_step known_navarro hDistinct 0 st .oweKeyframe hst trivial nofun
  obtain ⟨s, frame, hrun, hplanned, hcarried⟩ := presentRgb_owed hDistinct howe rfl hf 0
    (by rw [hcoords]; exact List.cons_ne_nil _ _) hshort
  exact ⟨s, frame, hrun, hplanned, hcarried (0, 0) (by rw [hcoords]; exact List.mem_cons_self)⟩

/-- A round in which the counter does not wrap reaches every buffer. -/
theorem synced_round (hf : f ∈ S) (hst : Synced S st) (hseq : st.frameSeq.toNat + 3 ≤ 2 ^ 32) :
    Synced S (run (System.step 0) st (round f)) ∧
      All 3 (run (System.step 0) st (round f)).ring (0, 0) (f.body (0, 0)) := by
  have hDistinct := hashesDistinct_grey hS
  have howe := synced_step known_navarro hDistinct 0 st .oweKeyframe hst trivial nofun
  have hwrap : NoWrap (st.step 0 (.oweKeyframe : Event navarro)) (.presentRgb f .delivered) := by
    show Unwrapped navarro st.frameSeq (st.scanout.oweKeyframe.plan f.width f.height f.rgb).2
    rw [plan_owed rfl]
    exact .inr hseq
  refine ⟨synced_step known_navarro hDistinct 0 _ _ howe hwrap ?_, ?_⟩
  · rintro f' outcome ⟨⟩
    exact hf
  · obtain ⟨s, frame, hrun, -, hcarried⟩ := round_spec hS hf hst
    rw [hrun]
    unfold System.shown
    rw [hst.dock]
    have hphase : ∀ r < 3, (st.frameSeq + UInt32.ofNat r).toNat % 3 =
        (st.frameSeq.toNat + r) % 3 := fun r hr => phase (.inr (by omega))
    exact all_of_writes hphase hcarried

/-- Rounds in which the counter does not wrap. -/
theorem synced_rounds (hf : f ∈ S) (st : System) (hst : Synced S st) (hseq : st.frameSeq = 0) :
    ∀ n, 3 * n ≤ 2 ^ 32 →
      let st' := run (System.step 0) st (List.replicate n (round f)).flatten
      Synced S st' ∧ st'.frameSeq = UInt32.ofNat (3 * n) ∧
        (0 < n → All 3 st'.ring (0, 0) (f.body (0, 0))) := by
  intro n
  induction n with
  | zero => exact fun _ => ⟨hst, hseq, fun h => absurd h (by omega)⟩
  | succ n ih =>
      intro hn
      obtain ⟨hprev, hcount, -⟩ := ih (by omega)
      have hround : (run (System.step 0) st (List.replicate n (round f)).flatten).frameSeq.toNat +
          3 ≤ 2 ^ 32 := by
        rw [hcount, UInt32.toNat_ofNat', Nat.mod_eq_of_lt (by omega)]
        omega
      obtain ⟨hsynced, hall⟩ := synced_round hS hf hprev hround
      obtain ⟨s, frame, hrun, -, -⟩ := round_spec hS hf hprev
      dsimp only
      rw [List.replicate_succ', List.flatten_append, List.flatten_singleton, run_append]
      refine ⟨hsynced, ?_, fun _ => hall⟩
      rw [hrun]
      dsimp only
      rw [hcount, Nat.mul_succ, UInt32.ofNat_add]
      rfl

end Rounds

/-- One black keyframe on buffers that held nothing. -/
theorem idle_coherent_sample :
    encodeStrip navarro 128 (List.replicate 3072 0) 0 0 = some
      ((run (System.step 0) (System.new navarro 0 fun _ _ => []) (round (grey 0))).ring 2
        (0, 0)) := by
  have hS : ∀ f ∈ [grey 0], f = grey 0 ∨ f = grey 255 := by simp
  obtain ⟨s, frame, hrun, hplanned, -⟩ := round_spec hS List.mem_cons_self
    (synced_new navarro [grey 0] 0 fun _ _ => [])
  have hwrap : Along NoWrap (System.step 0) (System.new navarro 0 fun _ _ => []) (round (grey 0)) := by
    refine ⟨trivial, ?_, trivial⟩
    show Unwrapped navarro 0 ((HeadScanout.new navarro).oweKeyframe.plan 128 8 (grey 0).rgb).2
    rw [plan_owed rfl]
    exact .inr (by decide)
  have hmem : (0, 0) ∈ (grey 0).coords := by
    rw [coords_grey]
    exact List.mem_cons_self
  refine idle_coherent known_navarro 0 0 _ (round (grey 0)) (grey 0) ?_ hwrap ?_ 2 (by decide) (0, 0)
    hmem
  · refine hashesDistinct_grey fun f hf => .inl ?_
    rcases List.mem_cons.1 hf with rfl | hf
    · rfl
    · obtain ⟨e, he, hef⟩ := List.mem_filterMap.1 hf
      exact surface_of_mem_round he hef
  · rw [hrun]
    exact plan_presented hplanned

/-- **A keyframe across the wrap.**  From a fresh head at sequence zero, 1431655765 black keyframes
of three presentations bring the counter to `2 ^ 32 - 1`.  The presentations of the white keyframe
that follows carry `2 ^ 32 - 1`, `0` and `1`, whose phases are 0, 0 and 1: buffer 2 stays black,
and there is nothing left to send. -/
theorem wrapped_keyframe_incoherent :
    ¬∀ (d : Dock), d.Known → ∀ (head : UInt8) (ring : ℕ → ℕ × ℕ → List UInt8)
      (es : List (Event d)) (f : Surface d), HashesDistinct (f :: surfaces es) →
      ((run (System.step head) (System.new d 0 ring) es).scanout.plan f.width f.height f.rgb).2 =
        .idle →
      ∀ slot < d.dockBuffers, ∀ p ∈ allStripCoords d.geometry f.width f.height,
        encodeStrip d f.width f.rgb p.1 p.2 =
          some ((run (System.step head) (System.new d 0 ring) es).ring slot p) := by
  intro h
  obtain ⟨n, hn⟩ : ∃ n, 3 * n = 4294967295 := ⟨1431655765, by norm_num⟩
  have hS : ∀ f ∈ [grey 0, grey 255], f = grey 0 ∨ f = grey 255 := by simp
  obtain ⟨hsynced, hcount, hall⟩ := synced_rounds hS List.mem_cons_self
    (System.new navarro 0 fun _ _ => []) (synced_new navarro _ 0 _) rfl n (by omega)
  generalize hst : run (System.step 0) (System.new navarro 0 fun _ _ => [])
    (List.replicate n (round (grey 0))).flatten = st at hsynced hcount hall
  obtain ⟨s, frame, hrun, hplanned, hcarried⟩ :=
    round_spec hS (List.mem_cons_of_mem _ List.mem_cons_self) hsynced
  have hfinal : run (System.step 0) (System.new navarro 0 fun _ _ => [])
      ((List.replicate n (round (grey 0))).flatten ++ round (grey 255)) =
        run (System.step 0) st (round (grey 255)) := by
    rw [← hst, run_append]
  have hdistinct : HashesDistinct (grey 255 ::
      surfaces ((List.replicate n (round (grey 0))).flatten ++ round (grey 255))) := by
    refine hashesDistinct_grey fun f hf => ?_
    rcases List.mem_cons.1 hf with rfl | hf
    · exact .inr rfl
    · obtain ⟨e, he, hef⟩ := List.mem_filterMap.1 hf
      rcases List.mem_append.1 he with he | he
      · obtain ⟨l, hl, hel⟩ := List.mem_flatten.1 he
        obtain rfl := List.eq_of_mem_replicate hl
        exact .inl (surface_of_mem_round hel hef)
      · exact .inr (surface_of_mem_round he hef)
  have hidle := plan_presented hplanned
  have hmem : (0, 0) ∈ (grey 255).coords := by
    rw [coords_grey]
    exact List.mem_cons_self
  have hbad := h navarro known_navarro 0 _ _ (grey 255) hdistinct
    (by rw [hfinal, hrun]; exact hidle) 2 (by decide) (0, 0) hmem
  -- None of the three phases is 2.
  have hphase : ∀ r < 3, 2 ≠ (UInt32.ofNat 4294967295 + UInt32.ofNat r).toNat % 3 := by decide
  have hskip : ∀ k ≤ 3, writes 3 st.ring (fun r => (st.frameSeq + UInt32.ofNat r).toNat)
      (carried frame) k 2 (0, 0) = st.ring 2 (0, 0) := by
    intro k hk
    induction k with
    | zero => rfl
    | succ k ih =>
        rw [Lib.Ring.writes, write, if_neg (by rw [hcount, hn]; exact hphase k (by omega))]
        exact ih (by omega)
  have hblack : (st.shown frame 3) 2 (0, 0) = (grey 0).body (0, 0) := by
    unfold System.shown
    rw [hsynced.dock]
    exact (hskip 3 le_rfl).trans (hall (by omega) 2 (by omega))
  rw [hfinal, hrun, (grey 255).encodeStrip_eq] at hbad
  have hsame := (Option.some.inj hbad).trans hblack
  rw [body_grey, body_grey] at hsame
  exact strips_grey.1 hsame.symm

end Vino.Coherence
