import Vino.Kms.Delivery

/-!
# The Damage Ledger

The hash baseline, the debts and the keyframe bit of a connector together say which buffers of the
dock hold which strips.  A strip with a debt of `k` is in the buffers of all but the last `k` of the
presentations that are to carry it; a keyframe is in all of them.

* `ledger_coherent`: in every run in which frames are selected while no colour update and no
  activation is under way, under settings that are current, none of them begins while a frame is
  sent in full, a frame sent in full without being owed is not stopped, and frames keep the format
  of the baseline they are compared with, whenever nothing is selected every buffer holds every
  strip of the snapshot,
* `recolour_under_keyframe`: a colour update that meets a keyframe on its way is lost.
-/

namespace Vino.Kms.Ledger

open Vino.Haar.Transform (Depth)
open Vino.Haar.Strip (Geometry colourStrip)
open Vino.Haar.Range (greyBlock)
open Vino.Color Vino.Profile Vino.Damage Vino.Lib.Ring Vino.Lib.Run
open Vino.Scanout (Clip allStripCoords)
open Vino.Kms.Shadow (Rotation)
open Vino.Kms.Sources Vino.Kms.Selection Vino.Kms.Delivery

/-! ### Lists of debts -/

theorem getD_charge {D : ℕ} {old new : List UInt64} {debt : List ℕ}
    (hold : old.length = debt.length) (hnew : new.length = debt.length) {i : ℕ}
    (hi : i < debt.length) :
    (charge D old new debt).getD i 0 = if old[i]? = new[i]? then debt.getD i 0 else D := by
  have ho : i < old.length := by omega
  have hn : i < new.length := by omega
  have hzip : (old.zip new)[i]? = some (old[i], new[i]) :=
    List.getElem?_zip_eq_some.2 ⟨List.getElem?_eq_getElem ho, List.getElem?_eq_getElem hn⟩
  simp only [charge, List.getD_eq_getElem?_getD, List.getElem?_zipWith, hzip,
    List.getElem?_eq_getElem hi, List.getElem?_eq_getElem ho, List.getElem?_eq_getElem hn,
    Option.some.injEq]
  split_ifs <;> rfl

theorem length_charge {D : ℕ} {old new : List UInt64} {debt : List ℕ}
    (hold : old.length = debt.length) (hnew : new.length = debt.length) :
    (charge D old new debt).length = debt.length := by
  simp [charge, hold, hnew]

theorem not_ne_self (h : UInt64) : ~~~h ≠ h := by
  intro heq
  have htoNat := congrArg UInt64.toNat heq
  rw [UInt64.toNat_not] at htoNat
  have hlt := h.toNat_lt
  simp only [UInt64.size] at htoNat
  omega

/-- An owing strip differs from the baseline. -/
theorem owedBaseline_ne {debt : List ℕ} {new : List UInt64} (hlength : debt.length = new.length)
    {i : ℕ} (howes : 0 < debt.getD i 0) : (owedBaseline debt new)[i]? ≠ new[i]? := by
  have hi : i < debt.length := by
    by_contra hge
    rw [List.getD_eq_default _ _ (Nat.le_of_not_lt hge)] at howes
    exact absurd howes (Nat.lt_irrefl 0)
  have hn : i < new.length := by omega
  rw [List.getD_eq_getElem _ _ hi] at howes
  simp only [owedBaseline, List.getElem?_zipWith, List.getElem?_eq_getElem hi,
    List.getElem?_eq_getElem hn, if_pos howes, ne_eq, Option.some.injEq]
  exact not_ne_self _

theorem getD_payDamageDebt (full : Bool) (debt : List ℕ) (i : ℕ) :
    (payDamageDebt full debt).getD i 0 = if full then 0 else debt.getD i 0 - 1 := by
  unfold payDamageDebt
  cases full <;> simp only [if_true, Bool.false_eq_true, if_false, List.getD_eq_getElem?_getD,
    List.getElem?_map] <;> cases debt[i]? <;> rfl

theorem length_payDamageDebt (full : Bool) (debt : List ℕ) :
    (payDamageDebt full debt).length = debt.length := by
  unfold payDamageDebt
  split_ifs <;> simp

/-! ### The docks -/

/-- The docks the driver knows. -/
def KnownDock (p : DockProfile) : Prop := p = profileElla ∨ p = profileRidge ∨ p = profileNavarro

def buffers (p : DockProfile) : ℕ := p.protocol.dockBuffers.toNat

/-- A keyframe reaches every buffer, a delta is presented once, and a change is carried by as many
frames as there are buffers. -/
theorem delivery {p : DockProfile} (hp : KnownDock p) (training : Bool) :
    buffers p ≤ framePresentationCount p true training ∧
      framePresentationCount p false training = 1 ∧ buffers p ≤ damageFrames p ∧ 0 < buffers p := by
  rcases hp with rfl | rfl | rfl <;> cases training <;> decide

section Ledger

variable (p : DockProfile) (xxh64 : List UInt8 → UInt64 → UInt64)

/-! ### What the dock holds -/

/-- The debt of a strip. -/
def debtOf (s : State) (i : ℕ) : ℕ := (s.dirtyTtl.getD []).getD i 0

/-- The strips of a frame. -/
def strips (f : Frame) : List (ℕ × ℕ) :=
  allStripCoords p.geometry (f.paddedWidth p) (f.paddedHeight p)

/-- The buffers of the presentations a strip has paid for hold it. -/
def Holds (s : State) (f : Frame) : Prop :=
  ∀ q ∈ strips p f, ∃ b, f.encode p q = some b ∧ debtOf s (f.index p q) ≤ damageFrames p ∧
    Recent (buffers p) s.ring s.seq (damageFrames p - debtOf s (f.index p q)) q b

/-- The frame has the transform in force, on a dock programmed at depth `d`. -/
structure Under (color : Option ColorPipeline) (d : Depth) (f : Frame) : Prop where
  color : f.src.color = color
  depth : f.src.depth = d
  geometryDepth : f.geometryDepth = d

/-- The frame can be compared with the baseline strip by strip. -/
structure Comparable (c : StripHashState) (f : Frame) : Prop where
  identity : f.identity = true
  width : c.paddedWidth = f.paddedWidth p
  height : c.paddedHeight = f.paddedHeight p
  sourceDepth : c.sourceDepth = f.src.sourceDepth

/-- The frame is what the baseline shows. -/
structure Shows (S : List Snapshot) (c : StripHashState) (f : Frame) : Prop where
  comparable : Comparable p c f
  snapshot : f.src.snapshot ∈ S
  hashes : c.hashes = f.hashes p xxh64

/-- The debts fit the baseline, or there are none. -/
def Fits (s : State) (n : ℕ) : Prop :=
  ∀ t, s.dirtyTtl = some t → t.length = n ∨ ∀ i, t.getD i 0 = 0

/-- The baseline, if there is one, is what the dock holds. -/
def Baseline (S : List Snapshot) (s : State) (d : Depth) : Prop :=
  ∀ c, s.stripHashes = some c → ∃ f, Shows p xxh64 S c f ∧ Under s.color d f ∧ Holds p s f ∧
    Fits s c.hashes.length

/-- Every strip of the frame that differs from the baseline is charged. -/
def Charged (s : State) (f : Frame) : Prop :=
  ∃ c t, s.stripHashes = some c ∧ Comparable p c f ∧ s.dirtyTtl = some t ∧
    t.length = (f.hashes p xxh64).length ∧
    ∀ i < t.length, c.hashes[i]? ≠ (f.hashes p xxh64)[i]? → t.getD i 0 = damageFrames p

/-- A presented delta has paid one transmission more than its debts say. -/
def Presented (s : State) (f : Frame) : Prop :=
  ∀ q ∈ strips p f, ∃ b, f.encode p q = some b ∧ debtOf s (f.index p q) ≤ damageFrames p ∧
    Recent (buffers p) s.ring s.seq (damageFrames p - (debtOf s (f.index p q) - 1)) q b

/-! ### Where the worker stands -/

/-- Past the gates with the selection open, or sending in full. -/
def Job.committed : Job → Bool
  | .checked _ _ | .selected _ true _ | .sending _ true _ _ _ | .paid _ true _ | .published true =>
      true
  | _ => false

/-- A frame on its way in full, on a dock programmed at depth `d`. -/
def FullOk (S : List Snapshot) (s : State) (d : Depth) : Option Job → Prop
  | some (.checked f _) | some (.selected f true _) => Under s.color d f
  | some (.sending f true sent n left) => Under s.color d f ∧ buffers p ≤ n + left ∧
      (f.identity = true → ∀ q ∈ strips p f, ∃ b, f.encode p q = some b ∧ sent.lookup q = some b ∧
        Recent (buffers p) s.ring s.seq n q b)
  | some (.paid f true _) => Under s.color d f ∧
      (f.identity = true → Holds p s f ∧ Fits s (f.hashes p xxh64).length)
  | some (.published true) => Baseline p xxh64 S s d
  | _ => True

/-- What the ledger says as long as nothing else is owed. -/
def CalmOk (S : List Snapshot) (s : State) (d : Depth) : Option Job → Prop
  | some (.selected f false damage) => Baseline p xxh64 S s d ∧ Under s.color d f ∧
      Charged p xxh64 s f ∧ ∀ q ∈ strips p f, 0 < debtOf s (f.index p q) →
        q ∈ f.coords p false damage
  | some (.sending f false sent _ left) => f.identity = true ∧ Under s.color d f ∧
      (∃ t, s.dirtyTtl = some t ∧ t.length = (f.hashes p xxh64).length) ∧
      if left = 0 then Presented p s f
      else left = 1 ∧ Baseline p xxh64 S s d ∧ Charged p xxh64 s f ∧
        ∀ q ∈ strips p f, 0 < debtOf s (f.index p q) →
          ∃ b, f.encode p q = some b ∧ sent.lookup q = some b
  | some (.paid f false _) => f.identity = true ∧ Under s.color d f ∧ Holds p s f ∧
      Fits s (f.hashes p xxh64).length
  | some (.sending _ true _ n _) => n = 0 → Baseline p xxh64 S s d
  | some (.paid _ true _) | some (.published true) => True
  | _ => Baseline p xxh64 S s d

/-- Nothing is owed, and nobody is about to owe. -/
structure Quiet (s : State) : Prop where
  keyframe : s.keyframePending = false
  recolour : s.recolour = none
  activation : s.activation = none

structure Inv (S : List Snapshot) (K : List (Option ColorPipeline)) (s : State) : Prop where
  sound : Sound p xxh64 S K s
  lit : s.lit = true → s.active = some s.depth
  owed : ∀ a, s.activation = some a → a ≠ .active → s.keyframePending = true
  still : ∀ job, s.job = some job → Job.committed job = true →
    s.recolour = none ∧ s.activation = none
  read : ∀ f owes, s.job = some (.checked f owes) → s.keyframePending = owes
  full : ∀ d, s.active = some d → FullOk p xxh64 S s d s.job
  calm : ∀ d, s.active = some d → Quiet s → CalmOk p xxh64 S s d s.job

/-! ### Undisturbed runs -/

/-- No colour update and no activation is under way when a frame passes the gates, and its settings
are the current ones; none of them begins while a selection is open or a frame is sent in full; a
frame has the format of the baseline it is compared with, and the settings of the cache it uses; a
frame that is sent in full although none is owed is not stopped once it has written something. -/
def Settled (s : State) : Event → Prop
  | .check => ∀ f, s.job = some (.sized f) → s.lit = true →
      s.recolour = none ∧ s.activation = none ∧ Under s.color s.depth f
  | .updateColor _ | .activate _ _ => ∀ job, s.job = some job → Job.committed job = false
  | .select => ∀ f owes c, s.job = some (.checked f owes) → s.baseline p f owes = some c →
      c.sourceDepth = f.src.sourceDepth
  | .encode training => Matched p xxh64 s (.encode training)
  | .fail _ => ∀ f sent n left, s.job = some (.sending f true sent n left) →
      s.keyframePending = true ∨ s.stripHashes = none
  | .abandon => ∀ f sent n left, s.job = some (.sending f true sent n left) → n ≠ 0 →
      s.keyframePending = true ∨ s.stripHashes = none
  | _ => True

/-- The frame is given up because no keyframe is owed and no strip is selected. -/
def Idles (s : State) (f : Frame) : Prop :=
  ∃ c, s.job = some (.checked f false) ∧ s.baseline p f false = some c ∧
    changedStripRects p.geometry (f.paddedWidth p) (f.paddedHeight p)
      (owedBaseline (charge (damageFrames p) c.hashes (f.hashes p xxh64)
        (s.debts (f.hashes p xxh64).length)) (f.hashes p xxh64)) (f.hashes p xxh64) = some []

/-- Every buffer holds every strip of the snapshot, under the transform in force and at depth
`d`. -/
def Coherent (s : State) (f : Frame) (d : Depth) : Prop :=
  ∀ slot < buffers p, ∀ q ∈ strips p f,
    encodeStrip p.geometry d { f.src with color := s.color, depth := d } q = some (s.ring slot q)

end Ledger

/-! ### Steps beside the frame -/

section Steps

variable {p : DockProfile} {xxh64 : List UInt8 → UInt64 → UInt64} {S : List Snapshot}
  {K : List (Option ColorPipeline)} {s s' : State} {d : Depth}

theorem fullOk_of_not_committed {job : Option Job}
    (hjob : ∀ j, job = some j → Job.committed j = false) : FullOk p xxh64 S s d job := by
  cases job with
  | none => trivial
  | some j =>
      have hj := hjob j rfl
      cases j with
      | sourced src => trivial
      | sized f => trivial
      | checked f owes => cases hj
      | selected f full damage =>
          cases full
          · trivial
          · cases hj
      | sending f full sent n left =>
          cases full
          · trivial
          · cases hj
      | paid f full sent =>
          cases full
          · trivial
          · cases hj
      | published full =>
          cases full
          · trivial
          · cases hj

/-- A step while no frame is committed and somebody is about to owe. -/
theorem inv_disturb (hsound : Sound p xxh64 S K s')
    (hjob : s'.job = s.job) (hnot : ∀ j, s.job = some j → Job.committed j = false)
    (hlit : s'.lit = true → s'.active = some s'.depth)
    (howed : ∀ a, s'.activation = some a → a ≠ .active → s'.keyframePending = true)
    (hloud : ¬ Quiet s') : Inv p xxh64 S K s' where
  sound := hsound
  lit := hlit
  owed := howed
  still := fun j hj hc => by
    rw [hjob] at hj
    rw [hnot j hj] at hc
    cases hc
  read := fun f owes hj => by
    rw [hjob] at hj
    cases hnot _ hj
  full := fun d _ => fullOk_of_not_committed (by rwa [hjob])
  calm := fun d _ hq => absurd hq hloud

theorem Inv.not_committed_of_recolour (hs : Inv p xxh64 S K s) (h : s.recolour ≠ none) :
    ∀ j, s.job = some j → Job.committed j = false := by
  intro j hj
  by_contra hc
  exact h (hs.still j hj (by simpa using hc)).1

theorem Inv.not_committed_of_activation (hs : Inv p xxh64 S K s) (h : s.activation ≠ none) :
    ∀ j, s.job = some j → Job.committed j = false := by
  intro j hj
  by_contra hc
  exact h (hs.still j hj (by simpa using hc)).2

theorem inv_recolourStep (hs : Inv p xxh64 S K s)
    (hsound : Sound p xxh64 S K (step p xxh64 s .recolourStep)) :
    Inv p xxh64 S K (step p xxh64 s .recolourStep) := by
  simp only [step] at hsound ⊢
  split at hsound
  case h_1 hr =>
    exact inv_disturb hsound rfl (hs.not_committed_of_recolour (by simp [hr])) hs.lit hs.owed
      fun hq => by cases hq.recolour
  case h_2 hr =>
    exact inv_disturb hsound rfl (hs.not_committed_of_recolour (by simp [hr])) hs.lit hs.owed
      fun hq => by cases hq.recolour
  case h_3 hr =>
    exact inv_disturb hsound rfl (hs.not_committed_of_recolour (by simp [hr])) hs.lit
      (fun _ _ _ => rfl) fun hq => by cases hq.keyframe
  case h_4 => exact hs

theorem inv_activationStep (hs : Inv p xxh64 S K s)
    (hsound : Sound p xxh64 S K (step p xxh64 s .activationStep)) :
    Inv p xxh64 S K (step p xxh64 s .activationStep) := by
  simp only [step] at hsound ⊢
  split at hsound
  case h_1 ha =>
    exact inv_disturb hsound rfl (hs.not_committed_of_activation (by simp [ha])) hs.lit
      (fun _ _ _ => rfl) fun hq => by cases hq.activation
  case h_2 ha =>
    exact inv_disturb hsound rfl (hs.not_committed_of_activation (by simp [ha])) hs.lit
      (fun _ _ _ => hs.owed _ ha (by simp)) fun hq => by cases hq.activation
  case h_3 ha =>
    exact inv_disturb hsound rfl (hs.not_committed_of_activation (by simp [ha])) hs.lit
      (fun _ _ _ => hs.owed _ ha (by simp)) fun hq => by cases hq.activation
  case h_4 ha =>
    refine inv_disturb hsound rfl (hs.not_committed_of_activation (by simp [ha])) hs.lit
      (fun a h => by cases h) fun hq => ?_
    have hkey : s.keyframePending = false := hq.keyframe
    rw [hs.owed _ ha (by simp)] at hkey
    cases hkey
  case h_5 => exact hs

theorem inv_carrier (hs : Inv p xxh64 S K s) {content : ℕ × ℕ → Option (List UInt8)}
    (hsound : Sound p xxh64 S K (step p xxh64 s (.carrier content))) :
    Inv p xxh64 S K (step p xxh64 s (.carrier content)) := by
  simp only [step] at hsound ⊢
  split at hsound
  case h_1 ha =>
    exact inv_disturb hsound rfl (hs.not_committed_of_activation (by simp [ha])) hs.lit hs.owed
      fun hq => by
        have hnone : s.activation = none := hq.activation
        rw [ha] at hnone
        cases hnone
  case h_2 hactive _ =>
    refine ⟨hsound, hs.lit, hs.owed, hs.still, hs.read, fun d hd => ?_, fun d hd => ?_⟩
    · have hd' : s.active = some d := hd
      rw [hactive] at hd'
      cases hd'
    · have hd' : s.active = some d := hd
      rw [hactive] at hd'
      cases hd'
  case h_3 => exact hs

/-! ### Selection -/

theorem length_debts (s : State) (n : ℕ) : (s.debts n).length = n := by
  unfold State.debts
  split
  · split_ifs with hlength
    · exact hlength
    · exact List.length_replicate
  · exact List.length_replicate

theorem getD_debts {n : ℕ} (hfits : Fits s n) (i : ℕ) : (s.debts n).getD i 0 = debtOf s i := by
  have hzero : (List.replicate n 0).getD i 0 = 0 := by
    rw [List.getD_eq_getElem?_getD, List.getElem?_replicate]
    split_ifs <;> rfl
  unfold State.debts debtOf
  split
  case h_1 t ht =>
    rw [ht]
    split_ifs with hlength
    · rfl
    · rw [hzero]
      exact (((hfits t ht).resolve_left hlength) i).symm
  case h_2 hnone =>
    rw [hnone, hzero]
    rfl

variable {c : StripHashState} {f r : Frame}

theorem Shows.width_eq (hr : Shows p xxh64 S c r) (hf : Comparable p c f) :
    r.paddedWidth p = f.paddedWidth p := hr.comparable.width.symm.trans hf.width

theorem Shows.strips_eq (hr : Shows p xxh64 S c r) (hf : Comparable p c f) :
    strips p r = strips p f := by
  rw [strips, strips, hr.width_eq hf, ← hr.comparable.height, hf.height]

theorem Shows.index_eq (hr : Shows p xxh64 S c r) (hf : Comparable p c f) (q : ℕ × ℕ) :
    r.index p q = f.index p q := by
  rw [Frame.index, Frame.index, hr.width_eq hf]

/-- A strip that has not moved encodes to what the baseline's does. -/
theorem Shows.encode_eq (hS : HashesDistinct p.geometry xxh64 S) (hr : Shows p xxh64 S c r)
    (hf : Comparable p c f) {color : Option ColorPipeline} (hru : Under color d r)
    (hfu : Under color d f) (hsnapshot : f.src.snapshot ∈ S) {q : ℕ × ℕ} (hq : q ∈ strips p f)
    (hhash : c.hashes[f.index p q]? = (f.hashes p xxh64)[f.index p q]?) :
    r.encode p q = f.encode p q := by
  have hq' : q ∈ strips p r := by rwa [hr.strips_eq hf]
  have hstrip : r.src.snapshot.stripHash p.geometry xxh64 q.1 q.2 =
      f.src.snapshot.stripHash p.geometry xxh64 q.1 q.2 := by
    rw [hr.hashes, getElem?_hashes hf.identity hq, ← hr.index_eq hf,
      getElem?_hashes hr.comparable.identity hq'] at hhash
    exact Option.some.inj hhash
  rw [Frame.encode, Frame.encode, hru.geometryDepth, hfu.geometryDepth]
  exact encodeStrip_congr hr.comparable.identity hf.identity (hru.color.trans hfu.color.symm)
    (hru.depth.trans hfu.depth.symm) (hr.comparable.sourceDepth.symm.trans hf.sourceDepth)
    (hS _ hr.snapshot _ hsnapshot _ _ hstrip)

theorem index_lt {q : ℕ × ℕ} (hf : f.identity = true) (hq : q ∈ strips p f) :
    f.index p q < (f.hashes p xxh64).length :=
  List.getElem?_eq_some_iff.1 (getElem?_hashes hf hq) |>.1

/-- **Charging** keeps what the ledger says, and covers what has moved. -/
theorem Baseline.charge (hbase : Baseline p xxh64 S s d) (hc : s.stripHashes = some c)
    (hf : Comparable p c f) (hhashes : s'.stripHashes = s.stripHashes) (hcolor : s'.color = s.color)
    (hring : s'.ring = s.ring) (hseq : s'.seq = s.seq)
    (httl : s'.dirtyTtl = some (Delivery.charge (damageFrames p) c.hashes (f.hashes p xxh64)
      (s.debts (f.hashes p xxh64).length))) :
    Baseline p xxh64 S s' d ∧ Charged p xxh64 s' f := by
  obtain ⟨r, hr, hru, hholds, hfits⟩ := hbase c hc
  have hlength : c.hashes.length = (f.hashes p xxh64).length := by
    rw [hr.hashes, length_hashes hr.comparable.identity, length_hashes hf.identity,
      hr.width_eq hf, ← hr.comparable.height, hf.height]
  have hdebts := length_debts s (f.hashes p xxh64).length
  have hcharged := length_charge (D := damageFrames p) (hlength.trans hdebts.symm) hdebts.symm
  have hgetD : ∀ i < (f.hashes p xxh64).length, debtOf s' i =
      if c.hashes[i]? = (f.hashes p xxh64)[i]? then debtOf s i else damageFrames p := by
    intro i hi
    rw [debtOf, httl, Option.getD_some, getD_charge (hlength.trans hdebts.symm) hdebts.symm
      (by omega), getD_debts (hlength ▸ hfits)]
  constructor
  · intro c' hc'
    rw [hhashes, hc] at hc'
    obtain rfl := Option.some.inj hc'
    refine ⟨r, hr, hcolor ▸ hru, fun q hq => ?_, fun t ht => ?_⟩
    · obtain ⟨b, hb, hle, hrecent⟩ := hholds q hq
      have hi : r.index p q < (f.hashes p xxh64).length := by
        rw [← hlength, hr.hashes]
        exact index_lt hr.comparable.identity hq
      refine ⟨b, hb, ?_⟩
      rw [hgetD _ hi, hring, hseq]
      split_ifs
      · exact ⟨hle, hrecent⟩
      · rw [Nat.sub_self]
        exact ⟨le_rfl, Recent.zero⟩
    · rw [httl] at ht
      obtain rfl := Option.some.inj ht
      exact .inl (by rw [hcharged, hdebts, hlength])
  · refine ⟨c, _, hhashes.trans hc, hf, httl, hcharged.trans hdebts, fun i hi hne => ?_⟩
    rw [hcharged, hdebts] at hi
    have h := hgetD i hi
    rw [debtOf, httl, Option.getD_some, if_neg hne] at h
    exact h

/-- Every owing strip is among those selected. -/
theorem mem_coords_of_owes {t : List ℕ} {damage : List Clip}
    (hlength : t.length = (f.hashes p xxh64).length)
    (hrects : changedStripRects p.geometry (f.paddedWidth p) (f.paddedHeight p)
      (owedBaseline t (f.hashes p xxh64)) (f.hashes p xxh64) = some damage) {q : ℕ × ℕ}
    (hq : q ∈ strips p f) (howes : 0 < t.getD (f.index p q) 0) : q ∈ f.coords p false damage := by
  have hw : p.geometry.stripW ∣ f.paddedWidth p := dvd_padded _ _
  have hh : p.geometry.stripH ∣ f.paddedHeight p := dvd_padded _ _
  have hne := owedBaseline_ne hlength howes
  obtain ⟨tx, htx, ty, hty, rfl, hi⟩ := index_of_mem hw hh hq
  rw [Frame.index, hi] at hne
  exact mem_damageStripCoords hw hh hrects htx hty hne

/-- Without a rectangle no strip owes anything. -/
theorem debt_of_idle {t : List ℕ} (hlength : t.length = (f.hashes p xxh64).length)
    (hrects : changedStripRects p.geometry (f.paddedWidth p) (f.paddedHeight p)
      (owedBaseline t (f.hashes p xxh64)) (f.hashes p xxh64) = some []) {q : ℕ × ℕ}
    (hq : q ∈ strips p f) : t.getD (f.index p q) 0 = 0 := by
  have hw : p.geometry.stripW ∣ f.paddedWidth p := dvd_padded _ _
  have hh : p.geometry.stripH ∣ f.paddedHeight p := dvd_padded _ _
  obtain ⟨tx, htx, ty, hty, rfl, hi⟩ := index_of_mem hw hh hq
  by_contra hne
  have h := owedBaseline_ne hlength (Nat.pos_of_ne_zero hne)
  rw [Frame.index, hi] at h
  exact h (changedStripRects_nil hrects htx hty)

theorem baseline_eq_some {owes : Bool} (hc : s.baseline p f owes = some c) :
    owes = false ∧ f.identity = true ∧ s.stripHashes = some c ∧
      c.paddedWidth = f.paddedWidth p ∧ c.paddedHeight = f.paddedHeight p := by
  unfold State.baseline at hc
  split_ifs at hc with hfull
  obtain ⟨howes, hid⟩ : owes = false ∧ f.identity = true := by simpa using hfull
  obtain ⟨hsome, hdims⟩ := Option.filter_eq_some_iff.1 hc
  simp only [Bool.and_eq_true, decide_eq_true_eq] at hdims
  exact ⟨howes, hid, hsome, hdims⟩

/-- A frame that is given up, or has not written anything. -/
theorem Inv.leave (hs : Inv p xxh64 S K s) (hsound : Sound p xxh64 S K s') (hjob : s'.job = none)
    (hlit : s'.lit = s.lit) (hdepth : s'.depth = s.depth) (hactive : s'.active = s.active)
    (hactivation : s'.activation = s.activation) (hrecolour : s'.recolour = s.recolour)
    (hkey : s'.keyframePending = s.keyframePending)
    (hbase : ∀ d, s.active = some d → Quiet s → Baseline p xxh64 S s' d) : Inv p xxh64 S K s' where
  sound := hsound
  lit := fun h => by rw [hactive, hdepth]; exact hs.lit (hlit ▸ h)
  owed := fun a ha hne => by rw [hkey]; exact hs.owed a (hactivation ▸ ha) hne
  still := fun j hj => by rw [hjob] at hj; cases hj
  read := fun g owes hj => by rw [hjob] at hj; cases hj
  full := fun d _ => by rw [hjob]; trivial
  calm := fun d hd hq => by
    rw [hjob]
    exact hbase d (hactive ▸ hd) ⟨hkey ▸ hq.keyframe, hrecolour ▸ hq.recolour,
      hactivation ▸ hq.activation⟩

theorem inv_select (hs : Inv p xxh64 S K s) {owes : Bool} (hjob : s.job = some (.checked f owes))
    (hformat : ∀ c, s.baseline p f owes = some c → c.sourceDepth = f.src.sourceDepth)
    (hsound : Sound p xxh64 S K (s.select p xxh64 f owes)) :
    Inv p xxh64 S K (s.select p xxh64 f owes) := by
  have hstill := hs.still _ hjob rfl
  have hunder : ∀ d, s.active = some d → Under s.color d f := by
    intro d hd
    have h := hs.full d hd
    rwa [hjob] at h
  have hbase : ∀ d, s.active = some d → Quiet s → Baseline p xxh64 S s d := by
    intro d hd hq
    have h := hs.calm d hd hq
    rwa [hjob] at h
  unfold State.select at hsound ⊢
  split at hsound
  case h_1 =>
    refine ⟨hsound, hs.lit, hs.owed, fun j hj _ => hstill, fun g owes' hj => ?_, hunder,
      fun d hd hq => hbase d hd ⟨hq.keyframe, hq.recolour, hq.activation⟩⟩
    cases hj
  case h_2 c hc =>
    obtain ⟨-, hid, hsome, hwidth, hheight⟩ := baseline_eq_some hc
    have hf : Comparable p c f := ⟨hid, hwidth, hheight, hformat c hc⟩
    have hcharge : ∀ d job, s.active = some d → Quiet s → Baseline p xxh64 S { s with
        dirtyTtl := some (Delivery.charge (damageFrames p) c.hashes (f.hashes p xxh64)
          (s.debts (f.hashes p xxh64).length))
        job := job } d ∧ Charged p xxh64 { s with
          dirtyTtl := some (Delivery.charge (damageFrames p) c.hashes (f.hashes p xxh64)
            (s.debts (f.hashes p xxh64).length))
          job := job } f :=
      fun d job hd hq => (hbase d hd hq).charge hsome hf rfl rfl rfl rfl rfl
    dsimp only at hsound ⊢
    split at hsound
    case h_1 =>
      exact hs.leave hsound rfl rfl rfl rfl rfl rfl rfl fun d hd hq => (hcharge d none hd hq).1
    case h_2 =>
      exact hs.leave hsound rfl rfl rfl rfl rfl rfl rfl fun d hd hq => (hcharge d none hd hq).1
    case h_3 damage hne hrects =>
      refine ⟨hsound, hs.lit, hs.owed, fun j hj hcommitted => ?_, fun g owes' hj => ?_,
        fun _ _ => trivial, fun d hd hq => ?_⟩
      · cases hj
        cases hcommitted
      · cases hj
      · obtain ⟨hbase', hcharged⟩ := hcharge d (some (.selected f false damage)) hd
          ⟨hq.keyframe, hq.recolour, hq.activation⟩
        refine ⟨hbase', hunder d hd, hcharged, fun q hq howes => ?_⟩
        obtain ⟨c', t, -, -, ht, hlength, -⟩ := hcharged
        obtain rfl := Option.some.inj ht
        exact mem_coords_of_owes hlength hrects hq howes

/-! ### Encoding -/

theorem lookup_zip_of_mapM {α β : Type} [BEq α] [LawfulBEq α] {F : α → Option β} :
    ∀ {l : List α} {bs : List β}, l.mapM F = some bs → ∀ q ∈ l,
      ∃ b, (l.zip bs).lookup q = some b ∧ F q = some b
  | [], _, _, q, hq => by cases hq
  | a :: l, bs, hl, q, hq => by
      rw [List.mapM_cons] at hl
      obtain ⟨b, hb, hrest⟩ := Option.bind_eq_some_iff.1 hl
      obtain ⟨bs', hbs', hcons⟩ := Option.bind_eq_some_iff.1 hrest
      obtain rfl : b :: bs' = bs := by simpa using hcons
      by_cases heq : q = a
      · subst heq
        exact ⟨b, by simp, hb⟩
      · obtain ⟨b', hlookup, hb'⟩ :=
          lookup_zip_of_mapM hbs' q ((List.mem_cons.1 hq).resolve_left heq)
        refine ⟨b', ?_, hb'⟩
        have hne : (q == a) = false := by simpa using heq
        rw [List.zip_cons_cons, List.lookup_cons, hne]
        exact hlookup

theorem mem_of_lookup {α β : Type} [BEq α] [LawfulBEq α] {q : α} {b : β} :
    ∀ {l : List (α × β)}, l.lookup q = some b → (q, b) ∈ l
  | [], h => by cases h
  | (a, b') :: l, h => by
      rw [List.lookup_cons] at h
      split at h
      case h_1 heq =>
        obtain rfl := Option.some.inj h
        rw [eq_of_beq heq]
        exact List.mem_cons_self
      case h_2 => exact List.mem_cons_of_mem _ (mem_of_lookup h)

theorem inv_encode (hp : KnownDock p) (hS : HashesDistinct p.geometry xxh64 S)
    (hK : TagsDistinct xxh64 K) (hs : Inv p xxh64 S K s) {full training : Bool}
    {damage : List Clip} (hjob : s.job = some (.selected f full damage))
    (hmatch : Matches p xxh64 s.stripHashes f)
    (hsound : Sound p xxh64 S K (s.encode p xxh64 f full damage training)) :
    Inv p xxh64 S K (s.encode p xxh64 f full damage training) := by
  have hknown : Known S K f.src := by
    have h := hs.sound.job
    rwa [hjob] at h
  have hbase : ∀ d, s.active = some d → Quiet s → Baseline p xxh64 S s d := by
    intro d hd hq
    have h := hs.calm d hd hq
    rw [hjob] at h
    cases full
    · exact h.1
    · exact h
  unfold State.encode at hsound ⊢
  dsimp only at hsound ⊢
  split at hsound
  case h_1 => exact hs.leave hsound rfl rfl rfl rfl rfl rfl rfl hbase
  case h_2 => exact hs.leave hsound rfl rfl rfl rfl rfl rfl rfl hbase
  case h_3 bodies hne hbodies =>
    have hlookup : ∀ q ∈ f.coords p full damage, ∃ b, f.encode p q = some b ∧
        ((f.coords p full damage).zip bodies).lookup q = some b := by
      intro q hq
      obtain ⟨b, hb, hbody⟩ := lookup_zip_of_mapM hbodies q hq
      rw [body_eq hS hK hs.sound.cache hmatch hknown (coords_subset f full damage hq)] at hbody
      exact ⟨b, hbody, hb⟩
    obtain ⟨hkeyframe, hdelta, -, -⟩ := delivery hp training
    refine ⟨hsound, hs.lit, hs.owed, fun j hj hcommitted => hs.still _ hjob ?_,
      fun g owes hj => ?_, fun d hd => ?_, fun d hd hq => ?_⟩
    · cases hj
      cases full
      · cases hcommitted
      · rfl
    · cases hj
    · cases full
      · trivial
      · have hunder := hs.full d hd
        rw [hjob] at hunder
        refine ⟨hunder, by omega, fun _ q hq => ?_⟩
        obtain ⟨b, hb, hmem⟩ := hlookup q hq
        exact ⟨b, hb, hmem, Recent.zero⟩
    · have hquiet : Quiet s := ⟨hq.keyframe, hq.recolour, hq.activation⟩
      cases full
      · have h := hs.calm d hd hquiet
        rw [hjob] at h
        obtain ⟨hbase', hunder, hcharged, howed⟩ := h
        obtain ⟨c, t, hc, hf, ht, hlength, hmoved⟩ := hcharged
        refine ⟨hf.identity, hunder, ⟨t, ht, hlength⟩, ?_⟩
        rw [hdelta, if_neg (by omega)]
        exact ⟨rfl, hbase', ⟨c, t, hc, hf, ht, hlength, hmoved⟩, fun q hq howes =>
          hlookup q (howed q hq howes)⟩
      · exact fun _ => hbase d hd hquiet

/-! ### Presentations -/

/-- What a delta carries of a strip is what the strip encodes to. -/
theorem Inv.carried (hs : Inv p xxh64 S K s) {full : Bool}
    {sent : List ((ℕ × ℕ) × List UInt8)} {n left : ℕ}
    (hjob : s.job = some (.sending f full sent n left)) {q : ℕ × ℕ} {w : List UInt8}
    (hw : sent.lookup q = some w) : f.encode p q = some w := by
  have h := hs.sound.job
  rw [hjob] at h
  exact (h.2.2 _ (mem_of_lookup hw)).2

theorem presented_delta (hp : KnownDock p) (hS : HashesDistinct p.geometry xxh64 S)
    (hs : Inv p xxh64 S K s) {sent : List ((ℕ × ℕ) × List UInt8)} {n left : ℕ}
    (hjob : s.job = some (.sending f false sent n left)) (hbase : Baseline p xxh64 S s d)
    (hunder : Under s.color d f) (hcharged : Charged p xxh64 s f)
    (howed : ∀ q ∈ strips p f, 0 < debtOf s (f.index p q) →
      ∃ b, f.encode p q = some b ∧ sent.lookup q = some b)
    (hring : s'.ring = s.presented p fun q => sent.lookup q) (hseq : s'.seq = s.seq + 1)
    (httl : s'.dirtyTtl = s.dirtyTtl) : Presented p s' f := by
  obtain ⟨-, -, hle, hpos⟩ := delivery hp false
  obtain ⟨c, t, hc, hf, ht, hlength, hmoved⟩ := hcharged
  obtain ⟨r, hr, hru, hholds, -⟩ := hbase c hc
  have hsnapshot : f.src.snapshot ∈ S := by
    have h := hs.sound.job
    rw [hjob] at h
    exact h.1.1
  intro q hq
  have hdebt : debtOf s' (f.index p q) = debtOf s (f.index p q) := by rw [debtOf, debtOf, httl]
  rw [hdebt, hring, hseq]
  by_cases hsame : c.hashes[f.index p q]? = (f.hashes p xxh64)[f.index p q]?
  · obtain ⟨b, hb, hk, hrecent⟩ := hholds q (by rwa [hr.strips_eq hf])
    rw [hr.index_eq hf] at hk hrecent
    rw [hr.encode_eq hS hf hru hunder hsnapshot hq hsame] at hb
    refine ⟨b, hb, hk, ?_⟩
    rcases Nat.eq_zero_or_pos (debtOf s (f.index p q)) with hzero | howes
    · -- The strip has reached every buffer, and may be sent along with its macro-tile.
      rw [hzero, Nat.sub_zero] at hrecent
      refine All.recent ((hrecent.all hle).write (fun w hw => ?_) _) hpos _ _
      have hw' := hs.carried hjob hw
      rw [hb] at hw'
      exact (Option.some.inj hw').symm
    · obtain ⟨b', hb', hlookup⟩ := howed q hq howes
      obtain rfl : b = b' := Option.some.inj (hb.symm.trans hb')
      have hwritten : Recent (buffers p) (s.presented p fun q => sent.lookup q) (s.seq + 1)
          (damageFrames p - debtOf s (f.index p q) + 1) q b := hrecent.write hlookup
      rwa [show damageFrames p - debtOf s (f.index p q) + 1 =
        damageFrames p - (debtOf s (f.index p q) - 1) by omega] at hwritten
  · have hfull : debtOf s (f.index p q) = damageFrames p := by
      have hi : f.index p q < t.length := by
        rw [hlength]
        exact index_lt hf.identity hq
      rw [debtOf, ht]
      exact hmoved _ hi hsame
    obtain ⟨b, hb, hlookup⟩ := howed q hq (by omega)
    refine ⟨b, hb, by omega, ?_⟩
    have hwritten : Recent (buffers p) (s.presented p fun q => sent.lookup q) (s.seq + 1) (0 + 1) q
      b := Recent.zero.write hlookup
    rwa [show damageFrames p - (debtOf s (f.index p q) - 1) = 0 + 1 by omega]

theorem inv_present (hp : KnownDock p) (hS : HashesDistinct p.geometry xxh64 S)
    (hs : Inv p xxh64 S K s) (hsound : Sound p xxh64 S K (step p xxh64 s .present)) :
    Inv p xxh64 S K (step p xxh64 s .present) := by
  simp only [step] at hsound ⊢
  split at hsound
  case h_2 => exact hs
  case h_1 f full sent n left hjob =>
    refine ⟨hsound, hs.lit, hs.owed, fun j hj hcommitted => hs.still _ hjob ?_,
      fun g owes hj => ?_, fun d hd => ?_, fun d hd hq => ?_⟩
    · cases hj
      cases full
      · cases hcommitted
      · rfl
    · cases hj
    · cases full
      · trivial
      · have h := hs.full d hd
        rw [hjob] at h
        obtain ⟨hunder, hcount, hcarried⟩ := h
        refine ⟨hunder, by omega, fun hid q hq => ?_⟩
        obtain ⟨b, hb, hlookup, hrecent⟩ := hcarried hid q hq
        have hwritten : Recent (buffers p) (s.presented p fun q => sent.lookup q) (s.seq + 1)
          (n + 1) q b := hrecent.write hlookup
        exact ⟨b, hb, hlookup, hwritten⟩
    · have hquiet : Quiet s := ⟨hq.keyframe, hq.recolour, hq.activation⟩
      cases full
      · have h := hs.calm d hd hquiet
        rw [hjob] at h
        obtain ⟨hid, hunder, hlength, hrest⟩ := h
        rw [if_neg (by omega)] at hrest
        obtain ⟨hleft, hbase, hcharged, howed⟩ := hrest
        obtain rfl : left = 0 := by omega
        refine ⟨hid, hunder, hlength, ?_⟩
        rw [if_pos rfl]
        exact presented_delta hp hS hs hjob hbase hunder hcharged howed rfl rfl rfl
      · exact fun h => absurd h (Nat.succ_ne_zero n)

/-- **A presentation that fails** leaves what the ledger says of a delta's strips. -/
theorem Baseline.fail (hS : HashesDistinct p.geometry xxh64 S) (hs : Inv p xxh64 S K s)
    {sent : List ((ℕ × ℕ) × List UInt8)} {n left : ℕ} {delivered : List (ℕ × ℕ)}
    (hjob : s.job = some (.sending f false sent n left)) (hbase : Baseline p xxh64 S s d)
    (hunder : Under s.color d f) (hcharged : Charged p xxh64 s f) :
    Baseline p xxh64 S { s with
      ring := s.presented p fun q => if q ∈ delivered then sent.lookup q else none
      job := none } d := by
  obtain ⟨c, t, hc, hf, ht, hlength, hmoved⟩ := hcharged
  have hsnapshot : f.src.snapshot ∈ S := by
    have h := hs.sound.job
    rw [hjob] at h
    exact h.1.1
  intro c' hc'
  obtain ⟨r, hr, hru, hholds, hfits⟩ := hbase c' hc'
  obtain rfl : c = c' := Option.some.inj (hc.symm.trans hc')
  refine ⟨r, hr, hru, fun q hq => ?_, hfits⟩
  have hq' : q ∈ strips p f := by rwa [← hr.strips_eq hf]
  obtain ⟨b, hb, hk, hrecent⟩ := hholds q hq
  refine ⟨b, hb, hk, ?_⟩
  by_cases hsame : c.hashes[f.index p q]? = (f.hashes p xxh64)[f.index p q]?
  · refine hrecent.rewrite (fun w hw => ?_) s.seq
    split_ifs at hw
    have hw' := hs.carried hjob hw
    rw [← hr.encode_eq hS hf hru hunder hsnapshot hq' hsame, hb] at hw'
    exact (Option.some.inj hw').symm
  · have hfull : debtOf s (f.index p q) = damageFrames p := by
      have hi : f.index p q < t.length := by
        rw [hlength]
        exact index_lt hf.identity hq'
      rw [debtOf, ht]
      exact hmoved _ hi hsame
    have hzero : damageFrames p - debtOf s (r.index p q) = 0 := by
      rw [hr.index_eq hf, hfull, Nat.sub_self]
    have hstate : ∀ ring job, debtOf { s with ring := ring, job := job } (r.index p q) =
      debtOf s (r.index p q) := fun _ _ => rfl
    rw [hstate, hzero]
    exact Recent.zero

theorem inv_fail (hS : HashesDistinct p.geometry xxh64 S) (hs : Inv p xxh64 S K s)
    {delivered : List (ℕ × ℕ)} (hsettled : Settled p xxh64 s (.fail delivered))
    (hsound : Sound p xxh64 S K (step p xxh64 s (.fail delivered))) :
    Inv p xxh64 S K (step p xxh64 s (.fail delivered)) := by
  simp only [step] at hsound ⊢
  split at hsound
  case h_2 => exact hs
  case h_1 f full sent n left hjob =>
    refine hs.leave hsound rfl rfl rfl rfl rfl rfl rfl fun d hd hq => ?_
    cases full
    · have h := hs.calm d hd hq
      rw [hjob] at h
      obtain ⟨-, hunder, -, hrest⟩ := h
      rw [if_neg (by omega)] at hrest
      obtain ⟨-, hbase, hcharged, -⟩ := hrest
      exact hbase.fail hS hs hjob hunder hcharged
    · intro c hc
      have hcache : s.stripHashes = some c := hc
      rcases hsettled f sent n _ hjob with hkey | hnone
      · rw [hq.keyframe] at hkey
        cases hkey
      · rw [hnone] at hcache
        cases hcache

/-! ### Booking the frame -/

theorem debtOf_pay {full : Bool} (httl : s'.dirtyTtl = s.dirtyTtl.map (payDamageDebt full))
    (i : ℕ) : debtOf s' i = if full then 0 else debtOf s i - 1 := by
  rw [debtOf, debtOf, httl]
  cases s.dirtyTtl with
  | none => cases full <;> rfl
  | some t => exact getD_payDamageDebt full t i

theorem inv_pay (hp : KnownDock p) (hs : Inv p xxh64 S K s)
    (hsound : Sound p xxh64 S K (step p xxh64 s .pay)) :
    Inv p xxh64 S K (step p xxh64 s .pay) := by
  obtain ⟨-, -, hle, hpos⟩ := delivery hp false
  simp only [step] at hsound ⊢
  split at hsound
  case h_2 => exact hs
  case h_1 f full sent n hjob =>
    refine ⟨hsound, hs.lit, hs.owed, fun j hj hcommitted => hs.still _ hjob ?_,
      fun g owes hj => ?_, fun d hd => ?_, fun d hd hq => ?_⟩
    · cases hj
      cases full
      · cases hcommitted
      · rfl
    · cases hj
    · cases full
      · trivial
      · have h := hs.full d hd
        rw [hjob] at h
        obtain ⟨hunder, hcount, hcarried⟩ := h
        refine ⟨hunder, fun hid => ⟨fun q hq => ?_, fun t ht => .inr fun i => ?_⟩⟩
        · obtain ⟨b, hb, -, hrecent⟩ := hcarried hid q hq
          refine ⟨b, hb, ?_⟩
          rw [debtOf_pay rfl, if_pos rfl]
          exact ⟨Nat.zero_le _, All.recent (hrecent.all (by omega)) hpos _ _⟩
        · obtain ⟨t', -, rfl⟩ := Option.map_eq_some_iff.1 ht
          rw [getD_payDamageDebt, if_pos rfl]
    · cases full
      · have h := hs.calm d hd ⟨hq.keyframe, hq.recolour, hq.activation⟩
        rw [hjob] at h
        obtain ⟨hid, hunder, ⟨t, ht, hlength⟩, hpresented⟩ := h
        rw [if_pos rfl] at hpresented
        refine ⟨hid, hunder, fun q hq => ?_, fun t' ht' => .inl ?_⟩
        · obtain ⟨b, hb, hk, hrecent⟩ := hpresented q hq
          refine ⟨b, hb, ?_⟩
          rw [debtOf_pay rfl]
          exact ⟨by simp only [Bool.false_eq_true, if_false]; omega, hrecent⟩
        · obtain ⟨t'', ht'', rfl⟩ := Option.map_eq_some_iff.1 ht'
          rw [ht] at ht''
          obtain rfl := Option.some.inj ht''
          rw [length_payDamageDebt, hlength]
      · trivial

/-- **Publishing** makes the frame the baseline. -/
theorem baseline_publish (hs : Sound p xxh64 S K s) {full : Bool}
    {sent : List ((ℕ × ℕ) × List UInt8)} (hjob : s.job = some (.paid f full sent)) {allocated : ℕ}
    (hunder : Under s.color d f)
    (hholds : f.identity = true → Holds p s f ∧ Fits s (f.hashes p xxh64).length)
    (hcache : s'.stripHashes = f.publish p xxh64 s.stripHashes sent allocated)
    (hcolor : s'.color = s.color) (hring : s'.ring = s.ring) (hseq : s'.seq = s.seq)
    (httl : s'.dirtyTtl = s.dirtyTtl) : Baseline p xxh64 S s' d := by
  have hsnapshot : f.src.snapshot ∈ S := by
    have h := hs.job
    rw [hjob] at h
    exact h.1.1
  intro c hc
  rw [hcache, Frame.publish] at hc
  split_ifs at hc with hid
  obtain rfl := Option.some.inj hc
  obtain ⟨hholds, hfits⟩ := hholds hid
  refine ⟨f, ⟨⟨hid, rfl, rfl, rfl⟩, hsnapshot, rfl⟩, hcolor ▸ hunder, fun q hq => ?_,
    fun t ht => hfits t (httl ▸ ht)⟩
  rw [debtOf, httl, hring, hseq]
  exact hholds q hq

theorem inv_publish (hs : Inv p xxh64 S K s) {allocated : ℕ}
    (hsound : Sound p xxh64 S K (step p xxh64 s (.publish allocated))) :
    Inv p xxh64 S K (step p xxh64 s (.publish allocated)) := by
  simp only [step] at hsound ⊢
  split at hsound
  case h_2 => exact hs
  case h_1 f full sent hjob =>
    refine ⟨hsound, hs.lit, hs.owed, fun j hj hcommitted => hs.still _ hjob ?_,
      fun g owes hj => ?_, fun d hd => ?_, fun d hd hq => ?_⟩
    · cases hj
      cases full
      · cases hcommitted
      · rfl
    · cases hj
    · cases full
      · trivial
      · have h := hs.full d hd
        rw [hjob] at h
        exact baseline_publish hs.sound hjob h.1 h.2 rfl rfl rfl rfl rfl
    · cases full
      · have h := hs.calm d hd ⟨hq.keyframe, hq.recolour, hq.activation⟩
        rw [hjob] at h
        obtain ⟨hid, hunder, hholds, hfits⟩ := h
        exact baseline_publish hs.sound hjob hunder (fun _ => ⟨hholds, hfits⟩) rfl rfl rfl rfl rfl
      · trivial

theorem inv_clear (hs : Inv p xxh64 S K s)
    (hsound : Sound p xxh64 S K (step p xxh64 s .clear)) :
    Inv p xxh64 S K (step p xxh64 s .clear) := by
  simp only [step] at hsound ⊢
  split at hsound
  case h_2 => exact hs
  case h_1 full hjob =>
    cases full
    · have hkey : (s.keyframePending && !false) = s.keyframePending := by simp
      exact hs.leave hsound rfl rfl rfl rfl rfl rfl hkey fun d hd hq => by
        have h := hs.calm d hd hq
        rwa [hjob] at h
    · obtain ⟨-, hactivation⟩ := hs.still _ hjob rfl
      refine ⟨hsound, hs.lit, fun a ha => ?_, fun j hj => ?_, fun g owes hj => ?_,
        fun _ _ => trivial, fun d hd _ => ?_⟩
      · have ha' : s.activation = some a := ha
        rw [hactivation] at ha'
        cases ha'
      · cases hj
      · cases hj
      · have h := hs.full d hd
        rwa [hjob] at h

theorem inv_abandon (hs : Inv p xxh64 S K s) (hsettled : Settled p xxh64 s .abandon)
    (hsound : Sound p xxh64 S K (step p xxh64 s .abandon)) :
    Inv p xxh64 S K (step p xxh64 s .abandon) := by
  simp only [step] at hsound ⊢
  split at hsound
  case h_4 hsending hpaid hpublished =>
    refine hs.leave hsound rfl rfl rfl rfl rfl rfl rfl fun d hd hq => ?_
    have h := hs.calm d hd hq
    cases hj : s.job with
    | none =>
        rw [hj] at h
        exact h
    | some j =>
        rw [hj] at h
        cases j with
        | sourced src => exact h
        | sized f => exact h
        | checked f owes => exact h
        | selected f full damage =>
            cases full
            · exact h.1
            · exact h
        | sending f full sent n left =>
            cases full
            · obtain ⟨-, -, -, hrest⟩ := h
              have hleft : left ≠ 0 := by
                rintro rfl
                exact hsending f false sent n hj
              rw [if_neg hleft] at hrest
              exact hrest.2.1
            · by_cases hn : n = 0
              · exact h hn
              · intro c hc
                have hcache : s.stripHashes = some c := hc
                rcases hsettled f sent n left hj hn with hkey | hnone
                · rw [hq.keyframe] at hkey
                  cases hkey
                · rw [hnone] at hcache
                  cases hcache
        | paid f full sent => exact absurd hj (hpaid f full sent)
        | published full => exact absurd hj (hpublished full)
  all_goals exact hs

/-! ### Runs -/

theorem inv_check (hs : Inv p xxh64 S K s) (hsettled : Settled p xxh64 s .check)
    (hsound : Sound p xxh64 S K (step p xxh64 s .check)) :
    Inv p xxh64 S K (step p xxh64 s .check) := by
  simp only [step] at hsound ⊢
  split at hsound
  case h_2 => exact hs
  case h_1 f hjob =>
    have hbase : ∀ d, s.active = some d → Quiet s → Baseline p xxh64 S s d := by
      intro d hd hq
      have h := hs.calm d hd hq
      rwa [hjob] at h
    split_ifs at hsound ⊢ with hlit
    · obtain ⟨hrecolour, hactivation, hunder⟩ := hsettled f hjob hlit
      refine ⟨hsound, hs.lit, hs.owed, fun j _ _ => ⟨hrecolour, hactivation⟩, fun g owes hj => ?_,
        fun d hd => ?_, fun d hd hq => hbase d hd ⟨hq.keyframe, hq.recolour, hq.activation⟩⟩
      · cases hj
        rfl
      · obtain rfl : s.depth = d := Option.some.inj ((hs.lit hlit).symm.trans hd)
        exact hunder
    · exact hs.leave hsound rfl rfl rfl rfl rfl rfl rfl hbase

theorem matched_of_settled {e : Event} (h : Settled p xxh64 s e) : Matched p xxh64 s e := by
  cases e with
  | encode training => exact h
  | _ => trivial

/-- A step that changes nothing the ledger looks at. -/
theorem Inv.keep (hs : Inv p xxh64 S K s) (hsound : Sound p xxh64 S K s') {lit : Bool}
    {depth connectorDepth : Depth}
    (heq : s' = { s with lit := lit, depth := depth, connectorDepth := connectorDepth })
    (hlit : lit = true → s.active = some depth) : Inv p xxh64 S K s' := by
  subst heq
  exact ⟨hsound, hlit, hs.owed, hs.still, hs.read, hs.full,
    fun d hd hq => hs.calm d hd ⟨hq.keyframe, hq.recolour, hq.activation⟩⟩

/-- A step that clears `modeset_active`. -/
theorem Inv.darken (hs : Inv p xxh64 S K s) (hsound : Sound p xxh64 S K s')
    (hactive : s'.active = none) (hlit : s'.lit = false) (hjob : s'.job = s.job)
    (hactivation : s'.activation = s.activation) (hrecolour : s'.recolour = s.recolour)
    (hkey : s'.keyframePending = s.keyframePending) : Inv p xxh64 S K s' where
  sound := hsound
  lit := fun h => by rw [hlit] at h; cases h
  owed := fun a ha hne => by rw [hkey]; exact hs.owed a (hactivation ▸ ha) hne
  still := fun j hj hc => by rw [hrecolour, hactivation]; exact hs.still j (hjob ▸ hj) hc
  read := fun f owes hj => by rw [hkey]; exact hs.read f owes (hjob ▸ hj)
  full := fun d hd => by rw [hactive] at hd; cases hd
  calm := fun d hd => by rw [hactive] at hd; cases hd

/-- A frame before the gates. -/
theorem Inv.advance (hs : Inv p xxh64 S K s) {job : Job}
    (hsound : Sound p xxh64 S K { s with job := some job })
    (hbefore : (∃ src, job = .sourced src) ∨ ∃ f, job = .sized f)
    (hbase : ∀ d, s.active = some d → Quiet s → Baseline p xxh64 S s d) :
    Inv p xxh64 S K { s with job := some job } := by
  rcases hbefore with ⟨src, rfl⟩ | ⟨f, rfl⟩
  all_goals
    refine ⟨hsound, hs.lit, hs.owed, fun j hj hc => ?_, fun g owes hj => ?_, fun _ _ => trivial,
      fun d hd hq => hbase d hd ⟨hq.keyframe, hq.recolour, hq.activation⟩⟩
    · cases hj
      cases hc
    · cases hj

/-- **One step keeps the ledger.** -/
theorem inv_step (hp : KnownDock p) (hS : HashesDistinct p.geometry xxh64 S)
    (hK : TagsDistinct xxh64 K) (s : State) (e : Event) (hs : Inv p xxh64 S K s)
    (he : Settled p xxh64 s e ∧ e.Within S K) : Inv p xxh64 S K (step p xxh64 s e) := by
  obtain ⟨hsettled, hwithin⟩ := he
  have hsound := sound_step hS hK s e hs.sound ⟨matched_of_settled hsettled, hwithin⟩
  cases e with
  | setConnectorDepth depth => exact hs.keep hsound rfl hs.lit
  | enable depth same =>
      refine hs.keep hsound rfl fun hlit => ?_
      simp only [Bool.and_eq_true, decide_eq_true_eq] at hlit
      rw [hlit.2]
      exact hs.lit hlit.1.1
  | adopt =>
      simp only [step] at hsound ⊢
      split_ifs at hsound ⊢ with hactive
      · exact hs.keep hsound rfl fun _ => hactive
      · exact hs
  | park => exact hs.darken hsound rfl rfl rfl rfl rfl rfl
  | disable => exact hs.darken hsound rfl rfl rfl rfl rfl rfl
  | updateColor color =>
      simp only [step] at hsound ⊢
      split at hsound
      case h_1 hnone =>
        exact inv_disturb hsound rfl hsettled hs.lit hs.owed fun hq => by cases hq.recolour
      case h_2 => exact hs
  | recolourStep => exact inv_recolourStep hs hsound
  | activate depth current =>
      simp only [step] at hsound ⊢
      split at hsound
      case h_1 hnone =>
        refine inv_disturb hsound rfl hsettled (fun hlit => ?_) (fun a ha hne => ?_)
          fun hq => by cases hq.activation
        · simp only [Bool.and_eq_true, decide_eq_true_eq] at hlit
          rw [hlit.2]
        · cases ha
          exact absurd rfl hne
      case h_2 => exact hs
  | activationStep => exact inv_activationStep hs hsound
  | carrier content => exact inv_carrier hs hsound
  | oweKeyframe =>
      simp only [step] at hsound ⊢
      split at hsound
      case h_1 hnone =>
        refine inv_disturb hsound rfl (fun j hj => ?_) hs.lit (fun _ _ _ => rfl)
          fun hq => by cases hq.keyframe
        rw [hnone] at hj
        cases hj
      case h_2 => exact hs
  | start snapshot rotation =>
      simp only [step] at hsound ⊢
      split at hsound
      case h_1 hnone =>
        refine hs.advance hsound (.inl ⟨_, rfl⟩) fun d hd hq => ?_
        have h := hs.calm d hd hq
        rwa [hnone] at h
      case h_2 => exact hs
  | readGeometry =>
      simp only [step] at hsound ⊢
      split at hsound
      case h_1 hjob =>
        refine hs.advance hsound (.inr ⟨_, rfl⟩) fun d hd hq => ?_
        have h := hs.calm d hd hq
        rwa [hjob] at h
      case h_2 => exact hs
  | check => exact inv_check hs hsettled hsound
  | select =>
      simp only [step] at hsound ⊢
      split at hsound
      case h_1 f owes hjob =>
        exact inv_select hs hjob (fun c hc => hsettled f owes c hjob hc) hsound
      case h_2 => exact hs
  | encode training =>
      simp only [step] at hsound ⊢
      split at hsound
      case h_1 f full damage hjob =>
        exact inv_encode hp hS hK hs hjob (hsettled f full damage hjob) hsound
      case h_2 => exact hs
  | present => exact inv_present hp hS hs hsound
  | fail delivered => exact inv_fail hS hs hsettled hsound
  | pay => exact inv_pay hp hs hsound
  | publish allocated => exact inv_publish hs hsound
  | clear => exact inv_clear hs hsound
  | abandon => exact inv_abandon hs hsettled hsound

theorem inv_initial (ring : ℕ → ℕ × ℕ → List UInt8) (hK : none ∈ K) :
    Inv p xxh64 S K (State.initial ring) where
  sound := sound_initial ring hK
  lit := fun h => by cases h
  owed := fun _ h => by cases h
  still := fun _ h => by cases h
  read := fun _ _ h => by cases h
  full := fun _ h => by cases h
  calm := fun _ h => by cases h

/-- **An idle frame** finds every strip in every buffer. -/
theorem coherent_of_idles (hp : KnownDock p) (hS : HashesDistinct p.geometry xxh64 S)
    (hs : Inv p xxh64 S K s) (hidle : Idles p xxh64 s f)
    (hformat : ∀ c, s.baseline p f false = some c → c.sourceDepth = f.src.sourceDepth)
    (hd : s.active = some d) : Coherent p s f d := by
  obtain ⟨-, -, hle, hpos⟩ := delivery hp false
  obtain ⟨c, hjob, hc, hrects⟩ := hidle
  obtain ⟨-, hid, hsome, hwidth, hheight⟩ := baseline_eq_some hc
  obtain ⟨hrecolour, hactivation⟩ := hs.still _ hjob rfl
  have hf : Comparable p c f := ⟨hid, hwidth, hheight, hformat c hc⟩
  have hunder : Under s.color d f := by
    have h := hs.full d hd
    rwa [hjob] at h
  have hsnapshot : f.src.snapshot ∈ S := by
    have h := hs.sound.job
    rw [hjob] at h
    exact h.1
  have hbase : Baseline p xxh64 S s d := by
    have h := hs.calm d hd ⟨hs.read f false hjob, hrecolour, hactivation⟩
    rwa [hjob] at h
  obtain ⟨r, hr, hru, hholds, hfits⟩ := hbase c hsome
  have hlength : c.hashes.length = (f.hashes p xxh64).length := by
    rw [hr.hashes, length_hashes hr.comparable.identity, length_hashes hid, hr.width_eq hf,
      ← hr.comparable.height, hheight]
  have hdebts := length_debts s (f.hashes p xxh64).length
  intro slot hslot q hq
  have hi : f.index p q < (s.debts (f.hashes p xxh64).length).length := by
    rw [hdebts]
    exact index_lt hid hq
  have hzero := debt_of_idle
    ((length_charge (hlength.trans hdebts.symm) hdebts.symm).trans hdebts) hrects hq
  rw [getD_charge (hlength.trans hdebts.symm) hdebts.symm hi, getD_debts (hlength ▸ hfits)] at hzero
  split_ifs at hzero with hsame
  · obtain ⟨b, hb, -, hrecent⟩ := hholds q (by rwa [hr.strips_eq hf])
    rw [hr.encode_eq hS hf hru hunder hsnapshot hq hsame] at hb
    rw [hr.index_eq hf, hzero, Nat.sub_zero] at hrecent
    have hsrc : f.src = { f.src with color := s.color, depth := d } := by
      rw [← hunder.color, ← hunder.depth]
    rw [← hsrc, hrecent.all hle slot hslot, ← hb, Frame.encode, hunder.geometryDepth]
  · omega

end Steps

/-- **The ledger is coherent**: in every run whose steps are settled, whenever a frame is given up
because no keyframe is owed and no strip is selected, every buffer of the dock holds every strip of
the snapshot. -/
theorem ledger_coherent (p : DockProfile) (hp : KnownDock p) (xxh64 : List UInt8 → UInt64 → UInt64)
    (ring : ℕ → ℕ × ℕ → List UInt8) (es : List Event)
    (hS : HashesDistinct p.geometry xxh64 (snapshots es)) (hK : TagsDistinct xxh64 (colors es))
    (hrun : Along (Settled p xxh64) (step p xxh64) (State.initial ring) (es ++ [.select]))
    (f : Frame) (d : Depth)
    (hidle : Idles p xxh64 (run (step p xxh64) (State.initial ring) es) f)
    (hd : (run (step p xxh64) (State.initial ring) es).active = some d) :
    Coherent p (run (step p xxh64) (State.initial ring) es) f d := by
  obtain ⟨hbefore, hselect, -⟩ := (along_append _ _ _).1 hrun
  have hinv := run_invariant (P := Inv p xxh64 (snapshots es) (colors es)) (inv_step hp hS hK) es
    (State.initial ring) (inv_initial ring List.mem_cons_self)
    (hbefore.and es (State.initial ring) fun _ he => within_of_mem he)
  have hjob : (run (step p xxh64) (State.initial ring) es).job = some (.checked f false) := by
    obtain ⟨c, hjob, -⟩ := hidle
    exact hjob
  exact coherent_of_idles hp hS hinv hidle (fun c hc => hselect f false c hjob hc) hd

/-! ### A keyframe of the flat surface -/

section Flat

variable (xxh64 : List UInt8 → UInt64 → UInt64)

/-- Every channel becomes zero. -/
def black : ColorPipeline := .fused (Vector.replicate 768 0)

/-- The keyframe is sent and booked, and the flat surface comes again. -/
def flatComes : List Event :=
  [.present, .present, .present, .pay, .publish 1, .clear, .start flat upright, .readGeometry]

def flatAgain : List Event := flatComes ++ [.check]

/-- The flat surface is taken up and its strips selected. -/
def flatSelect : List Event := [.start flat upright, .readGeometry, .check, .select]

/-- The connector is lit and the flat surface encoded; behind the steps of `between` it is sent. -/
def painted (between : List Event) : List Event :=
  lit ++ flatSelect ++ [.encode false] ++ between ++ flatAgain

/-- The flat surface under a transform. -/
def flatUnder (color : Option ColorPipeline) : Frame :=
  ⟨⟨flat, upright, color, .eight, .eight⟩, .eight⟩

/-- The flat surface under a transform meets the baseline of the plain one. -/
def flatState (ring : ℕ → ℕ × ℕ → List UInt8) (color : Option ColorPipeline) : State :=
  ⟨color, .eight, .eight, some .eight, true, some (flatCache xxh64 .eight), none, false, none, none,
    some (.checked (flatUnder color) false), 3, flatRing ring 0 (flatBody .eight), []⟩

/-- The flat surface is encoded for the first time. -/
def flatSending (ring : ℕ → ℕ × ℕ → List UInt8) (b : List UInt8) : State :=
  ⟨none, .eight, .eight, some .eight, true, none, none, true, none, none,
    some (.sending (flatFrame .eight) true [((0, 0), b)] 0 3), 0, ring, []⟩

theorem step_encode {p : DockProfile} {s : State} {f : Frame} {full training : Bool}
    {damage : List Clip} (hjob : s.job = some (.selected f full damage)) :
    step p xxh64 s (.encode training) = s.encode p xxh64 f full damage training := by
  rw [step, hjob]

theorem run_flatSelected (ring : ℕ → ℕ × ℕ → List UInt8) :
    run (step profileNavarro xxh64) (State.initial ring)
      (lit ++ flatSelect) =
        ⟨none, .eight, .eight, some .eight, true, none, none, true, none, none,
          some (.selected (flatFrame .eight) true []), 0, ring, []⟩ := rfl

theorem run_flatSending (ring : ℕ → ℕ × ℕ → List UInt8) :
    run (step profileNavarro xxh64) (State.initial ring)
      (lit ++ flatSelect ++ [.encode false]) =
        flatSending ring (flatBody .eight) := by
  have hlast : ∀ s : State, run (step profileNavarro xxh64) s [.encode false] =
      step profileNavarro xxh64 s (.encode false) := fun _ => rfl
  rw [run_append, run_flatSelected, hlast, step_encode xxh64 rfl,
    State.encode_flat xxh64 _ .eight (body_flat xxh64 .eight)]
  rfl

theorem run_flatBooked (ring : ℕ → ℕ × ℕ → List UInt8) (color : Option ColorPipeline)
    (b : List UInt8) :
    run (step profileNavarro xxh64) { flatSending ring b with color := color } flatAgain =
      ⟨color, .eight, .eight, some .eight, true,
        (flatFrame .eight).publish profileNavarro xxh64 none [((0, 0), b)] 1, none, false, none,
        none, some (.checked (flatUnder color) false), 3, flatRing ring 0 b, []⟩ := rfl

theorem run_flatAgain (ring : ℕ → ℕ × ℕ → List UInt8) (color : Option ColorPipeline) :
    run (step profileNavarro xxh64) { flatSending ring (flatBody .eight) with color := color }
      flatAgain = flatState xxh64 ring color := by
  rw [run_flatBooked, publish_flat]
  rfl

theorem run_painted (ring : ℕ → ℕ × ℕ → List UInt8) :
    run (step profileNavarro xxh64) (State.initial ring) (painted []) =
      flatState xxh64 ring none := by
  rw [painted, List.append_nil, run_append, run_flatSending]
  exact run_flatAgain xxh64 ring none

theorem owedBaseline_replicate (hashes : List UInt64) :
    owedBaseline (List.replicate hashes.length 0) hashes = hashes := by
  induction hashes with
  | nil => rfl
  | cons h hashes ih => exact congrArg (h :: ·) ih

theorem charge_self (D : ℕ) (hashes : List UInt64) :
    charge D hashes hashes (List.replicate hashes.length 0) = List.replicate hashes.length 0 := by
  induction hashes with
  | nil => rfl
  | cons h hashes ih =>
      have hhead : (if h = h then 0 else D) = 0 := if_pos rfl
      exact congrArg₂ List.cons hhead ih

/-- The flat surface is given up where its baseline is kept. -/
theorem idles_flatState (ring : ℕ → ℕ × ℕ → List UInt8) (color : Option ColorPipeline) :
    Idles profileNavarro xxh64 (flatState xxh64 ring color) (flatUnder color) := by
  have hwidth : (flatUnder color).paddedWidth profileNavarro = 128 := (padded_flat .eight).1
  have hheight : (flatUnder color).paddedHeight profileNavarro = 8 := (padded_flat .eight).2
  have hhashes : (flatUnder color).hashes profileNavarro xxh64 =
      (flatFrame .eight).hashes profileNavarro xxh64 := rfl
  refine ⟨flatCache xxh64 .eight, rfl, ?_, ?_⟩
  · unfold State.baseline
    rw [hwidth, hheight]
    rfl
  · have hdebts : (flatState xxh64 ring color).debts
        ((flatUnder color).hashes profileNavarro xxh64).length =
          List.replicate ((flatUnder color).hashes profileNavarro xxh64).length 0 := rfl
    rw [hdebts, flatCache, ← hhashes, charge_self, owedBaseline_replicate, hwidth, hheight]
    refine changedStripRects_self ?_
    rw [hhashes, length_hashes_flat]
    decide

theorem settled_flatSending (ring : ℕ → ℕ × ℕ → List UInt8) :
    Along (Settled profileNavarro xxh64) (step profileNavarro xxh64) (State.initial ring)
      (lit ++ flatSelect ++ [.encode false]) := by
  refine ⟨trivial, fun _ h => ?_, trivial, trivial, trivial, trivial, trivial, trivial,
    fun f h _ => ?_, fun f owes c h hc => ?_, fun f full damage h => ?_, trivial⟩
  · cases h
  · cases h
    exact ⟨rfl, rfl, rfl, rfl, rfl⟩
  · cases h
    cases hc
  · cases h
    exact matches_none _

theorem settled_flatAgain (ring : ℕ → ℕ × ℕ → List UInt8) (b : List UInt8) :
    Along (Settled profileNavarro xxh64) (step profileNavarro xxh64) (flatSending ring b)
      flatAgain := by
  have hcomes : run (step profileNavarro xxh64) (flatSending ring b) flatComes =
      ⟨none, .eight, .eight, some .eight, true,
        (flatFrame .eight).publish profileNavarro xxh64 none [((0, 0), b)] 1, none, false, none,
        none, some (.sized (flatFrame .eight)), 3, flatRing ring 0 b, []⟩ := rfl
  refine (along_append _ _ _).2 ⟨⟨trivial, trivial, trivial, trivial, trivial, trivial, trivial,
    trivial, trivial⟩, ?_⟩
  rw [hcomes]
  refine ⟨fun f h _ => ?_, trivial⟩
  cases h
  exact ⟨rfl, rfl, rfl, rfl, rfl⟩

/-- The flat surface is sent, and comes again. -/
theorem settled_painted (ring : ℕ → ℕ × ℕ → List UInt8) :
    Along (Settled profileNavarro xxh64) (step profileNavarro xxh64) (State.initial ring)
      (painted [] ++ [.select]) := by
  have hselect : Settled profileNavarro xxh64 (flatState xxh64 ring none) .select := by
    intro f owes c h hc
    obtain ⟨-, -, hsome, -⟩ := baseline_eq_some hc
    cases h
    cases hsome
    rfl
  refine (along_append _ _ _).2 ⟨?_, ?_⟩
  · rw [painted, List.append_nil]
    refine (along_append _ _ _).2 ⟨settled_flatSending xxh64 ring, ?_⟩
    rw [run_flatSending]
    exact settled_flatAgain xxh64 ring _
  · rw [run_painted]
    exact ⟨hselect, trivial⟩

/-- What a black strip encodes to. -/
def blackBody : List UInt8 :=
  colourStrip profileNavarro.geometry (List.replicate 16 (greyBlock 0)) 0 0

theorem encode_black :
    encodeStrip profileNavarro.geometry .eight (flatUnder (some black)).src (0, 0) =
      some blackBody :=
  encode_grey (v := 0) rfl rfl (by decide) (by decide +kernel)

theorem blackBody_ne : blackBody ≠ flatBody .eight := by
  decide +kernel

end Flat

/-- The tags of the black transform and of none differ. -/
theorem tagsDistinct_black : TagsDistinct xxh64 [none, some black] := by
  have htag : pipelineTag xxh64 black ≠ 0 ∧ pipelineTag xxh64 black ≠ 0x9e3779b97f4a7c15 := by
    decide +kernel
  obtain ⟨hzero, hten⟩ := htag
  have htags : ∀ d e, encodeTag xxh64 (some black) d ≠ encodeTag xxh64 none e := by
    intro d e h
    simp only [encodeTag, Option.map_some, Option.map_none, Option.getD_some, Option.getD_none,
      UInt64.zero_xor] at h
    cases d <;> cases e <;> simp_all
  have hdepths : ∀ (t : UInt64) (d e : Depth), (t ^^^ if d = .ten then 0x9e3779b97f4a7c15 else 0) =
      (t ^^^ if e = .ten then 0x9e3779b97f4a7c15 else 0) → d = e := by
    intro t d e h
    rw [UInt64.xor_right_inj] at h
    cases d <;> cases e <;> simp at h ⊢
  intro a ha b hb d e h
  simp only [List.mem_cons, List.not_mem_nil, or_false] at ha hb
  rcases ha with rfl | rfl <;> rcases hb with rfl | rfl
  · exact ⟨rfl, hdepths _ d e h⟩
  · exact absurd h.symm (htags e d)
  · exact absurd h (htags d e)
  · exact ⟨rfl, hdepths _ d e h⟩

theorem ledger_coherent_painted :
    KnownDock profileNavarro ∧
    HashesDistinct profileNavarro.geometry xxh64 (snapshots (painted [])) ∧
    TagsDistinct xxh64 (colors (painted [])) ∧
    Along (Settled profileNavarro xxh64) (step profileNavarro xxh64) (State.initial fun _ _ => [])
      (painted [] ++ [.select]) ∧
    Idles profileNavarro xxh64
      (run (step profileNavarro xxh64) (State.initial fun _ _ => []) (painted []))
        (flatUnder none) ∧
    (run (step profileNavarro xxh64) (State.initial fun _ _ => []) (painted [])).active =
      some .eight ∧
    Coherent profileNavarro
      (run (step profileNavarro xxh64) (State.initial fun _ _ => []) (painted [])) (flatUnder none)
        .eight := by
  have hp : KnownDock profileNavarro := .inr (.inr rfl)
  have hS := hashesDistinct_flat xxh64 (painted []) fun f hf => by
    simpa [snapshots, painted, lit, flatSelect, flatComes, flatAgain, Event.snapshot, eq_comm]
      using hf
  have hK : TagsDistinct xxh64 (colors (painted [])) := tagsDistinct_plain xxh64
  have hrun := settled_painted xxh64 fun _ _ => []
  have hstate := run_painted xxh64 fun _ _ => []
  have hidle : Idles profileNavarro xxh64
      (run (step profileNavarro xxh64) (State.initial fun _ _ => []) (painted []))
        (flatUnder none) := by
    rw [hstate]
    exact idles_flatState xxh64 _ none
  have hd : (run (step profileNavarro xxh64) (State.initial fun _ _ => []) (painted [])).active =
      some .eight := by
    rw [hstate]
    rfl
  exact ⟨hp, hS, hK, hrun, hidle, hd,
    ledger_coherent profileNavarro hp xxh64 _ _ hS hK hrun _ _ hidle hd⟩

/-- `update_color` to the black transform. -/
def blackout : List Event :=
  [.updateColor (some black), .recolourStep, .recolourStep, .recolourStep]

/-- **A colour update while a keyframe is sent** is lost: the keyframe of the old transform clears
the bit and becomes the baseline. -/
theorem recolour_under_keyframe :
    HashesDistinct profileNavarro.geometry xxh64 (snapshots (painted blackout)) ∧
    TagsDistinct xxh64 (colors (painted blackout)) ∧
    (run (step profileNavarro xxh64) (State.initial fun _ _ => []) (painted blackout)).active =
      some .eight ∧
    Idles profileNavarro xxh64
      (run (step profileNavarro xxh64) (State.initial fun _ _ => []) (painted blackout))
        (flatUnder (some black)) ∧
    ¬ Coherent profileNavarro
      (run (step profileNavarro xxh64) (State.initial fun _ _ => []) (painted blackout))
        (flatUnder (some black)) .eight := by
  have hS := hashesDistinct_flat xxh64 (painted blackout) fun f hf => by
    simpa [snapshots, painted, lit, flatSelect, flatComes, flatAgain, blackout, Event.snapshot,
      eq_comm] using hf
  have hstate : run (step profileNavarro xxh64) (State.initial fun _ _ => []) (painted blackout) =
      flatState xxh64 (fun _ _ => []) (some black) := by
    rw [painted, run_append, run_append, run_flatSending]
    exact run_flatAgain xxh64 _ (some black)
  rw [hstate]
  refine ⟨hS, tagsDistinct_black, rfl, idles_flatState xxh64 _ _, fun hcoherent => ?_⟩
  have hmem : (0, 0) ∈ strips profileNavarro (flatUnder (some black)) := by decide
  have h := hcoherent 0 (by decide) (0, 0) hmem
  exact blackBody_ne (Option.some.inj (encode_black.symm.trans h))

end Vino.Kms.Ledger
