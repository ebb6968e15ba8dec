import Mathlib
import Vino.Haar.Records
import Vino.Lib.Run

/-!
# The Dock's Pixel Budget

The connectors of a dock share one bandwidth, stated as a budget of pixels per second; a connector
driven at ten bits makes every pixel of the dock cost a third more.  A commit is checked for each
CRTC it carries: one that raises the rate of its connector must fit beside what the others are
charged, which is what the commit gives them, or what they were last programmed with if it does not
describe them.  Nothing else is checked: a rate that does not rise passes, and the depth of a link
is settled while the commit is applied.  The order of these steps is `Vino.Kms.Commits`.

* `atomicCheck_fits`: what a rise that passes its check fits beside,
* `wireTenBit_request`: a link that userspace asks for at ten bits is driven so only where they fit,
* `advertised_alone`: when a mode that is advertised is refused on a dock whose other connectors are
  dark.
-/

namespace Vino.Kms.Budget

open Vino.Lib.Run
open Vino.Haar.Records hiding fill

/-! ### Rates -/

/-- The largest `u32`. -/
def u32Max : ℕ := 4294967295

def saturatingAdd (a b : ℕ) : ℕ := min (a + b) u32Max

def saturatingMul (a b : ℕ) : ℕ := min (a * b) u32Max

/-- The pixel rate of an active mode; a refresh rate that is not positive counts as none. -/
def activePixelRate (hdisplay vdisplay : UInt16) (vrefresh : ℤ) : ℕ :=
  saturatingMul (saturatingMul hdisplay.toNat vdisplay.toNat) vrefresh.toNat

/-- A display mode, with the refresh rate the core makes of its timing. -/
structure DisplayMode where
  clock : ℤ
  hdisplay : UInt16
  vdisplay : UInt16
  vrefresh : ℤ
  deriving DecidableEq, Repr

/-- What the budget reads of a set-mode timing. -/
structure Timing where
  hactive : UInt16
  vactive : UInt16
  refreshHz : UInt16
  tenBit : Bool
  deriving DecidableEq, Repr

/-- A mode has a profile if its clock and its refresh rate are positive. -/
def modeSupported (m : DisplayMode) : Bool := decide (0 < m.clock ∧ 0 < m.vrefresh)

def timingFromDrmMode (m : DisplayMode) (tenBit : Bool) : Except Errno Timing :=
  if modeSupported m then
    .ok {
      hactive := m.hdisplay
      vactive := m.vdisplay
      refreshHz := UInt16.ofNat m.vrefresh.toNat
      tenBit := tenBit }
  else .error .EINVAL

def Timing.rate (t : Timing) : ℕ :=
  saturatingMul (saturatingMul t.hactive.toNat t.vactive.toNat) t.refreshHz.toNat

/-! ### The limits of a dock -/

structure Limits where
  dockPixelBudget : ℕ
  maxRefreshHz : ℕ
  maxConnectorClockKhz : ℕ
  hdrCapable : Bool
  videoOnCtrlPipe : Bool
  deriving DecidableEq, Repr

/-- Record the limits of a dock; a ceiling of zero is replaced by its default, and a budget of zero
means unknown. -/
def setModeLimits (l : Limits) (pixelBudget maxRefreshHz maxConnectorClockKhz : ℕ) : Limits :=
  { l with
    dockPixelBudget := pixelBudget
    maxRefreshHz := if maxRefreshHz = 0 then 120 else maxRefreshHz
    maxConnectorClockKhz := if maxConnectorClockKhz = 0 then 655350 else maxConnectorClockKhz }

/-- The limits of the three docks, as their profiles state them. -/
def ellaLimits : Limits :=
  setModeLimits ⟨884736000, 120, 655350, false, true⟩ 248832000 75 148500

def ridgeLimits : Limits :=
  setModeLimits ⟨884736000, 120, 655350, false, false⟩ 973209600 4294967295 655350

def navarroLimits : Limits :=
  setModeLimits ⟨884736000, 120, 655350, true, false⟩ 1216512000 4294967295 699500

/-- Every profile states a budget, and one that a saturated rate cannot be mistaken for. -/
example : ∀ l ∈ [ellaLimits, ridgeLimits, navarroLimits],
    0 < l.dockPixelBudget ∧ l.dockPixelBudget < u32Max := by decide

/-- The budget at the depth of the dock's deepest connector. -/
def budgetAtDepth (budget : ℕ) (tenBit : Bool) : ℕ :=
  if budget ≠ 0 ∧ tenBit then budget / 4 * 3 else budget

def tenBitFits (l : Limits) (combined : ℕ) : Bool :=
  decide (l.dockPixelBudget = 0 ∨ combined ≤ budgetAtDepth l.dockPixelBudget true)

def refreshWithinLimit (l : Limits) (vrefresh : ℤ) : Bool :=
  decide (vrefresh ≤ 0 ∨ vrefresh.toNat ≤ l.maxRefreshHz)

/-! ### Connectors and commits -/

/-- The transfer function of a connector's HDR metadata. -/
inductive Eotf where
  | traditionalGammaSdr
  | traditionalGammaHdr
  | smpteSt2084
  | bt2100Hlg
  | other (byte : UInt8)
  deriving DecidableEq, Repr

/-- The connector state that a commit routes to a CRTC. -/
structure ConnectorState where
  colorspace : ℕ
  hdrOutputEotf : Option Eotf
  maxRequestedBpc : ℕ
  deriving DecidableEq, Repr

structure CrtcState where
  active : Bool
  mode : DisplayMode
  deriving DecidableEq, Repr

/-- A CRTC as a commit carries it: its new state, what else the core found changed, and the
connector states before and after. -/
structure NewCrtc where
  state : CrtcState
  modeChanged : Bool
  connectorsChanged : Bool
  oldConnector : Option ConnectorState
  newConnector : Option ConnectorState
  deriving DecidableEq, Repr

/-- The CRTCs that a commit carries. -/
abbrev Commit (n : ℕ) := Fin n → Option NewCrtc

/-- What the driver holds of a connector, with the committed state of its CRTC. -/
structure Connector where
  crtc : CrtcState
  lastTiming : Option Timing
  /-- Whether the generation key of the requested mode is other than zero. -/
  requested : Bool
  present : Bool
  /-- Whether the framebuffer in hand is ten bits deep. -/
  tenBit : Bool
  denyTenBit : Bool
  maxBpc : ℕ
  st2084 : Bool
  /-- Whether a commit has published the timing and has not turned the CRTC off since.  No function
  of the driver reads this. -/
  lit : Bool
  deriving DecidableEq, Repr

abbrev Dock (n : ℕ) := Fin n → Connector

variable {n : ℕ}

/-- A dock that nothing has been committed to. -/
def start : Dock n := fun _ =>
  { crtc := { active := false, mode := ⟨0, 0, 0, 0⟩ }
    lastTiming := none
    requested := false
    present := false
    tenBit := false
    denyTenBit := false
    maxBpc := 0
    st2084 := false
    lit := false }

def CrtcState.rate (c : CrtcState) : ℕ :=
  if c.active then activePixelRate c.mode.hdisplay c.mode.vdisplay c.mode.vrefresh else 0

def CrtcState.refresh (c : CrtcState) : ℤ := if c.active then c.mode.vrefresh else 0

/-- Whether a connector state asks for a ten-bit link. -/
def asksForTenBits : Option ConnectorState → Bool
  | some conn => decide (10 ≤ conn.maxRequestedBpc) && conn.hdrOutputEotf == some .smpteSt2084
  | none => false

def colourOf : Option ConnectorState → ℕ × Option Eotf
  | some conn => (conn.colorspace, conn.hdrOutputEotf)
  | none => (0, none)

/-- The mode of a CRTC counts as changed if its colour description does. -/
def NewCrtc.changed (new : NewCrtc) (old : CrtcState) : Bool :=
  decide (old.mode ≠ new.state.mode) || new.modeChanged ||
    colourOf new.oldConnector != colourOf new.newConnector

def NewCrtc.needsModeset (new : NewCrtc) (old : CrtcState) : Bool :=
  old.active != new.state.active || new.changed old || new.connectorsChanged

/-! ### The check of a commit -/

/-- What `connector` costs another one's commit: what the commit gives it, or else what it was last
programmed with, if that is still asked for and its monitor is there. -/
def charged (commit : Commit n) (s : Dock n) (connector : Fin n) : Option ℕ :=
  match commit connector with
  | some new => some new.state.rate
  | none =>
      if (s connector).requested && (s connector).present then
        (s connector).lastTiming.map Timing.rate
      else none

/-- The combined rate of every connector but this one. -/
def otherConnectorsRate (commit : Commit n) (s : Dock n) (connector : Fin n) : ℕ :=
  (List.finRange n).foldl (fun total i =>
    if i = connector then total
    else
      match charged commit s i with
      | some rate => saturatingAdd total rate
      | none => total) 0

/-- Whether the timing a connector was last programmed with drives ten bits. -/
def connectorProgrammedTenBit (s : Dock n) (connector : Fin n) : Bool :=
  match (s connector).lastTiming with
  | some t => t.tenBit
  | none => false

def otherConnectorProgrammedTenBit (s : Dock n) (connector : Fin n) : Bool :=
  decide (∃ i, i ≠ connector ∧ connectorProgrammedTenBit s i = true)

/-- The check of one CRTC of a commit. -/
def atomicCheck (l : Limits) (commit : Commit n) (s : Dock n) (connector : Fin n)
    (new : NewCrtc) : Except Errno Unit :=
  let old := (s connector).crtc
  let wantsDeep := l.hdrCapable && asksForTenBits new.newConnector
  if new.state.active ∧ (¬ old.active ∨ new.changed old) ∧ ¬ modeSupported new.state.mode then
    .error .EINVAL
  else if old.refresh < new.state.refresh ∧ ¬ refreshWithinLimit l new.state.refresh then
    .error .EINVAL
  else if l.dockPixelBudget = 0 ∨ new.state.rate ≤ old.rate then .ok ()
  else
    let combined := saturatingAdd new.state.rate (otherConnectorsRate commit s connector)
    let deep := wantsDeep && tenBitFits l combined
    let budget := budgetAtDepth l.dockPixelBudget
      (deep || otherConnectorProgrammedTenBit s connector)
    if budget < combined then .error .EINVAL else .ok ()

/-- The check of a mode that is to be advertised. -/
inductive ModeStatus where
  | ok
  | clockHigh
  | bad
  deriving DecidableEq, Repr

def modeValid (l : Limits) (mode : DisplayMode) : ModeStatus :=
  if mode.clock < 0 ∨ l.maxConnectorClockKhz < mode.clock.toNat then .clockHigh
  else if ¬ refreshWithinLimit l mode.vrefresh then .clockHigh
  else if ¬ modeSupported mode then .bad
  else if l.dockPixelBudget ≠ 0 ∧
      l.dockPixelBudget < activePixelRate mode.hdisplay mode.vdisplay mode.vrefresh then .bad
  else .ok

/-! ### Turning a CRTC off and on -/

/-- The CRTC is turned off: its mode is no longer asked for, but its timing stays. -/
def Connector.disable (x : Connector) : Connector := { x with requested := false, lit := false }

/-- Whether the link is to be driven at ten bits. -/
def Connector.wireTenBit (l : Limits) (x : Connector) : Bool :=
  if x.tenBit then true
  else if x.denyTenBit then false
  else l.hdrCapable && decide (10 ≤ x.maxBpc) && x.st2084

/-- The CRTC is to be turned on beside others of this rate: record what userspace asks of the link,
and whether ten bits are denied. -/
def Connector.request (l : Limits) (others : ℕ) (new : NewCrtc) (x : Connector) : Connector :=
  let combined := saturatingAdd new.state.rate others
  let wantsDeep := l.hdrCapable && asksForTenBits new.newConnector
  { x with
    st2084 := (match new.newConnector with
      | some conn => conn.hdrOutputEotf == some .smpteSt2084
      | none => false)
    maxBpc := (match new.newConnector with
      | some conn => min conn.maxRequestedBpc 15
      | none => 0)
    denyTenBit := wantsDeep && !tenBitFits l combined }

/-- The timing is published, at the depth of the link. -/
def Connector.publish (l : Limits) (new : NewCrtc) (x : Connector) : Connector :=
  match timingFromDrmMode new.state.mode (x.wireTenBit l) with
  | .ok timing => { x with lastTiming := some timing, requested := true, lit := true }
  | .error _ => x

/-! ### What the check bounds -/

section Check

variable {l : Limits} {commit : Commit n} {s : Dock n} {c : Fin n} {new : NewCrtc}

/-- What a connector adds to the combined rate. -/
def charge (commit : Commit n) (s : Dock n) (i : Fin n) : ℕ := (charged commit s i).getD 0

theorem charge_of_some (h : commit c = some new) : charge commit s c = new.state.rate := by
  unfold charge charged
  rw [h]
  rfl

theorem foldl_saturatingAdd (commit : Commit n) (s : Dock n) (c : Fin n) :
    ∀ (is : List (Fin n)) (total : ℕ), total ≤ u32Max →
      is.foldl (fun total i =>
        if i = c then total
        else
          match charged commit s i with
          | some rate => saturatingAdd total rate
          | none => total) total =
        min (total + (is.map fun i => if i = c then 0 else charge commit s i).sum) u32Max
  | [], total, h => by
    rw [List.foldl_nil, List.map_nil, List.sum_nil]
    omega
  | i :: is, total, h => by
    rw [List.foldl_cons, List.map_cons, List.sum_cons]
    by_cases hi : i = c
    · rw [if_pos hi, if_pos hi, foldl_saturatingAdd commit s c is total h]
      omega
    · rw [if_neg hi, if_neg hi]
      have hcharge : charge commit s i = (charged commit s i).getD 0 := rfl
      cases hrate : charged commit s i with
      | none =>
        rw [hrate, Option.getD_none] at hcharge
        rw [foldl_saturatingAdd commit s c is total h]
        omega
      | some rate =>
        rw [hrate, Option.getD_some] at hcharge
        have hle : saturatingAdd total rate ≤ u32Max := Nat.min_le_right _ _
        rw [foldl_saturatingAdd commit s c is _ hle, hcharge]
        unfold saturatingAdd
        omega

/-- The combined rate is the saturated sum of the charges. -/
theorem otherConnectorsRate_eq (commit : Commit n) (s : Dock n) (c : Fin n) :
    otherConnectorsRate commit s c =
      min (∑ i ∈ Finset.univ.erase c, charge commit s i) u32Max := by
  have hsum : ((List.finRange n).map fun i => if i = c then 0 else charge commit s i).sum =
      ∑ i ∈ Finset.univ.erase c, charge commit s i := by
    rw [← Fin.sum_univ_def, ← Finset.add_sum_erase Finset.univ _ (Finset.mem_univ c), if_pos rfl,
      zero_add]
    exact Finset.sum_congr rfl fun i hi => if_neg (Finset.ne_of_mem_erase hi)
  unfold otherConnectorsRate
  rw [foldl_saturatingAdd commit s c _ 0 (Nat.zero_le _), hsum, zero_add]

theorem budgetAtDepth_le (budget : ℕ) (tenBit : Bool) : budgetAtDepth budget tenBit ≤ budget := by
  unfold budgetAtDepth
  split_ifs
  · omega
  · exact Nat.le_refl _

/-- A rate that stays below the largest word once saturated was not saturated. -/
theorem le_of_saturatingAdd_le {rate sum cap : ℕ} (hcap : cap < u32Max)
    (h : saturatingAdd rate (min sum u32Max) ≤ cap) : rate + sum ≤ cap := by
  unfold saturatingAdd at h
  omega

theorem tenBitFits_iff (hbudget : 0 < l.dockPixelBudget) (combined : ℕ) :
    tenBitFits l combined = true ↔ combined ≤ budgetAtDepth l.dockPixelBudget true := by
  unfold tenBitFits
  rw [decide_eq_true_iff]
  exact or_iff_right (Nat.ne_of_gt hbudget)

/-- **The price of a commit** is the depth of the other connectors: a connector's own ten bits are
only ever asked for where they fit. -/
theorem budget_priced (hbudget : 0 < l.dockPixelBudget) (wantsDeep other : Bool) (combined : ℕ) :
    combined ≤ budgetAtDepth l.dockPixelBudget ((wantsDeep && tenBitFits l combined) || other) ↔
      combined ≤ budgetAtDepth l.dockPixelBudget other := by
  have hdeep := tenBitFits_iff hbudget combined
  have hle := budgetAtDepth_le l.dockPixelBudget true
  cases hfits : wantsDeep && tenBitFits l combined with
  | false => rw [Bool.false_or]
  | true =>
    rw [Bool.and_eq_true, hdeep] at hfits
    rw [Bool.true_or]
    cases other with
    | true => rfl
    | false =>
      have hflat : budgetAtDepth l.dockPixelBudget false = l.dockPixelBudget := by
        simp [budgetAtDepth]
      rw [hflat]
      exact ⟨fun h => by omega, fun _ => hfits.2⟩

/-- The check of one CRTC, spelt out. -/
theorem atomicCheck_ok_iff (hbudget : 0 < l.dockPixelBudget) :
    atomicCheck l commit s c new = .ok () ↔
      (new.state.active → (s c).crtc.active = false ∨ new.changed (s c).crtc →
        modeSupported new.state.mode = true) ∧
      ((s c).crtc.refresh < new.state.refresh → refreshWithinLimit l new.state.refresh = true) ∧
      ((s c).crtc.rate < new.state.rate →
        saturatingAdd new.state.rate (otherConnectorsRate commit s c) ≤
          budgetAtDepth l.dockPixelBudget (otherConnectorProgrammedTenBit s c)) := by
  have hprice := budget_priced hbudget (l.hdrCapable && asksForTenBits new.newConnector)
    (otherConnectorProgrammedTenBit s c)
    (saturatingAdd new.state.rate (otherConnectorsRate commit s c))
  unfold atomicCheck
  dsimp only
  by_cases hmode : new.state.active ∧ (¬ (s c).crtc.active ∨ new.changed (s c).crtc) ∧
      ¬ modeSupported new.state.mode
  · rw [if_pos hmode]
    simp only [reduceCtorEq, false_iff, not_and]
    intro h
    exact absurd (h hmode.1 (by simpa using hmode.2.1)) hmode.2.2
  · rw [if_neg hmode]
    have hmode' : new.state.active → (s c).crtc.active = false ∨ new.changed (s c).crtc →
        modeSupported new.state.mode = true := by
      intro hactive hchanged
      by_contra hbad
      exact hmode ⟨hactive, by simpa using hchanged, hbad⟩
    by_cases hrefresh : (s c).crtc.refresh < new.state.refresh ∧
        ¬ refreshWithinLimit l new.state.refresh
    · rw [if_pos hrefresh]
      simp only [reduceCtorEq, false_iff, not_and]
      exact fun _ h => absurd (h hrefresh.1) hrefresh.2
    · rw [if_neg hrefresh]
      have hrefresh' : (s c).crtc.refresh < new.state.refresh →
          refreshWithinLimit l new.state.refresh = true := fun h => by
        by_contra hbad
        exact hrefresh ⟨h, hbad⟩
      by_cases hrate : l.dockPixelBudget = 0 ∨ new.state.rate ≤ (s c).crtc.rate
      · rw [if_pos hrate]
        have hle : new.state.rate ≤ (s c).crtc.rate := by omega
        exact ⟨fun _ => ⟨hmode', hrefresh', fun h => by omega⟩, fun _ => rfl⟩
      · rw [if_neg hrate]
        have hlt : (s c).crtc.rate < new.state.rate := by omega
        constructor
        · intro h
          refine ⟨hmode', hrefresh', fun _ => hprice.1 ?_⟩
          by_contra hover
          rw [if_pos (by omega)] at h
          cases h
        · intro h
          have hfits := hprice.2 (h.2.2 hlt)
          rw [if_neg (by omega)]

/-- **A rise that passes its check** fits beside the charges of the others. -/
theorem atomicCheck_fits (hbudget : 0 < l.dockPixelBudget) (hmax : l.dockPixelBudget < u32Max)
    (h : atomicCheck l commit s c new = .ok ()) (hc : commit c = some new)
    (hrise : (s c).crtc.rate < new.state.rate) :
    ∑ i, charge commit s i ≤
      budgetAtDepth l.dockPixelBudget (otherConnectorProgrammedTenBit s c) := by
  have hfits := ((atomicCheck_ok_iff hbudget).1 h).2.2 hrise
  have hle := budgetAtDepth_le l.dockPixelBudget (otherConnectorProgrammedTenBit s c)
  rw [otherConnectorsRate_eq, ← charge_of_some hc] at hfits
  rw [← Finset.add_sum_erase Finset.univ (charge commit s) (Finset.mem_univ c)]
  exact le_of_saturatingAdd_le (by omega) hfits

/-- A mode that fits at ten bits does so beside the charges of the others. -/
theorem tenBitFits_charges (hbudget : 0 < l.dockPixelBudget) (hmax : l.dockPixelBudget < u32Max)
    (hc : commit c = some new)
    (h : tenBitFits l (saturatingAdd new.state.rate (otherConnectorsRate commit s c)) = true) :
    ∑ i, charge commit s i ≤ budgetAtDepth l.dockPixelBudget true := by
  have hle := budgetAtDepth_le l.dockPixelBudget true
  rw [tenBitFits_iff hbudget, otherConnectorsRate_eq, ← charge_of_some hc] at h
  rw [← Finset.add_sum_erase Finset.univ (charge commit s) (Finset.mem_univ c)]
  exact le_of_saturatingAdd_le (by omega) h

end Check

/-! ### What is published -/

section Publish

variable {l : Limits} {new : NewCrtc} {x : Connector}

/-- The timing of a supported mode that refreshes fewer than `2 ^ 16` times a second states its
rate. -/
theorem timingFromDrmMode_rate {m : DisplayMode} (hsupported : modeSupported m = true)
    (hrefresh : m.vrefresh < 65536) (tenBit : Bool) :
    ∃ t, timingFromDrmMode m tenBit = .ok t ∧ t.tenBit = tenBit ∧
      t.rate = activePixelRate m.hdisplay m.vdisplay m.vrefresh := by
  refine ⟨_, by rw [timingFromDrmMode, if_pos hsupported], rfl, ?_⟩
  have hmod : m.vrefresh.toNat % 65536 = m.vrefresh.toNat := Nat.mod_eq_of_lt (by omega)
  simp [Timing.rate, activePixelRate, hmod]

/-- A link that userspace asked for at ten bits is driven so only where they fit. -/
theorem wireTenBit_request {others : ℕ} (hframe : x.tenBit = false)
    (hwire : (x.request l others new).wireTenBit l = true) :
    tenBitFits l (saturatingAdd new.state.rate others) = true := by
  unfold Connector.wireTenBit Connector.request at hwire
  rw [hframe] at hwire
  by_contra hfits
  rw [Bool.not_eq_true] at hfits
  cases hconn : new.newConnector with
  | none => simp [hconn] at hwire
  | some conn =>
    simp only [hconn, hfits, asksForTenBits, Bool.not_false, Bool.and_true, Bool.false_eq_true,
      if_false, Bool.and_eq_true, decide_eq_true_iff, beq_iff_eq, Bool.ite_eq_true_distrib] at hwire
    by_cases hasks : l.hdrCapable = true ∧ 10 ≤ conn.maxRequestedBpc ∧
        conn.hdrOutputEotf = some .smpteSt2084
    · rw [if_pos hasks] at hwire
      exact hwire
    · rw [if_neg hasks] at hwire
      exact hasks ⟨hwire.1.1, by omega, hwire.2⟩

end Publish

/-! ### What is advertised -/

section Advertised

variable {l : Limits} {commit : Commit n} {s : Dock n} {c : Fin n} {new : NewCrtc}

/-- What is known of an advertised mode. -/
theorem modeValid_ok (hbudget : 0 < l.dockPixelBudget) {mode : DisplayMode}
    (h : modeValid l mode = .ok) :
    refreshWithinLimit l mode.vrefresh = true ∧ modeSupported mode = true ∧
      activePixelRate mode.hdisplay mode.vdisplay mode.vrefresh ≤ l.dockPixelBudget := by
  unfold modeValid at h
  by_cases hclock : mode.clock < 0 ∨ l.maxConnectorClockKhz < mode.clock.toNat
  · rw [if_pos hclock] at h
    cases h
  by_cases hrefresh : refreshWithinLimit l mode.vrefresh = true
  · rw [if_neg hclock, if_neg (not_not.2 hrefresh)] at h
    by_cases hmode : modeSupported mode = true
    · rw [if_neg (not_not.2 hmode)] at h
      refine ⟨hrefresh, hmode, ?_⟩
      by_contra hover
      rw [if_pos ⟨by omega, by omega⟩] at h
      cases h
    · rw [if_pos hmode] at h
      cases h
  · rw [if_neg hclock, if_pos hrefresh] at h
    cases h

/-- Connectors that are not asked to show anything, or have no monitor, are charged nothing. -/
theorem otherConnectorsRate_dark (hcommit : ∀ i, i ≠ c → commit i = none)
    (hdark : ∀ i, i ≠ c → (s i).requested = false ∨ (s i).present = false) :
    otherConnectorsRate commit s c = 0 := by
  have hcharge : ∑ i ∈ Finset.univ.erase c, charge commit s i = 0 := by
    refine Finset.sum_eq_zero fun i hi => ?_
    have hne := Finset.ne_of_mem_erase hi
    unfold charge charged
    rw [hcommit i hne]
    rcases hdark i hne with h | h <;> simp [h]
  rw [otherConnectorsRate_eq, hcharge]
  rfl

/-- **When an advertised mode is refused alone.**  A mode that is advertised, and committed alone on
a dock whose other connectors are dark, is refused exactly if it raises the rate past three quarters
of the budget while another connector was last programmed at ten bits, however long it has been
dark. -/
theorem advertised_alone (hbudget : 0 < l.dockPixelBudget) (hmax : l.dockPixelBudget < u32Max)
    (hactive : new.state.active = true) (hvalid : modeValid l new.state.mode = .ok)
    (hcommit : ∀ i, i ≠ c → commit i = none)
    (hdark : ∀ i, i ≠ c → (s i).requested = false ∨ (s i).present = false) :
    atomicCheck l commit s c new = .error .EINVAL ↔
      (s c).crtc.rate < new.state.rate ∧ l.dockPixelBudget / 4 * 3 < new.state.rate ∧
      ∃ i, i ≠ c ∧ connectorProgrammedTenBit s i = true := by
  obtain ⟨hrefresh, hsupported, hrate⟩ := modeValid_ok hbudget hvalid
  have hnewRate : new.state.rate ≤ l.dockPixelBudget := by
    rw [CrtcState.rate, if_pos hactive]
    exact hrate
  have hnewRefresh : new.state.refresh = new.state.mode.vrefresh := by
    rw [CrtcState.refresh, if_pos hactive]
  have hcombined : saturatingAdd new.state.rate (otherConnectorsRate commit s c) =
      new.state.rate := by
    rw [otherConnectorsRate_dark hcommit hdark, saturatingAdd]
    omega
  have herror : atomicCheck l commit s c new = .error .EINVAL ↔
      ¬ atomicCheck l commit s c new = .ok () := by
    unfold atomicCheck
    dsimp only
    split_ifs <;> simp
  rw [herror, atomicCheck_ok_iff hbudget, hcombined, hnewRefresh]
  cases hother : otherConnectorProgrammedTenBit s c with
  | true =>
    have hprice : budgetAtDepth l.dockPixelBudget true = l.dockPixelBudget / 4 * 3 := by
      rw [budgetAtDepth, if_pos ⟨by omega, rfl⟩]
    have hexists := of_decide_eq_true hother
    rw [hprice]
    constructor
    · intro h
      by_contra hcon
      refine h ⟨fun _ _ => hsupported, fun _ => hrefresh, fun hrise => ?_⟩
      by_contra hover
      exact hcon ⟨hrise, by omega, hexists⟩
    · rintro ⟨hrise, hover, -⟩ h
      have hle := h.2.2 hrise
      omega
  | false =>
    have hnone := of_decide_eq_false hother
    have hprice : budgetAtDepth l.dockPixelBudget false = l.dockPixelBudget := by
      simp [budgetAtDepth]
    rw [hprice]
    refine iff_of_false ?_ fun h => hnone h.2.2
    exact fun h => h ⟨fun _ _ => hsupported, fun _ => hrefresh, fun _ => hnewRate⟩

end Advertised

end Vino.Kms.Budget
