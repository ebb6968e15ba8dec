import Vino.Lib.Run
import Vino.Lib.Spans

/-!
# The Keystream of a Connector's Video

Sealed video records are laid over the blocks of one keystream per connector, which `set_video_keys`
starts.  A record reserves its blocks when it is built and reaches the wire later, if it does: a
frame that is superseded or fails drops what was built for it, the scanout worker, the command
worker and the keepalive thread reserve on their own, and the arm burst counts blocks for itself.
One connector is modelled, from one `set_video_keys` on.

* `records_tile`: in every run in which no reserved record is dropped, none is reserved while
  another thread holds one, and an arm burst opens a stream that has no blocks yet, the records on
  the wire lie one behind the other from the block `set_video_keys` left, and share none,
* `rearm_overlaps`: the second arm burst of a Ridge dock repeats the keystream of the first.
-/

namespace Vino.Kms.Keystream

open Vino.Lib.Run Vino.Lib.Spans

/-! ### Docks and records -/

/-- How a dock opens a stream: with the arm burst, with the Navarro prologue, or with a
configuration on the control pipe its video shares. -/
inductive Dock where
  | armBurst
  | navarro
  | sharedPipe
  deriving DecidableEq

/-- The blocks of a plaintext. -/
def blocks (len : ℕ) : ℕ := (len + 15) / 16

/-- The blocks of the decoder configuration: wide tables with fourteen bytes behind them, or narrow
tables with none. -/
def Dock.configBlocks : Dock → ℕ
  | .armBurst | .navarro => blocks 1104
  | .sharedPipe => blocks 304

/-- The blocks of the pipe descriptor. -/
def descriptorBlocks : ℕ := blocks 304

/-- The sealed records of the arm burst, on the burst's own counter: two stream markers and the
configuration twice. -/
def armBurst : List Span := [⟨0, 1⟩, ⟨1, 1⟩, ⟨2, blocks 1104⟩, ⟨71, blocks 1104⟩]

def streamReportBurst : ℕ := 1

def streamReportFrame : ℕ := 2

/-! ### Threads -/

/-- The work items that present frames. -/
inductive Thread where
  | scanout
  | command
  deriving DecidableEq

instance fintypeThread : Fintype Thread :=
  Fintype.ofList [.scanout, .command] fun t => by cases t <;> simp

/-- Where a presenting thread is. -/
inductive Presenter where
  | idle
  /-- `build_navarro_prologue_buf`, between its two reservations. -/
  | described (descriptor : Span)
  /-- At the top of the presentation loop, with the prefix of a stream that opens; `first` as long
  as no presentation is submitted. -/
  | ready (arm : List Span) (startup first : Bool)
  /-- The report of the next presentation is built. -/
  | loaded (arm : List Span) (startup first : Bool) (report : Option Span)
  /-- `send_stream_config`, between building and sending. -/
  | configuring (config : Span)
  deriving DecidableEq

/-- The reserved records a thread has not submitted. -/
def Presenter.hand : Presenter → List Span
  | .idle => []
  | .described d => [d]
  | .ready arm _ _ => arm
  | .loaded arm _ _ report => arm ++ report.toList
  | .configuring config => [config]

structure State where
  videoSealSeq : UInt32
  armPrefixPending : Bool
  streamReportsOwed : ℕ
  scanout : Presenter
  command : Presenter
  /-- The report the keepalive thread holds. -/
  keepalive : Option Span
  /-- The sealed records that reached the wire. -/
  wire : List Span
  deriving DecidableEq

namespace State

def presenter (s : State) : Thread → Presenter
  | .scanout => s.scanout
  | .command => s.command

def setPresenter (s : State) (p : Presenter) : Thread → State
  | .scanout => { s with scanout := p }
  | .command => { s with command := p }

/-- The reserved records of a presenting thread, or of the keepalive thread. -/
def hand (s : State) : Option Thread → List Span
  | some t => (s.presenter t).hand
  | none => s.keepalive.toList

/-- The records that are reserved and not submitted. -/
def held (s : State) : List Span :=
  s.hand (some .scanout) ++ s.hand (some .command) ++ s.hand none

end State

def State.initial : State where
  videoSealSeq := 0
  armPrefixPending := false
  streamReportsOwed := 0
  scanout := .idle
  command := .idle
  keepalive := none
  wire := []

inductive Event where
  /-- `arm_stream_prologue`. -/
  | armStreamPrologue
  /-- A frame or a carrier is begun; it opens the stream if `withArm` and the prefix is owed. -/
  | begin (t : Thread) (withArm : Bool)
  /-- The prologue's second reservation, or the error before it. -/
  | configure (t : Thread) (ok : Bool)
  /-- The report of the next presentation, which is number `frame`. -/
  | report (t : Thread) (frame : ℕ)
  /-- The presentation is submitted, or fails behind some of its sealed records. -/
  | submit (t : Thread) (ok : Bool) (delivered : ℕ)
  /-- The endpoint is full: a carrier keeps its prefix, drops its report and tries again. -/
  | defer (t : Thread)
  /-- The frame is complete, superseded, or fails before it is submitted. -/
  | leave (t : Thread)
  /-- `build_ella_config_buf`. -/
  | buildConfig (t : Thread)
  | sendConfig (t : Thread) (delivered : Bool)
  /-- `send_video_keepalive` builds its report, and submits it if the queue is open. -/
  | keepaliveBuild (frame : ℕ)
  | keepaliveSend (delivered : Bool)
  deriving DecidableEq

/-! ### One step -/

/-- `set_video_keys`: the stream starts behind the block its opening has used. -/
def State.setVideoKeys (s : State) (opened : Bool) : State :=
  { s with
    videoSealSeq := if opened then 1 else 0
    wire := [] }

/-- `take_seal_seq`. -/
def State.takeSealSeq (s : State) (n : ℕ) : Span × State :=
  (⟨s.videoSealSeq, n⟩, { s with videoSealSeq := s.videoSealSeq + UInt32.ofNat n })

/-- Whether a presentation owes its stream a report. -/
def State.reportDue (d : Dock) (s : State) (frame : ℕ) : Bool :=
  match d with
  | .armBurst => false
  | .sharedPipe => streamReportFrame ≤ frame && 0 < s.streamReportsOwed
  | .navarro => true

/-- The blocks of a report, which restates the mode ahead of an opening. -/
def State.reportBlocks (d : Dock) (s : State) : ℕ :=
  match d with
  | .armBurst => 0
  | .sharedPipe => blocks 32
  | .navarro => if s.armPrefixPending then blocks 112 else blocks 96

/-- `build_stream_report_buf`. -/
def State.buildStreamReport (d : Dock) (s : State) (frame : ℕ) : Option Span × State :=
  if s.reportDue d frame then
    let owed := if d = .sharedPipe then s.streamReportsOwed - 1 else s.streamReportsOwed
    let (r, s') := { s with streamReportsOwed := owed }.takeSealSeq (s.reportBlocks d)
    (some r, s')
  else (none, s)

/-- `build_stream_prefix_buf`, up to the second reservation of a prologue. -/
def State.buildStreamPrefix (d : Dock) (s : State) (t : Thread) : State :=
  match d with
  | .armBurst => s.setPresenter (.ready armBurst true true) t
  | .sharedPipe => s.setPresenter (.ready [] true true) t
  | .navarro =>
      let (r, s') := s.takeSealSeq descriptorBlocks
      s'.setPresenter (.described r) t

/-- A submission that was accepted, or of which only the first sealed records got through. -/
def State.submit (s : State) (t : Thread) (arm : List Span) (startup first : Bool)
    (report : Option Span) (ok : Bool) (delivered : ℕ) : State :=
  if ok then
    { s.setPresenter (.ready [] startup false) t with
      wire := s.wire ++ (arm ++ report.toList)
      armPrefixPending := s.armPrefixPending && !(startup && first) }
  else
    { s.setPresenter .idle t with wire := s.wire ++ (arm ++ report.toList).take delivered }

/-- One step; a step that is not due changes nothing. -/
def step (d : Dock) (s : State) : Event → State
  | .armStreamPrologue =>
      { s with
        armPrefixPending := true
        streamReportsOwed := if d = .sharedPipe then streamReportBurst else s.streamReportsOwed }
  | .begin t withArm =>
      match s.presenter t with
      | .idle =>
          if !withArm then s.setPresenter (.ready [] false true) t
          else if s.armPrefixPending then s.buildStreamPrefix d t
          else s
      | _ => s
  | .configure t ok =>
      match s.presenter t with
      | .described r =>
          if ok then
            let (c, s') := s.takeSealSeq d.configBlocks
            s'.setPresenter (.ready [r, c] true true) t
          else s.setPresenter .idle t
      | _ => s
  | .report t frame =>
      match s.presenter t with
      | .ready arm startup first =>
          if startup && first then s.setPresenter (.loaded arm startup first none) t
          else
            let (r, s') := s.buildStreamReport d frame
            s'.setPresenter (.loaded arm startup first r) t
      | _ => s
  | .submit t ok delivered =>
      match s.presenter t with
      | .loaded arm startup first report => s.submit t arm startup first report ok delivered
      | _ => s
  | .defer t =>
      match s.presenter t with
      | .loaded arm startup first _ => s.setPresenter (.ready arm startup first) t
      | _ => s
  | .leave t =>
      match s.presenter t with
      | .described _ | .configuring _ => s
      | _ => s.setPresenter .idle t
  | .buildConfig t =>
      match d, s.presenter t with
      | .sharedPipe, .idle =>
          if s.armPrefixPending then
            let (c, s') := s.takeSealSeq d.configBlocks
            s'.setPresenter (.configuring c) t
          else s
      | _, _ => s
  | .sendConfig t delivered =>
      match s.presenter t with
      | .configuring c =>
          { s.setPresenter .idle t with wire := s.wire ++ if delivered then [c] else [] }
      | _ => s
  | .keepaliveBuild frame =>
      if s.keepalive.isNone then
        let (r, s') := s.buildStreamReport d frame
        { s' with keepalive := r }
      else s
  | .keepaliveSend delivered =>
      { s with
        keepalive := none
        wire := s.wire ++ if delivered then s.keepalive.toList else [] }

attribute [grind =] step

/-! ### The condition -/

/-- The thread that seals records in a step; the keepalive thread is `none`. -/
def reserver (d : Dock) (s : State) : Event → Option (Option Thread)
  | .begin t withArm =>
      if withArm ∧ s.armPrefixPending ∧ s.presenter t = .idle ∧ d ≠ .sharedPipe then some (some t)
      else none
  | .configure t ok =>
      match s.presenter t with
      | .described _ => if ok then some (some t) else none
      | _ => none
  | .report t frame =>
      match s.presenter t with
      | .ready _ startup first =>
          if !(startup && first) && s.reportDue d frame then some (some t) else none
      | _ => none
  | .buildConfig t =>
      if d = .sharedPipe ∧ s.armPrefixPending ∧ s.presenter t = .idle then some (some t) else none
  | .keepaliveBuild frame =>
      if s.keepalive.isNone ∧ s.reportDue d frame then some none else none
  | _ => none

/-- The reserved records a step throws away. -/
def dropped (s : State) : Event → List Span
  | .configure t ok =>
      match s.presenter t with
      | .described r => if ok then [] else [r]
      | _ => []
  | .submit t ok delivered =>
      match s.presenter t with
      | .loaded arm _ _ report => if ok then [] else (arm ++ report.toList).drop delivered
      | _ => []
  | .defer t =>
      match s.presenter t with
      | .loaded _ _ _ report => report.toList
      | _ => []
  | .leave t =>
      match s.presenter t with
      | .described _ | .configuring _ => []
      | p => p.hand
  | .sendConfig t delivered =>
      match s.presenter t with
      | .configuring c => if delivered then [] else [c]
      | _ => []
  | .keepaliveSend delivered => if delivered then [] else s.keepalive.toList
  | _ => []

/-- On a dock that counts blocks with `take_seal_seq`, nothing reserved is thrown away and a thread
reserves only while no other holds a record.  An arm burst is built for a stream no block of which
is used. -/
def Careful (d : Dock) (opened : Bool) (s : State) (e : Event) : Prop :=
  (∀ h ∈ reserver d s e, (∀ h', h' ≠ h → s.hand h' = []) ∧
    (d = .armBurst → opened = false ∧ s.wire = [])) ∧
    (d ≠ .armBurst → dropped s e = [])

instance (d : Dock) (opened : Bool) (s : State) (e : Event) : Decidable (Careful d opened s e) :=
  inferInstanceAs (Decidable ((∀ h ∈ reserver d s e, _ ∧ _) ∧ (_ → _)))

/-! ### What a step does to the records -/

section Steps

variable {d : Dock} {s s' : State} {t : Thread} {h : Option Thread}

@[simp]
theorem hand_setPresenter (s : State) (p : Presenter) (t : Thread) (h : Option Thread) :
    (s.setPresenter p t).hand h = if h = some t then p.hand else s.hand h := by
  cases t <;> cases h with
  | none => rfl
  | some t' => cases t' <;> rfl

@[simp]
theorem wire_setPresenter (s : State) (p : Presenter) (t : Thread) :
    (s.setPresenter p t).wire = s.wire := by
  cases t <;> rfl

@[simp]
theorem videoSealSeq_setPresenter (s : State) (p : Presenter) (t : Thread) :
    (s.setPresenter p t).videoSealSeq = s.videoSealSeq := by
  cases t <;> rfl

@[simp]
theorem hand_takeSealSeq (s : State) (n : ℕ) (h : Option Thread) :
    (s.takeSealSeq n).2.hand h = s.hand h := by
  rcases h with - | - | - <;> rfl

@[simp]
theorem wire_takeSealSeq (s : State) (n : ℕ) : (s.takeSealSeq n).2.wire = s.wire := rfl

theorem hand_of_presenter {p : Presenter} (hp : s.presenter t = p) :
    s.hand (some t) = p.hand := by
  rw [State.hand, hp]

/-- At most one thread holds records. -/
def Solo (s : State) : Prop := ∀ h h', s.hand h ≠ [] → s.hand h' ≠ [] → h = h'

/-- The records on the wire, and behind them the one in hand, take the counter to where it stands. -/
def Tiling (start : UInt32) (s : State) : Prop :=
  Solo s ∧ Contiguous start s.videoSealSeq (s.wire ++ s.held)

theorem held_eq (hothers : ∀ h', h' ≠ h → s.hand h' = []) : s.held = s.hand h := by
  unfold State.held
  rcases h with - | - | - <;> simp [hothers]

theorem held_congr (hsame : ∀ h, s'.hand h = s.hand h) : s'.held = s.held := by
  unfold State.held
  rw [hsame, hsame, hsame]

/-- The records stay where they are. -/
theorem Tiling.keep {start : UInt32} (hs : Tiling start s) (hhand : ∀ h, s'.hand h = s.hand h)
    (hwire : s'.wire = s.wire) (hseq : s'.videoSealSeq = s.videoSealSeq) : Tiling start s' := by
  refine ⟨fun h h' hh hh' => hs.1 h h' (hhand h ▸ hh) (hhand h' ▸ hh'), ?_⟩
  rw [hwire, hseq, held_congr hhand]
  exact hs.2

/-- **A reservation** by a thread that is alone. -/
theorem Tiling.reserve {start : UInt32} {n : ℕ} (hs : Tiling start s)
    (hothers : ∀ h', h' ≠ h → s.hand h' = []) (hothers' : ∀ h', h' ≠ h → s'.hand h' = s.hand h')
    (hhand : s'.hand h = s.hand h ++ [⟨s.videoSealSeq, n⟩]) (hwire : s'.wire = s.wire)
    (hseq : s'.videoSealSeq = s.videoSealSeq + UInt32.ofNat n) : Tiling start s' := by
  have hempty : ∀ h', h' ≠ h → s'.hand h' = [] := fun h' hne => by
    rw [hothers' h' hne, hothers h' hne]
  refine ⟨fun a b ha hb => ?_, ?_⟩
  · have hah : a = h := by
      by_contra hne
      exact ha (hempty a hne)
    have hbh : b = h := by
      by_contra hne
      exact hb (hempty b hne)
    rw [hah, hbh]
  · have hcont := hs.2
    rw [held_eq hothers] at hcont
    rw [held_eq hempty, hhand, hwire, hseq, ← List.append_assoc]
    exact hcont.append ⟨rfl, rfl⟩

/-- **A submission** of everything a thread holds. -/
theorem Tiling.flush {start : UInt32} (hs : Tiling start s) (hhand : s'.hand h = [])
    (hothers : ∀ h', h' ≠ h → s'.hand h' = s.hand h') (hwire : s'.wire = s.wire ++ s.hand h)
    (hseq : s'.videoSealSeq = s.videoSealSeq) : Tiling start s' := by
  rcases List.eq_nil_or_concat (s.hand h) with hnil | ⟨_, _, hne⟩
  · refine hs.keep (fun h' => ?_) (by rw [hwire, hnil, List.append_nil]) hseq
    rcases eq_or_ne h' h with rfl | hne
    · rw [hhand, hnil]
    · exact hothers h' hne
  · have hhold : s.hand h ≠ [] := by simp [hne]
    have hempty : ∀ h', h' ≠ h → s.hand h' = [] := by
      intro h' hne'
      by_contra hh'
      exact hne' (hs.1 h' h hh' hhold)
    have hempty' : ∀ h', s'.hand h' = [] := by
      intro h'
      rcases eq_or_ne h' h with rfl | hne'
      · exact hhand
      · rw [hothers h' hne', hempty h' hne']
    refine ⟨fun a b ha _ => absurd (hempty' a) ha, ?_⟩
    have hcont := hs.2
    rw [held_eq hempty] at hcont
    rw [held_eq (h := h) (fun h' _ => hempty' h'), hhand, hwire, hseq, List.append_nil]
    exact hcont

end Steps

/-! ### Docks with one counter -/

section Shared

variable {d : Dock} {s : State} {start : UInt32} {opened : Bool}

/-- The report, if one is due, is reserved by the thread that builds it. -/
theorem buildStreamReport_cases (d : Dock) (s : State) (frame : ℕ) :
    (s.reportDue d frame = false ∧ s.buildStreamReport d frame = (none, s)) ∨
      s.reportDue d frame = true ∧ ∃ s', s.buildStreamReport d frame =
        (some ⟨s.videoSealSeq, s.reportBlocks d⟩, s') ∧ (∀ h, s'.hand h = s.hand h) ∧
        s'.wire = s.wire ∧ s'.videoSealSeq = s.videoSealSeq + UInt32.ofNat (s.reportBlocks d) := by
  unfold State.buildStreamReport
  cases hdue : s.reportDue d frame with
  | false => exact .inl ⟨rfl, rfl⟩
  | true =>
      refine .inr ⟨rfl, _, rfl, fun h => ?_, rfl, rfl⟩
      rcases h with - | - | - <;> rfl

theorem tiling_begin (hd : d ≠ .armBurst) (hs : Tiling start s) {t : Thread} {withArm : Bool}
    (hc : Careful d opened s (.begin t withArm)) : Tiling start (step d s (.begin t withArm)) := by
  simp only [step]
  split
  case h_2 => exact hs
  case h_1 hidle =>
    have hhand : s.hand (some t) = [] := hand_of_presenter hidle
    have hsame : ∀ arm startup first, arm = [] →
        Tiling start (s.setPresenter (.ready arm startup first) t) := by
      rintro arm startup first rfl
      refine hs.keep (fun h => ?_) (by simp) (by simp)
      by_cases hh : h = some t <;> simp [hh, hhand, Presenter.hand]
    split_ifs with hwith hpending
    · exact hsame [] false true rfl
    · cases d with
      | armBurst => exact absurd rfl hd
      | sharedPipe => exact hsame [] true true rfl
      | navarro =>
          have hres : reserver .navarro s (.begin t withArm) = some (some t) := by
            simp at hwith
            simp [reserver, hpending, hidle, hwith]
          refine hs.reserve (h := some t) (n := descriptorBlocks) (hc.1 _ hres).1 (fun h hne => ?_)
            ?_ ?_ ?_
          · simp [State.buildStreamPrefix, hne]
          · simp [State.buildStreamPrefix, hhand, Presenter.hand, State.takeSealSeq]
          · simp [State.buildStreamPrefix]
          · simp [State.buildStreamPrefix, State.takeSealSeq]
    · exact hs

theorem tiling_configure (hd : d ≠ .armBurst) (hs : Tiling start s) {t : Thread} {ok : Bool}
    (hc : Careful d opened s (.configure t ok)) : Tiling start (step d s (.configure t ok)) := by
  simp only [step]
  split
  case h_2 => exact hs
  case h_1 r hdescribed =>
    have hhand : s.hand (some t) = [r] := hand_of_presenter hdescribed
    cases ok with
    | false =>
        have hdrop := hc.2 hd
        simp [dropped, hdescribed] at hdrop
    | true =>
        have hres : reserver d s (.configure t true) = some (some t) := by
          simp [reserver, hdescribed]
        refine hs.reserve (h := some t) (n := d.configBlocks) (hc.1 _ hres).1 (fun h hne => ?_) ?_ ?_ ?_
        · simp [hne]
        · simp [hhand, Presenter.hand, State.takeSealSeq]
        · simp
        · simp [State.takeSealSeq]

theorem tiling_report (hs : Tiling start s) {t : Thread} {frame : ℕ}
    (hc : Careful d opened s (.report t frame)) : Tiling start (step d s (.report t frame)) := by
  simp only [step]
  split
  case h_2 => exact hs
  case h_1 arm startup first hready =>
    have hhand : s.hand (some t) = arm := hand_of_presenter hready
    have hsame : Tiling start (s.setPresenter (.loaded arm startup first none) t) := by
      refine hs.keep (fun h => ?_) (by simp) (by simp)
      by_cases hh : h = some t <;> simp [hh, hhand, Presenter.hand]
    split_ifs with hfirst
    · exact hsame
    · rcases buildStreamReport_cases d s frame with ⟨-, heq⟩ | ⟨hdue, s', heq, hsame', hwire, hseq⟩
      · rw [heq]
        exact hsame
      · have hres : reserver d s (.report t frame) = some (some t) := by
          simp [reserver, hready, hdue, hfirst]
        rw [heq]
        refine hs.reserve (h := some t) (n := s.reportBlocks d) (hc.1 _ hres).1 (fun h hne => ?_)
          ?_ ?_ ?_
        · simp [hne, hsame']
        · simp [hhand, Presenter.hand]
        · simpa using hwire
        · simpa using hseq

theorem tiling_submit (hd : d ≠ .armBurst) (hs : Tiling start s) {t : Thread} {ok : Bool}
    {delivered : ℕ} (hc : Careful d opened s (.submit t ok delivered)) :
    Tiling start (step d s (.submit t ok delivered)) := by
  simp only [step]
  split
  case h_2 => exact hs
  case h_1 arm startup first report hloaded =>
    have hhand : s.hand (some t) = arm ++ report.toList := hand_of_presenter hloaded
    cases ok with
    | true =>
        refine hs.flush (h := some t) ?_ (fun h hne => ?_) ?_ ?_
        · exact (hand_setPresenter s _ t (some t)).trans (if_pos rfl)
        · exact (hand_setPresenter s _ t h).trans (if_neg hne)
        · rw [hhand]
          rfl
        · exact videoSealSeq_setPresenter s _ t
    | false =>
        have hall : (arm ++ report.toList).take delivered = arm ++ report.toList := by
          have hdrop := hc.2 hd
          simp only [dropped, hloaded, Bool.false_eq_true, if_false] at hdrop
          rw [List.take_of_length_le (List.drop_eq_nil_iff.1 hdrop)]
        refine hs.flush (h := some t) ?_ (fun h hne => ?_) ?_ ?_
        · exact (hand_setPresenter s _ t (some t)).trans (if_pos rfl)
        · exact (hand_setPresenter s _ t h).trans (if_neg hne)
        · rw [hhand, ← hall]
          simp [State.submit, hall]
        · exact videoSealSeq_setPresenter s _ t

theorem tiling_defer (hd : d ≠ .armBurst) (hs : Tiling start s) {t : Thread}
    (hc : Careful d opened s (.defer t)) : Tiling start (step d s (.defer t)) := by
  simp only [step]
  split
  case h_2 => exact hs
  case h_1 arm startup first report hloaded =>
    have hhand : s.hand (some t) = arm ++ report.toList := hand_of_presenter hloaded
    have hdrop := hc.2 hd
    simp only [dropped, hloaded] at hdrop
    refine hs.keep (fun h => ?_) (by simp) (by simp)
    by_cases hh : h = some t <;> simp [hh, hhand, hdrop, Presenter.hand]

theorem tiling_leave (hd : d ≠ .armBurst) (hs : Tiling start s) {t : Thread}
    (hc : Careful d opened s (.leave t)) : Tiling start (step d s (.leave t)) := by
  have hdrop := hc.2 hd
  simp only [step]
  split
  case h_1 => exact hs
  case h_2 => exact hs
  case h_3 hdescribed hconfiguring =>
    have hhand : s.hand (some t) = [] := by
      simp only [dropped] at hdrop
      exact hdrop
    refine hs.keep (fun h => ?_) (by simp) (by simp)
    by_cases hh : h = some t <;> simp [hh, hhand, Presenter.hand]

theorem tiling_buildConfig (hs : Tiling start s) {t : Thread}
    (hc : Careful d opened s (.buildConfig t)) : Tiling start (step d s (.buildConfig t)) := by
  simp only [step]
  split
  case h_2 => exact hs
  case h_1 hidle =>
    have hhand : s.hand (some t) = [] := hand_of_presenter hidle
    split_ifs with hpending
    · have hres : reserver .sharedPipe s (.buildConfig t) = some (some t) := by
        simp [reserver, hpending, hidle]
      refine hs.reserve (h := some t) (n := Dock.configBlocks .sharedPipe) (hc.1 _ hres).1
        (fun h hne => ?_) ?_ ?_ ?_
      · simp [hne]
      · simp [hhand, Presenter.hand, State.takeSealSeq]
      · simp
      · simp [State.takeSealSeq]
    · exact hs

theorem tiling_sendConfig (hd : d ≠ .armBurst) (hs : Tiling start s) {t : Thread} {delivered : Bool}
    (hc : Careful d opened s (.sendConfig t delivered)) :
    Tiling start (step d s (.sendConfig t delivered)) := by
  simp only [step]
  split
  case h_2 => exact hs
  case h_1 c hconfiguring =>
    have hhand : s.hand (some t) = [c] := hand_of_presenter hconfiguring
    cases delivered with
    | false =>
        have hdrop := hc.2 hd
        simp [dropped, hconfiguring] at hdrop
    | true =>
        refine hs.flush (h := some t) ?_ (fun h hne => ?_) ?_ ?_
        · exact (hand_setPresenter s _ t (some t)).trans (if_pos rfl)
        · exact (hand_setPresenter s _ t h).trans (if_neg hne)
        · rw [hhand]
          rfl
        · exact videoSealSeq_setPresenter s _ t

theorem tiling_keepaliveBuild (hs : Tiling start s) {frame : ℕ}
    (hc : Careful d opened s (.keepaliveBuild frame)) :
    Tiling start (step d s (.keepaliveBuild frame)) := by
  simp only [step]
  split_ifs with hnone
  · have hhand : s.hand none = [] := by
      simp only [State.hand]
      rw [Option.isNone_iff_eq_none.1 hnone]
      rfl
    rcases buildStreamReport_cases d s frame with ⟨-, heq⟩ | ⟨hdue, s', heq, hsame, hwire, hseq⟩
    · rw [heq]
      refine hs.keep (fun h => ?_) rfl rfl
      rcases h with - | t
      · exact hhand.symm
      · cases t <;> rfl
    · have hres : reserver d s (.keepaliveBuild frame) = some none := by
        simp [reserver, hnone, hdue]
      rw [heq]
      refine hs.reserve (h := none) (n := s.reportBlocks d) (hc.1 _ hres).1 (fun h hne => ?_) ?_
        hwire hseq
      · rcases h with - | t
        · exact absurd rfl hne
        · rw [← hsame]
          cases t <;> rfl
      · rw [hhand]
        rfl
  · exact hs

theorem tiling_keepaliveSend (hd : d ≠ .armBurst) (hs : Tiling start s) {delivered : Bool}
    (hc : Careful d opened s (.keepaliveSend delivered)) :
    Tiling start (step d s (.keepaliveSend delivered)) := by
  have hothers : ∀ h', h' ≠ none → (step d s (.keepaliveSend delivered)).hand h' = s.hand h' := by
    rintro (- | t) hne
    · exact absurd rfl hne
    · cases t <;> rfl
  refine hs.flush (h := none) rfl hothers ?_ rfl
  cases delivered with
  | true => rfl
  | false =>
      have hdrop := hc.2 hd
      simp only [dropped, Bool.false_eq_true, if_false] at hdrop
      simp [step, State.hand, hdrop]

/-- **One step keeps the tiling.** -/
theorem tiling_step (hd : d ≠ .armBurst) (s : State) (e : Event) (hs : Tiling start s)
    (hc : Careful d opened s e) : Tiling start (step d s e) := by
  cases e with
  | armStreamPrologue =>
      refine hs.keep (fun h => ?_) rfl rfl
      rcases h with - | - | - <;> rfl
  | begin t withArm => exact tiling_begin hd hs hc
  | configure t ok => exact tiling_configure hd hs hc
  | report t frame => exact tiling_report hs hc
  | submit t ok delivered => exact tiling_submit hd hs hc
  | defer t => exact tiling_defer hd hs hc
  | leave t => exact tiling_leave hd hs hc
  | buildConfig t => exact tiling_buildConfig hs hc
  | sendConfig t delivered => exact tiling_sendConfig hd hs hc
  | keepaliveBuild frame => exact tiling_keepaliveBuild hs hc
  | keepaliveSend delivered => exact tiling_keepaliveSend hd hs hc

end Shared

/-! ### Docks with an arm burst -/

section Burst

variable {s : State} {opened : Bool}

/-- A thread of an arm-burst dock holds the whole burst or nothing, and the burst only while the
stream has no block. -/
def Whole (opened : Bool) (s : State) : Presenter → Prop
  | .idle => True
  | .ready arm _ _ | .loaded arm _ _ none =>
      arm = [] ∨ arm = armBurst ∧ opened = false ∧ s.wire = []
  | _ => False

/-- What holds on an arm-burst dock: one thread at most has a burst, and what is on the wire is the
front of one. -/
structure Bursting (opened : Bool) (s : State) : Prop where
  whole : ∀ t, Whole opened s (s.presenter t)
  keepalive : s.keepalive = none
  solo : Solo s
  wire : s.wire = [] ∨ opened = false ∧ ∃ n, s.wire = armBurst.take n

theorem presenter_setPresenter (s : State) (p : Presenter) (t t' : Thread) :
    (s.setPresenter p t).presenter t' = if t' = t then p else s.presenter t' := by
  cases t <;> cases t' <;> rfl

/-- A thread moves on without a change on the wire. -/
theorem Bursting.set (hs : Bursting opened s) {p : Presenter} {t : Thread}
    (hp : Whole opened s p)
    (hsolo : p.hand ≠ [] → ∀ h, h ≠ some t → s.hand h = []) :
    Bursting opened (s.setPresenter p t) := by
  have hwhole : ∀ t', Whole opened s ((s.setPresenter p t).presenter t') := by
    intro t'
    rw [presenter_setPresenter]
    split_ifs
    · exact hp
    · exact hs.whole t'
  refine ⟨fun t' => ?_, ?_, fun a b ha hb => ?_, ?_⟩
  · have h := hwhole t'
    unfold Whole at h ⊢
    rwa [wire_setPresenter]
  · cases t <;> exact hs.keepalive
  · rw [hand_setPresenter] at ha hb
    split_ifs at ha hb with hat hbt hbt
    · rw [hat, hbt]
    · exact absurd (hsolo ha b hbt) hb
    · exact absurd (hsolo hb a hat) ha
    · exact hs.solo a b ha hb
  · rw [wire_setPresenter]
    exact hs.wire

/-- Nothing that the invariant speaks of changes. -/
theorem Bursting.congr {s' : State} (hs : Bursting opened s)
    (hpresenter : ∀ t, s'.presenter t = s.presenter t) (hkeepalive : s'.keepalive = none)
    (hwire : s'.wire = s.wire) : Bursting opened s' := by
  have hhand : ∀ h, s'.hand h = s.hand h := by
    rintro (- | t)
    · simp [State.hand, hkeepalive, hs.keepalive]
    · simp [State.hand, hpresenter]
  refine ⟨fun t => ?_, hkeepalive, fun a b ha hb => ?_, hwire ▸ hs.wire⟩
  · have h := hs.whole t
    unfold Whole at h ⊢
    rwa [hpresenter, hwire]
  · exact hs.solo a b (hhand a ▸ ha) (hhand b ▸ hb)

/-- **A submission** puts the front of the burst on the wire, and leaves nobody with one. -/
theorem Bursting.submit {t : Thread} {arm : List Span} {startup first : Bool}
    (hs : Bursting opened s) (hloaded : s.presenter t = .loaded arm startup first none)
    (n : ℕ) {p : Presenter} (hp : p.hand = []) (hwhole : ∀ s, Whole opened s p) (pending : Bool) :
    Bursting opened { s.setPresenter p t with
      wire := s.wire ++ arm.take n, armPrefixPending := pending } := by
  have harm := hs.whole t
  rw [hloaded] at harm
  rcases harm with rfl | ⟨rfl, hopened, hwire⟩
  · have hset := hs.set (p := p) (t := t) (hwhole s) (fun hne => absurd hp hne)
    refine hset.congr (fun t' => ?_) hset.keepalive (by simp)
    cases t' <;> rfl
  · have hothers : ∀ h, h ≠ some t → s.hand h = [] := by
      intro h hne
      by_contra hh
      refine hne (hs.solo h (some t) hh ?_)
      rw [hand_of_presenter hloaded]
      simp [Presenter.hand, armBurst]
    have hset := hs.set (p := p) (t := t) (hwhole s) (fun hne => absurd hp hne)
    have hempty : ∀ h, (s.setPresenter p t).hand h = [] := by
      intro h
      rw [hand_setPresenter]
      split_ifs with hh
      · exact hp
      · exact hothers h hh
    have hhand : ∀ h, State.hand { s.setPresenter p t with
        wire := s.wire ++ armBurst.take n, armPrefixPending := pending } h = [] := by
      intro h
      rw [← hempty h]
      rcases h with - | - | - <;> rfl
    refine ⟨fun t' => ?_, hset.keepalive, fun a b ha _ => absurd (hhand a) ha, ?_⟩
    · have hwhole' := hset.whole t'
      have hhand' := hempty (some t')
      have hsame : State.presenter { s.setPresenter p t with
          wire := s.wire ++ armBurst.take n, armPrefixPending := pending } t' =
            (s.setPresenter p t).presenter t' := by cases t' <;> rfl
      rw [hsame]
      revert hwhole' hhand'
      simp only [State.hand]
      cases (s.setPresenter p t).presenter t' with
      | idle => exact fun _ _ => trivial
      | described r => exact fun h _ => h
      | configuring c => exact fun h _ => h
      | ready arm _ _ => exact fun _ h => .inl h
      | loaded arm _ _ report =>
          cases report with
          | none => exact fun _ h => .inl (by simpa [Presenter.hand] using h)
          | some r => exact fun h _ => h
    · exact .inr ⟨hopened, n, by simp [hwire]⟩

/-- **One step on an arm-burst dock.** -/
theorem bursting_step (s : State) (e : Event) (hs : Bursting opened s)
    (hc : Careful .armBurst opened s e) : Bursting opened (step .armBurst s e) := by
  cases e with
  | armStreamPrologue => exact hs.congr (fun t => by cases t <;> rfl) hs.keepalive rfl
  | begin t withArm =>
      simp only [step]
      split
      case h_2 => exact hs
      case h_1 hidle =>
        split_ifs with hwith hpending
        · exact hs.set (.inl rfl) (fun hne => absurd rfl hne)
        · have hres : reserver .armBurst s (.begin t withArm) = some (some t) := by
            simp at hwith
            simp [reserver, hpending, hidle, hwith]
          obtain ⟨hothers, hfresh⟩ := hc.1 _ hres
          exact hs.set (.inr ⟨rfl, hfresh rfl⟩) (fun _ => hothers)
        · exact hs
  | configure t ok =>
      simp only [step]
      split
      case h_2 => exact hs
      case h_1 r hdescribed =>
        have hwhole := hs.whole t
        rw [hdescribed] at hwhole
        exact hwhole.elim
  | report t frame =>
      simp only [step]
      split
      case h_2 => exact hs
      case h_1 arm startup first hready =>
        have hwhole := hs.whole t
        rw [hready] at hwhole
        have hload : Bursting opened (s.setPresenter (.loaded arm startup first none) t) := by
          refine hs.set hwhole (fun hne h hh => ?_)
          by_contra hother
          refine hh (hs.solo h (some t) hother ?_)
          rw [hand_of_presenter hready]
          simpa [Presenter.hand] using hne
        split_ifs
        · exact hload
        · exact hload
  | submit t ok delivered =>
      simp only [step]
      split
      case h_2 => exact hs
      case h_1 arm startup first report hloaded =>
        have hwhole := hs.whole t
        rw [hloaded] at hwhole
        cases report with
        | some r => exact hwhole.elim
        | none =>
            cases ok with
            | true =>
                have hsubmit := hs.submit hloaded arm.length (p := .ready [] startup false) rfl
                  (fun _ => .inl rfl) (s.armPrefixPending && !(startup && first))
                simpa [State.submit] using hsubmit
            | false =>
                have hsubmit := hs.submit hloaded delivered (p := .idle) rfl (fun _ => trivial)
                  (s.setPresenter .idle t).armPrefixPending
                simpa [State.submit] using hsubmit
  | defer t =>
      simp only [step]
      split
      case h_2 => exact hs
      case h_1 arm startup first report hloaded =>
        have hwhole := hs.whole t
        rw [hloaded] at hwhole
        cases report with
        | some r => exact hwhole.elim
        | none =>
            refine hs.set hwhole (fun hne h hh => ?_)
            by_contra hother
            refine hh (hs.solo h (some t) hother ?_)
            rw [hand_of_presenter hloaded]
            simpa [Presenter.hand] using hne
  | leave t =>
      simp only [step]
      split
      · exact hs
      · exact hs
      · exact hs.set trivial (fun hne => absurd rfl hne)
  | buildConfig t => exact hs
  | sendConfig t delivered =>
      simp only [step]
      split
      case h_2 => exact hs
      case h_1 c hconfiguring =>
        have hwhole := hs.whole t
        rw [hconfiguring] at hwhole
        exact hwhole.elim
  | keepaliveBuild frame =>
      simp only [step]
      split_ifs
      · exact hs.congr (fun t => by cases t <;> rfl) rfl rfl
      · exact hs
  | keepaliveSend delivered =>
      refine hs.congr (fun t => by cases t <;> rfl) rfl ?_
      simp [step, hs.keepalive]

end Burst

/-! ### Runs -/

/-- The block `set_video_keys` leaves the counter at. -/
def firstBlock (opened : Bool) : UInt32 := if opened then 1 else 0

/-- The records are laid from a block on, in order and without gaps, and share no block. -/
def Tiles (start : UInt32) (wire : List Span) : Prop :=
  (∃ seq, Contiguous start seq wire) ∧ wire.Pairwise Span.Disjoint

/-- No thread holds a record. -/
def State.Quiet (s : State) : Prop := s.scanout = .idle ∧ s.command = .idle ∧ s.keepalive = none

theorem contiguous_run (d : Dock) (s : State) (opened : Bool) (es : List Event) (hs : s.Quiet)
    (hrun : Along (Careful d opened) (step d) (s.setVideoKeys opened) es) :
    ∃ seq, Contiguous (firstBlock opened) seq (run (step d) (s.setVideoKeys opened) es).wire := by
  obtain ⟨hscanout, hcommand, hkeepalive⟩ := hs
  have hhand : ∀ h, (s.setVideoKeys opened).hand h = [] := by
    rintro (- | - | -)
    · simp [State.hand, State.setVideoKeys, hkeepalive]
    · simp [State.hand, State.presenter, State.setVideoKeys, hscanout, Presenter.hand]
    · simp [State.hand, State.presenter, State.setVideoKeys, hcommand, Presenter.hand]
  have hsolo : Solo (s.setVideoKeys opened) := fun a b ha _ => absurd (hhand a) ha
  by_cases hd : d = .armBurst
  · subst hd
    have hinit : Bursting opened (s.setVideoKeys opened) := by
      refine ⟨fun t => ?_, hkeepalive, hsolo, .inl rfl⟩
      cases t
      · simp [State.presenter, State.setVideoKeys, hscanout, Whole]
      · simp [State.presenter, State.setVideoKeys, hcommand, Whole]
    have hend := run_invariant (P := Bursting opened) bursting_step es _ hinit hrun
    rcases hend.wire with hnil | ⟨hopened, n, htake⟩
    · exact ⟨_, by rw [hnil]; exact rfl⟩
    · have hburst : Contiguous 0 140 armBurst := ⟨rfl, rfl, rfl, rfl, rfl⟩
      rw [← List.take_append_drop n armBurst] at hburst
      obtain ⟨seq, hseq⟩ := hburst.left
      exact ⟨seq, by rw [htake, hopened]; exact hseq⟩
  · have hinit : Tiling (firstBlock opened) (s.setVideoKeys opened) := by
      refine ⟨hsolo, ?_⟩
      rw [held_eq (h := none) (fun h' _ => hhand h'), hhand]
      exact rfl
    have hend := run_invariant (P := Tiling (firstBlock opened)) (tiling_step hd) es _ hinit hrun
    exact hend.2.left

/-- **Sealed video records tile the keystream** in every run in which no reserved record is dropped,
none is reserved while another thread holds one, and an arm burst opens a stream without blocks, as
long as the counter has not gone round. -/
theorem records_tile (d : Dock) (s : State) (opened : Bool) (es : List Event) (hs : s.Quiet)
    (hrun : Along (Careful d opened) (step d) (s.setVideoKeys opened) es)
    (hfit : total (run (step d) (s.setVideoKeys opened) es).wire ≤ 2 ^ 32) :
    Tiles (firstBlock opened) (run (step d) (s.setVideoKeys opened) es).wire := by
  obtain ⟨seq, hseq⟩ := contiguous_run d s opened es hs hrun
  exact ⟨⟨seq, hseq⟩, hseq.pairwise_disjoint hfit⟩

/-- A Navarro stream is opened, presented twice, kept alive and opened again. -/
def reopened : List Event :=
  [.armStreamPrologue, .begin .command true, .configure .command true, .report .command 0,
    .submit .command true 0, .report .command 0, .submit .command true 0, .leave .command,
    .keepaliveBuild 1, .keepaliveSend true, .armStreamPrologue, .begin .scanout true,
    .configure .scanout true, .report .scanout 1, .submit .scanout false 2, .leave .scanout]

theorem records_tile_reopened :
    Along (Careful .navarro false) (step .navarro) (State.initial.setVideoKeys false) reopened ∧
      (run (step .navarro) (State.initial.setVideoKeys false) reopened).wire.length = 6 ∧
      Tiles (firstBlock false)
        (run (step .navarro) (State.initial.setVideoKeys false) reopened).wire := by
  have hrun : Along (Careful .navarro false) (step .navarro) (State.initial.setVideoKeys false)
      reopened := by decide
  exact ⟨hrun, by decide, records_tile .navarro State.initial false reopened ⟨rfl, rfl, rfl⟩ hrun
    (by decide)⟩

/-- A Ridge stream is opened twice under one key. -/
def rearmed : List Event :=
  [.armStreamPrologue, .begin .command true, .report .command 0, .submit .command true 0,
    .leave .command, .armStreamPrologue, .begin .command true, .report .command 0,
    .submit .command true 0]

/-- **The second arm burst repeats the keystream of the first.** -/
theorem rearm_overlaps : State.initial.Quiet ∧
    total (run (step .armBurst) (State.initial.setVideoKeys false) rearmed).wire ≤ 2 ^ 32 ∧
    ¬ Tiles (firstBlock false)
      (run (step .armBurst) (State.initial.setVideoKeys false) rearmed).wire := by
  refine ⟨⟨rfl, rfl, rfl⟩, by decide, ?_⟩
  have hwire : (run (step .armBurst) (State.initial.setVideoKeys false) rearmed).wire =
      armBurst ++ armBurst := by decide
  rintro ⟨-, hdisjoint⟩
  rw [hwire] at hdisjoint
  have hmem : ⟨0, 1⟩ ∈ armBurst := List.mem_cons_self
  exact (List.pairwise_append.1 hdisjoint).2.2 _ hmem _ hmem 0 Nat.one_pos 0 Nat.one_pos rfl

end Vino.Kms.Keystream
