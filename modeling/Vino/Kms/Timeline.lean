import Vino.Kms.Mailbox
import Vino.Profile

/-!
# Activation Timelines

An activation is a script: control messages and carriers in the order of the vendor's captures, with
a look at the request behind every set-mode.  `activate_head` has its own schedule; the cold wake of
two connectors merges three tables of a dock by their offsets; a dock with video on its control pipe
follows a table of steps.  Connectors of a table are slots, of which there are two: the lowest
connectors the activation brings up.

* `within_headScript`, `within_dualScript`, `within_dockWideScript`: a script addresses only the
  connectors its activation brings up.
-/

namespace Vino.Kms.Timeline

open Vino.Profile
open Vino.Kms.Mailbox (count)

local instance neZero_four : NeZero 4 := ⟨by decide⟩

variable {τ : Type}

/-! ### Messages and scripts -/

/-- What an activation sends. -/
inductive Message (τ : Type) where
  | marker (connector : Fin 4) (sub state : UInt8)
  | poll
  | clearMode (connector : Fin 4)
  | setMode (connector : Fin 4) (timing : τ)
  | edidState (connector : Fin 4) (state : UInt8)
  | probe (connector : Fin 4)
  | fetch (connector : Fin 4)
  | sinkTeardown (connector : Fin 4)
  | engage (connector : Fin 4)
  | postEdid (connector : Fin 4)
  /-- `reserve_cp_counters`. -/
  | reserve
  | prologue (connector : Fin 4)
  | ring (connector : Fin 4)
  | config (connector : Fin 4)
  /-- The black frames a stream opens with. -/
  | carrier (connector : Fin 4)
  deriving DecidableEq

/-- The connector of a message that opens or programs something. -/
def Message.target : Message τ → Option (Fin 4)
  | marker c .. | setMode c _ => some c
  | _ => none

/-- One operation of a script. -/
inductive Op (τ : Type) where
  /-- A message whose failure ends the transaction. -/
  | send (m : Message τ)
  /-- A message for a connector whose mode is in force. -/
  | sendIf (connector : Fin 4) (m : Message τ)
  /-- A message whose failure is kept for later. -/
  | attempt (m : Message τ)
  /-- The failure that was kept ends the transaction. -/
  | raise
  /-- `EINVAL`. -/
  | invalid
  /-- Set the mode of a connector, look whether its request is still the one being activated, and
  put the mode in force. -/
  | program (connector : Fin 4) (timing : τ)
  deriving DecidableEq

/-- The operation opens or programs only these connectors. -/
def Op.Within (valid : Fin 4 → Bool) : Op τ → Prop
  | send m | sendIf _ m | attempt m => ∀ c, m.target = some c → valid c = true
  | raise | invalid => True
  | program c _ => valid c = true

/-- Two slots name the connectors of an activation: the two lowest. -/
def connectorOf (valid : Fin 4 → Bool) (slot : ℕ) : Fin 4 :=
  ((List.finRange 4).filter valid).getD (min slot 1) 0

/-! ### One connector -/

section Head

variable (p : DockProfile)

def modesetBracketPre (c : Fin 4) : List (Op τ) :=
  ([.send (.marker c 0x2f 1)] : List (Op τ)) ++
    (p.protocol.preModeSinkState.toList.map fun state => Op.send (.marker c 0x2e state)) ++
    ([.send .poll] : List (Op τ))

def modesetBracketPostOpen (c : Fin 4) : List (Op τ) :=
  [.send .poll, .send (.marker c 0x2f 1), .send (.marker c 0x2e p.protocol.postModeSinkStates.1),
    .send (.marker c 0x2f 1), .send (.marker c 0x2e p.protocol.postModeSinkStates.2),
    .send (.prologue c), .send (.marker c 0x2f 1), .send .poll, .send (.marker c 0x2e 0),
    .send .poll, .send .poll, .send .poll]

def modesetBracketPostClose (c : Fin 4) : List (Op τ) :=
  if p.topology.videoOnCtrlPipe then []
  else [.send (.marker c 0x2f 0), .send (.marker c 0x2e 0)]

/-- The transaction of `activate_head`. -/
def headScript (c : Fin 4) (t : τ) : List (Op τ) :=
  modesetBracketPre p c ++
    (if p.protocol.clearModeBeforeSet then [Op.send (.clearMode c)] else []) ++
    [Op.program c t] ++ modesetBracketPostOpen p c ++ [Op.attempt (.carrier c)] ++
    modesetBracketPostClose p c ++ [Op.raise]

/-- Its carrier behind the bracket. -/
def headTail (c : Fin 4) : List (Op τ) :=
  if p.topology.videoOnCtrlPipe then [] else [.send (.carrier c)]

end Head

/-! ### Two connectors on pipes of their own -/

/-- A dock's cold bring-up, anchored on the first set-mode.  Neither dock repeats a mode set, so
the table of those is left out. -/
structure ColdTimeline where
  h1Mode : ℕ
  /-- Slots in the order they start streaming. -/
  video : List (ℕ × ℕ)
  /-- Offset, slot, sub and state of the stream markers. -/
  markers : List (ℕ × ℕ × UInt8 × UInt8)
  polls : List ℕ
  /-- Offset, slot and whether the EDID is fetched. -/
  edid : List (ℕ × ℕ × Bool)

def coldRidge : ColdTimeline where
  h1Mode := 29
  video := [(0, 1159), (1, 1233)]
  markers :=
    [(17, 0, 0x2f, 1), (21, 0, 0x2e, 3), (1016, 0, 0x2f, 1), (1021, 1, 0x2f, 1),
      (1023, 0, 0x2e, 3), (1029, 1, 0x2e, 3), (1056, 0, 0x2f, 1), (1057, 1, 0x2f, 1),
      (1064, 0, 0x2e, 0), (1124, 1, 0x2e, 3), (1132, 1, 0x2f, 1), (1135, 1, 0x2e, 0),
      (1195, 0, 0x2f, 0), (1208, 0, 0x2e, 0), (1220, 1, 0x2f, 1), (1225, 1, 0x2e, 0),
      (1295, 1, 0x2f, 0), (1298, 1, 0x2e, 0)]
  polls := [5, 26, 1019, 1130, 1192, 1204, 1222, 1235, 1253, 1270, 1287, 1304]
  edid := [(1033, 1, false), (1059, 1, true)]

def coldNavarro : ColdTimeline where
  h1Mode := 10
  video :=
    [(0, 122), (0, 124), (0, 134), (0, 171), (0, 192), (0, 199), (0, 235), (0, 252), (1, 272),
      (0, 277), (1, 293), (1, 303)]
  markers :=
    [(7, 0, 0x2f, 1), (13, 0, 0x2e, 3), (20, 1, 0x2f, 1), (21, 0, 0x2f, 1), (35, 0, 0x2e, 0),
      (76, 1, 0x2e, 3), (104, 1, 0x2f, 1), (128, 1, 0x2e, 3), (131, 0, 0x2f, 1),
      (136, 0, 0x2e, 0), (168, 1, 0x2f, 1), (181, 1, 0x2e, 0), (228, 0, 0x2f, 0),
      (230, 0, 0x2e, 0), (303, 1, 0x2f, 0), (304, 1, 0x2e, 0)]
  polls := [17, 78, 120, 162, 179, 223, 267, 295, 297, 297]
  edid := []

/-- One operation of Navarro's sink reset, by slot. -/
inductive NavarroColdOp where
  | poll
  | edidState (slot : ℕ) (state : UInt8)
  | probe (slot : ℕ)
  | fetch (slot : ℕ)
  | sinkTeardown (slot : ℕ)
  | engage (slot : ℕ)
  | postEdid (slot : ℕ)
  | clear (slot : ℕ)

def NavarroColdOp.message (remap : ℕ → Fin 4) : NavarroColdOp → Message τ
  | poll => .poll
  | edidState h s => .edidState (remap h) s
  | probe h => .probe (remap h)
  | fetch h => .fetch (remap h)
  | sinkTeardown h => .sinkTeardown (remap h)
  | engage h => .engage (remap h)
  | postEdid h => .postEdid (remap h)
  | clear h => .clearMode (remap h)

/-- The sink reset between Navarro's first clears and its first mode; only the order is kept. -/
def navarroColdPrelude : List NavarroColdOp :=
  ([.edidState 0 0, .probe 0, .edidState 1 0, .probe 1, .sinkTeardown 0, .sinkTeardown 1] :
      List NavarroColdOp) ++
    List.replicate 29 NavarroColdOp.poll ++
    ([.probe 0, .edidState 0 1, .probe 0, .fetch 0, .engage 0, .clear 0, .poll, .probe 1,
      .edidState 1 1, .probe 1, .postEdid 0, .fetch 1, .engage 1, .clear 1] :
      List NavarroColdOp) ++
    List.replicate 6 NavarroColdOp.poll ++ ([.postEdid 1, .poll] : List NavarroColdOp)

/-- What is still to come of the three tables. -/
structure Cursor where
  markers : List (ℕ × ℕ × UInt8 × UInt8)
  polls : List ℕ
  edid : List (ℕ × ℕ × Bool)

namespace Cursor

variable (remap : ℕ → Fin 4)

/-- The offset of the next entry. -/
def next (q : Cursor) : Option ℕ :=
  ([q.markers.head?.map (·.1), q.polls.head?, q.edid.head?.map (·.1)].filterMap id).min?

/-- Take the next entry: of those due together a marker goes first, then a poll. -/
def take (q : Cursor) (off : ℕ) : List (Op τ) × Cursor :=
  match q.markers, q.polls, q.edid with
  | (at', slot, sub, state) :: markers, polls, edid =>
      if at' = off then
        ([.sendIf (remap slot) (.marker (remap slot) sub state)], ⟨markers, polls, edid⟩)
      else takePoll (⟨(at', slot, sub, state) :: markers, polls, edid⟩)
  | [], polls, edid => takePoll ⟨[], polls, edid⟩
where
  takePoll (q : Cursor) : List (Op τ) × Cursor :=
    match q.polls, q.edid with
    | at' :: polls, edid =>
        if at' = off then ([.send .poll], ⟨q.markers, polls, edid⟩) else takeEdid q
    | [], _ => takeEdid q
  takeEdid (q : Cursor) : List (Op τ) × Cursor :=
    match q.edid with
    | (_, slot, fetch) :: edid =>
        ([.send (if fetch then .fetch (remap slot) else .probe (remap slot))],
          ⟨q.markers, q.polls, edid⟩)
    | [] => ([], q)

/-- `cp_until!`: everything due before the limit; `none` is no limit. -/
def drain (limit : Option ℕ) : ℕ → Cursor → List (Op τ) × Cursor
  | 0, q => ([], q)
  | fuel + 1, q =>
      match q.next with
      | none => ([], q)
      | some off =>
          if limit.all (off < ·) then
            let (ops, q') := q.take remap off
            let (rest, q'') := drain limit fuel q'
            (ops ++ rest, q'')
          else ([], q)

end Cursor

section Dual

variable (p : DockProfile) (valid : Fin 4 → Bool) (timings : Fin 4 → Option τ)

/-- The dock's own timeline. -/
def timeline : ColdTimeline := if p.protocol.armBurst then coldRidge else coldNavarro

/-- All entries of the tables are due before the end. -/
def cpUntil (limit : Option ℕ) (q : Cursor) : List (Op τ) × Cursor :=
  q.drain (connectorOf valid) limit (q.markers.length + q.polls.length + q.edid.length)

/-- The set-mode of a slot, behind the markers that take its sink down. -/
def slotMode (slot : ℕ) : List (Op τ) :=
  let c := connectorOf valid slot
  match timings c with
  | none => []
  | some t =>
      (match p.protocol.preModeSinkState with
        | some state => [.send (.marker c 0x2f 1), .send (.marker c 0x2e state)]
        | none => []) ++ [.program c t]

/-- The first clears and the sink reset of a dock whose mode sets are dock-wide. -/
def coldPrelude : List (Op τ) :=
  if p.protocol.dockWideModeset then
    ([.send (.clearMode (connectorOf valid 0)), .send (.clearMode (connectorOf valid 1))] :
        List (Op τ)) ++
      (navarroColdPrelude.map fun op => Op.send (op.message (connectorOf valid))) ++
      ([.send .reserve] : List (Op τ))
  else []

/-- The slots start streaming, each behind what is due before it. -/
def videoScript : List (ℕ × ℕ) → Cursor → List (Op τ) × Cursor
  | [], q => ([], q)
  | (slot, at') :: video, q =>
      let (due, q') := cpUntil valid (some at') q
      let (rest, q'') := videoScript video q'
      (due ++ [.sendIf (connectorOf valid slot) (.carrier (connectorOf valid slot))] ++ rest, q'')

/-- The transaction of `activate_dual_wake`. -/
def dualScript : List (Op τ) :=
  let t := timeline p
  let (due, q) := cpUntil valid (some t.h1Mode) ⟨t.markers, t.polls, t.edid⟩
  let (video, q') := videoScript valid t.video q
  let (closing, _) := cpUntil valid none q'
  coldPrelude p valid ++ slotMode p valid timings 0 ++ due ++ slotMode p valid timings 1 ++ video ++
    closing

/-- Its carriers behind the brackets, `rounds` times over. -/
def dualTail (rounds : ℕ) : List (Op τ) :=
  (List.replicate rounds ((List.finRange 4).filter valid)).flatten.map fun c =>
    .sendIf c (.carrier c)

end Dual

/-! ### Two connectors on the control pipe -/

/-- One step of a dock-wide activation, by slot. -/
inductive DockWideStep where
  | setMode (slot : ℕ)
  | marker (slot : ℕ) (sub state : UInt8)
  | poll
  | prologue (slot : ℕ)
  | ring (slot : ℕ)
  | config (slot : ℕ)
  | carrier (slot : ℕ)
  | stream (slot frames : ℕ)

def ellaDockWide : List DockWideStep :=
  [.setMode 0, .marker 0 0x2f 1, .marker 0 0x2e 3, .setMode 1, .marker 0 0x2f 1, .marker 0 0x2e 0,
    .marker 1 0x2f 1, .ring 0, .poll, .config 0, .marker 1 0x2e 3, .marker 0 0x2f 1,
    .marker 0 0x2e 0, .carrier 0, .stream 0 2, .marker 1 0x2f 1, .marker 0 0x2f 0, .stream 0 2,
    .marker 1 0x2e 0, .stream 0 3, .poll, .ring 1, .marker 0 0x2e 0, .stream 0 1, .config 1, .poll,
    .carrier 1, .marker 1 0x2f 1, .stream 1 2, .poll, .marker 1 0x2e 0, .poll, .marker 1 0x2f 0,
    .poll, .marker 1 0x2e 0]

def ellaRuntimeMode : List DockWideStep :=
  [.marker 0 0x2f 1, .marker 0 0x2e 3, .setMode 0, .marker 0 0x2f 1, .marker 0 0x2e 0, .poll,
    .prologue 0, .carrier 0]

/-- The connectors a table drives. -/
def wanted (steps : List DockWideStep) : ℕ :=
  (steps.filterMap fun step => match step with
    | .setMode slot => some (slot + 1)
    | _ => none).max?.getD 0

section DockWide

variable (valid : Fin 4 → Bool) (timings : Fin 4 → Option τ)

def DockWideStep.ops : DockWideStep → List (Op τ)
  | .setMode slot =>
      match timings (connectorOf valid slot) with
      | some t => [.program (connectorOf valid slot) t]
      | none => [.invalid]
  | .marker slot sub state => [.send (.marker (connectorOf valid slot) sub state)]
  | .poll => [.send .poll]
  | .prologue slot => [.send (.prologue (connectorOf valid slot))]
  | .ring slot => [.send (.ring (connectorOf valid slot))]
  | .config slot => [.send (.config (connectorOf valid slot))]
  | .carrier slot | .stream slot _ =>
      [.sendIf (connectorOf valid slot) (.carrier (connectorOf valid slot))]

/-- The transaction of `activate_dock_wide`. -/
def dockWideScript (steps : List DockWideStep) : List (Op τ) :=
  steps.flatMap (DockWideStep.ops valid timings)

end DockWide

/-! ### What a script addresses -/

theorem valid_connectorOf {valid : Fin 4 → Bool} {slot : ℕ} (h : min slot 1 < count valid) :
    valid (connectorOf valid slot) = true := by
  have hlength : min slot 1 < ((List.finRange 4).filter valid).length := by
    rwa [← List.countP_eq_length_filter]
  rw [connectorOf, List.getD_eq_getElem _ _ hlength]
  exact (List.mem_filter.1 (List.getElem_mem hlength)).2

/-- The slots of an activation of two are different connectors. -/
theorem connectorOf_ne {valid : Fin 4 → Bool} (h : 2 ≤ count valid) :
    connectorOf valid 0 ≠ connectorOf valid 1 := by
  have hlength : 2 ≤ ((List.finRange 4).filter valid).length := by
    rwa [← List.countP_eq_length_filter]
  rw [connectorOf, connectorOf, List.getD_eq_getElem _ _ (by omega),
    List.getD_eq_getElem _ _ (by omega)]
  intro heq
  have hnodup : ((List.finRange 4).filter valid).Nodup := (List.nodup_finRange 4).filter _
  exact absurd (hnodup.getElem_inj_iff.1 heq) (by simp)

variable {valid : Fin 4 → Bool} {timings : Fin 4 → Option τ} {p : DockProfile}

/-- A list of operations opens or programs only these connectors. -/
def Within (valid : Fin 4 → Bool) (ops : List (Op τ)) : Prop := ∀ op ∈ ops, op.Within valid

@[simp] theorem within_nil : Within valid ([] : List (Op τ)) := by
  simp [Within]

@[simp] theorem within_cons {op : Op τ} {ops : List (Op τ)} :
    Within valid (op :: ops) ↔ op.Within valid ∧ Within valid ops := List.forall_mem_cons

@[simp] theorem within_append {ops ops' : List (Op τ)} :
    Within valid (ops ++ ops') ↔ Within valid ops ∧ Within valid ops' := List.forall_mem_append

theorem within_headScript {c : Fin 4} {t : τ} (hc : valid c = true) :
    Within valid (headScript p c t) := by
  have hpre : Within valid (modesetBracketPre (τ := τ) p c) := by
    cases hstate : p.protocol.preModeSinkState <;>
      simp [modesetBracketPre, hstate, Op.Within, Message.target, hc]
  have hclose : Within valid (modesetBracketPostClose (τ := τ) p c) := by
    unfold modesetBracketPostClose
    split_ifs <;> simp [Op.Within, Message.target, hc]
  have hclear : Within valid
      (if p.protocol.clearModeBeforeSet then [Op.send (.clearMode c : Message τ)] else []) := by
    split_ifs <;> simp [Op.Within, Message.target]
  simp [headScript, modesetBracketPostOpen, hpre, hclose, hclear, Op.Within, Message.target, hc]

theorem within_headTail {c : Fin 4} : Within valid (headTail (τ := τ) p c) := by
  unfold headTail
  split_ifs <;> simp [Op.Within, Message.target]

theorem Cursor.within_take {remap : ℕ → Fin 4} (h : ∀ slot, valid (remap slot) = true) (q : Cursor)
    (off : ℕ) : Within valid (q.take (τ := τ) remap off).1 := by
  have hedid : ∀ q : Cursor, Within valid (take.takeEdid (τ := τ) remap q).1 := by
    intro q
    unfold take.takeEdid
    split
    case h_1 slot fetch edid _ => cases fetch <;> simp [Op.Within, Message.target]
    case h_2 => simp
  have hpoll : ∀ q : Cursor, Within valid (take.takePoll (τ := τ) remap off q).1 := by
    intro q
    unfold take.takePoll
    split
    case h_1 =>
      split_ifs
      · simp [Op.Within, Message.target]
      · exact hedid q
    case h_2 => exact hedid q
  unfold take
  split
  case h_1 =>
    split_ifs
    · simp [Op.Within, Message.target, h]
    · exact hpoll _
  case h_2 => exact hpoll _

theorem Cursor.within_drain {remap : ℕ → Fin 4} (h : ∀ slot, valid (remap slot) = true)
    (limit : Option ℕ) : ∀ (fuel : ℕ) (q : Cursor),
      Within valid (q.drain (τ := τ) remap limit fuel).1
  | 0, _ => by simp [drain]
  | fuel + 1, q => by
      unfold drain
      split
      · simp
      · split_ifs
        · exact within_append.2 ⟨within_take h q _, within_drain h limit fuel _⟩
        · simp

theorem within_coldPrelude : Within valid (coldPrelude (τ := τ) p valid) := by
  have hops : Within valid (navarroColdPrelude.map fun op =>
      Op.send (op.message (τ := τ) (connectorOf valid))) := by
    intro op hop
    obtain ⟨o, -, rfl⟩ := List.mem_map.1 hop
    cases o <;> simp [Op.Within, Message.target, NavarroColdOp.message]
  unfold coldPrelude
  split_ifs
  · simp [hops, Op.Within, Message.target]
  · simp

section Slots

variable (hvalid : 2 ≤ count valid)
include hvalid

theorem valid_slot (slot : ℕ) : valid (connectorOf valid slot) = true :=
  valid_connectorOf (by omega)

theorem within_cpUntil (limit : Option ℕ) (q : Cursor) :
    Within valid (cpUntil (τ := τ) valid limit q).1 :=
  q.within_drain (valid_slot hvalid) limit _

theorem within_slotMode (slot : ℕ) : Within valid (slotMode p valid timings slot) := by
  have hc := valid_slot hvalid slot
  unfold slotMode
  dsimp only
  split
  · simp
  · split <;> simp [Op.Within, Message.target, hc]

theorem within_videoScript : ∀ (video : List (ℕ × ℕ)) (q : Cursor),
    Within valid (videoScript (τ := τ) valid video q).1
  | [], _ => by simp [videoScript]
  | (slot, at') :: video, q => by
      unfold videoScript
      refine within_append.2 ⟨within_append.2 ⟨within_cpUntil hvalid _ q, ?_⟩,
        within_videoScript video _⟩
      simp [Op.Within, Message.target]

theorem within_dualScript : Within valid (dualScript p valid timings) := by
  unfold dualScript
  refine within_append.2 ⟨within_append.2 ⟨within_append.2 ⟨within_append.2 ⟨within_append.2
    ⟨within_coldPrelude, within_slotMode hvalid 0⟩, within_cpUntil hvalid _ _⟩,
      within_slotMode hvalid 1⟩, within_videoScript hvalid _ _⟩, within_cpUntil hvalid _ _⟩

end Slots

theorem within_dualTail (rounds : ℕ) : Within valid (dualTail (τ := τ) valid rounds) := by
  intro op hop
  obtain ⟨c, -, rfl⟩ := List.mem_map.1 hop
  simp [Op.Within, Message.target]

/-- Both slots are programmed. -/
theorem program_mem_dualScript {slot : ℕ} (hslot : slot < 2) {t : τ}
    (ht : timings (connectorOf valid slot) = some t) :
    Op.program (connectorOf valid slot) t ∈ dualScript p valid timings := by
  have hmode : Op.program (connectorOf valid slot) t ∈ slotMode p valid timings slot := by
    simp [slotMode, ht]
  unfold dualScript
  simp only [List.mem_append]
  rcases Nat.lt_or_ge slot 1 with h | h
  · obtain rfl : slot = 0 := by omega
    simp [hmode]
  · obtain rfl : slot = 1 := by omega
    simp [hmode]

/-- The slot a step addresses. -/
def DockWideStep.slot : DockWideStep → Option ℕ
  | .setMode slot | .marker slot .. | .prologue slot | .ring slot | .config slot | .carrier slot
  | .stream slot _ => some slot
  | .poll => none

theorem within_dockWideScript {steps : List DockWideStep}
    (h : ∀ step ∈ steps, ∀ slot, step.slot = some slot → min slot 1 < count valid) :
    Within valid (dockWideScript valid timings steps) := by
  intro op hop
  obtain ⟨step, hstep, hop⟩ := List.mem_flatMap.1 hop
  have hslot := h step hstep
  cases step with
  | setMode slot =>
      have hc := valid_connectorOf (hslot slot rfl)
      simp only [DockWideStep.ops] at hop
      split at hop <;> simp at hop <;> subst hop <;> simp [Op.Within, hc]
  | marker slot sub state =>
      have hc := valid_connectorOf (hslot slot rfl)
      simp only [DockWideStep.ops, List.mem_singleton] at hop
      subst hop
      simp [Op.Within, Message.target, hc]
  | _ =>
      simp only [DockWideStep.ops, List.mem_singleton] at hop
      subst hop
      simp [Op.Within, Message.target]

end Vino.Kms.Timeline
