import Vino.Haar.Framing
import Vino.Haar.Lengths
import Vino.Session.Calls

/-!
# Quiet Surroundings

When every transfer succeeds, no deadline passes and nothing fails to be allocated, a supported
mode is programmed without an error.

* `blackFrameEp08_ok`: a black frame can always be framed,
* `programMode_quiet`: programming succeeds.
-/

namespace Vino.Session

open Vino.Cp.Messages Vino.Haar.Strip Vino.Haar.Framing Vino.Lib.Buffer Vino.Lib.Effect
open Vino.Profile Vino.Stream
open Vino.Haar.Records hiding fill

/-! ### The builders succeed -/

/-- The strip of a black frame fits a record. -/
theorem length_blackStrip (g : Geometry) (x y : UInt16) :
    (colourStrip g (List.replicate 16 blackBlock) x y).length ≤ 4062 := by
  rw [Vino.Haar.Lengths.length_colourStrip_eq]
  cases g.depth <;> decide +kernel

/-- **A black frame can be framed**, at any size of whole strips. -/
theorem blackFrameEp08_ok (g : Geometry) {width height : ℕ}
    (hwidth : width % g.stripW = 0) (hheight : height % g.stripH = 0)
    (head : UInt8) : ∃ frames, blackFrameEp08 g width height head = .ok frames := by
  have hshort : ∀ s ∈ (List.range (height / g.stripH)).flatMap (fun ty =>
      (List.range (width / g.stripW)).map fun tx =>
        colourStrip g (List.replicate 16 blackBlock)
          (UInt16.ofNat (tx * g.stripW)) (UInt16.ofNat (ty * g.stripH))),
      s.length ≤ 4062 := by
    intro s hs
    obtain ⟨ty, -, hs⟩ := List.mem_flatMap.1 hs
    obtain ⟨tx, -, rfl⟩ := List.mem_map.1 hs
    exact length_blackStrip g _ _
  unfold blackFrameEp08
  rw [if_neg (by simp [hwidth, hheight])]
  rcases frameRecordsWithBoundary_spec g _ head (some false) with
    ⟨⟨s, hs, hlong⟩, -⟩ | ⟨cut, -, hok, -⟩
  · exact absurd (hshort s hs) (Nat.not_le.2 hlong)
  · exact ⟨_, hok⟩

theorem modeProfile_knownMode {width height refreshHz : UInt16} {m : DisplayMode}
    (h : knownMode width height refreshHz = some m) : (modeProfile m).isSome := by
  unfold knownMode at h
  split_ifs at h <;> cases h <;> decide +kernel

/-- The set-mode message of a known timing, with the counter it was built from. -/
theorem setModeProfile_ok {width height refreshHz : UInt16}
    (h : (knownMode width height refreshHz).isSome) (d : Dock) (counter : UInt16) (head : UInt8)
    (rng : Rng) : ∃ content, setModeProfile d counter head width height refreshHz rng = .ok content ∧
      counterOf content = counter := by
  obtain ⟨m, hm⟩ := Option.isSome_iff_exists.1 h
  obtain ⟨⟨flags, vic⟩, hprofile⟩ := Option.isSome_iff_exists.1 (modeProfile_knownMode hm)
  have htiming : ∃ t, timingFromDrmMode m d.profile.protocol.allocation d.tenBit = .ok t := by
    unfold timingFromDrmMode
    rw [hprofile]
    exact ⟨_, rfl⟩
  obtain ⟨t, ht⟩ := htiming
  unfold setModeProfile
  rw [hm]
  dsimp only
  rw [ht]
  refine ⟨_, rfl, ?_⟩
  simp only [setMode, padTo, List.append_assoc]
  exact counterOf_message _ _

/-! ### The surroundings -/

/-- The write succeeds, a read returns a frame or nothing, and no deadline has passed. -/
structure Answer.Calm (a : Answer) : Prop where
  write : a.write = none
  reply : a.reply = .error .timeout ∨ ∃ frame, a.reply = .ok frame
  expired : a.expired = false

/-- Nothing goes wrong around a session on a dock with `n` connectors and no cursor. -/
structure Quiet (d : Dock) (n : ℕ) (w : World) : Prop where
  calm : ∀ t, (w.answers t).Calm
  dock : w.dock = d
  connectors : w.connectors.val = n
  cursor : ∀ i, w.cursorShot i = none

variable {d : Dock} {n : ℕ}

theorem Quiet.same {w w' : World} (h : Quiet d n w) (hanswers : w'.answers = w.answers)
    (hdock : w'.dock = w.dock) (hconnectors : w'.connectors.val = w.connectors.val)
    (hcursor : w'.cursorShot = w.cursorShot) : Quiet d n w' :=
  ⟨fun t => hanswers ▸ h.calm t, hdock.trans h.dock, hconnectors.trans h.connectors,
    fun i => hcursor ▸ h.cursor i⟩

theorem calm_calmAnswers (t : ℕ) : (calmAnswers t).Calm := ⟨rfl, .inl rfl, rfl⟩

theorem Quiet.tick {w : World} (h : Quiet d n w) : Quiet d n w.tick := h.same rfl rfl rfl rfl

theorem Answer.Calm.reply_timeout {a : Answer} (ha : a.Calm) {e : UsbError}
    (he : a.reply = .error e) : e = .timeout := by
  rcases ha.reply with hreply | ⟨frame, hreply⟩
  · exact Except.error.inj (he.symm.trans hreply)
  · cases he.symm.trans hreply

theorem quiet_receive : Keeps (Quiet d n) (fun _ => False) receiveOptional :=
  triple_receiveOptional (fun _ hw _ => hw.tick) (fun _ _ hw _ => hw.tick)
    fun w _ hw he hne => hne ((hw.calm w.time).reply_timeout he)

theorem quiet_submit {head : UInt8} (hhead : head.toNat < n) (pieces : List Piece) :
    Keeps (Quiet d n) (fun _ => False) (submitVideo head pieces) := by
  have hwrite : Triple (Quiet d n) (writeVideoFrame head pieces)
      (fun error w => error = none ∧ Quiet d n w) (fun _ => False) := by
    refine Triple.bind (Q := fun w w' => w.connectors.val = n ∧ Quiet d n w')
      (Triple.get fun w hw => ⟨hw.connectors, hw⟩) fun w => ?_
    refine Triple.given fun hn => ?_
    rw [if_neg (by omega)]
    refine Triple.bind (Q := fun a w => a.write = none ∧ Quiet d n w)
      (triple_ask fun w hw => ⟨(hw.calm w.time).write, hw.tick⟩) fun a => ?_
    refine Triple.bind (Q := fun _ w => a.write = none ∧ Quiet d n w)
      (Triple.modify fun w hw => ⟨hw.1, hw.2.same rfl rfl rfl rfl⟩) fun _ => ?_
    exact Triple.pure fun w hw => hw
  refine Triple.bind hwrite fun error => ?_
  rintro w ⟨rfl, hw⟩
  exact hw

theorem quiet_plain {head : UInt8} (piece : Piece) :
    Keeps (Quiet d n) (fun _ => False) (sendPlainVideo head piece) := by
  refine Triple.bind (Q := fun a w => a.write = none ∧ Quiet d n w)
    (triple_ask fun w hw => ⟨(hw.calm w.time).write, hw.tick⟩) fun a => ?_
  refine Triple.bind (Q := fun _ w => a.write = none ∧ Quiet d n w)
    (Triple.modify fun w hw => ⟨hw.1, hw.2.same rfl rfl rfl rfl⟩) fun _ => ?_
  rintro w ⟨ha, hw⟩
  rw [ha]
  exact hw

/-- **In quiet surroundings nothing fails.** -/
theorem quiet_flows {head : UInt8} (hhead : head.toNat < n) (i : Connector) :
    Flows head i (Quiet d n) (fun _ => False) where
  tick _ hw := hw.tick
  transmit id content fail := by
    refine triple_transmit (fun w hw _ => hw.1.same rfl rfl rfl rfl) fun w e hw hwrite => ?_
    rw [(hw.1.calm w.time).write] at hwrite
    cases hwrite
  receive := quiet_receive
  submit := quiet_submit hhead
  plain := quiet_plain
  sealed _ _ _ hw := hw.same rfl rfl rfl rfl
  restated _ hw := hw.same rfl rfl rfl rfl
  frameSeq _ _ hw := hw.same rfl rfl rfl rfl

theorem quiet_sendControl (id : UInt16) (content : List UInt8) :
    Keeps (Quiet d n) (fun _ => False) (sendControl id content) := by
  refine Triple.bind (Q := fun _ => Quiet d n) ?_ fun _ => quiet_receive
  refine triple_transmit (fun w hw _ => hw.same rfl rfl rfl rfl) fun w e hw hwrite => ?_
  rw [(hw.calm w.time).write] at hwrite
  cases hwrite

theorem quiet_rearmCursor (head : UInt8) :
    Keeps (Quiet d n) (fun _ => False) (rearmCursor head) := by
  refine Triple.bind (Q := fun w w' => (connector? head).bind w.cursorShot = none ∧ Quiet d n w')
    (Triple.get fun w hw => ⟨?_, hw⟩) fun w => ?_
  · cases connector? head with
    | none => rfl
    | some i => exact hw.cursor i
  · rintro w' ⟨hnone, hw⟩
    rw [hnone]
    exact hw

theorem quiet_checkPace : Keeps (Quiet d n) (fun _ => False) checkPace := by
  refine Triple.bind (Q := fun a w => a.expired = false ∧ Quiet d n w)
    (triple_ask fun w hw => ⟨(hw.calm w.time).expired, hw.tick⟩) fun a => ?_
  rintro w ⟨ha, hw⟩
  rw [if_neg (by simp [ha])]
  exact hw

theorem padded_dvd (d : Dock) (width height : ℕ) :
    (padded d width height).1 % d.geometry.stripW = 0 ∧
      (padded d width height).2 % d.geometry.stripH = 0 :=
  ⟨Nat.mul_mod_left _ _, Nat.mul_mod_left _ _⟩

theorem geometry_toOpening (d : Dock) :
    d.toOpening.geometry.stripW = d.geometry.stripW ∧
      d.toOpening.geometry.stripH = d.geometry.stripH := by
  unfold Dock.geometry Dock.toOpening
  split_ifs <;> exact ⟨rfl, rfl⟩

/-- A value that is there. -/
theorem triple_built {α : Type} {label : String} {P R : World → Prop} {Q : α → World → Prop} {a : α}
    {result : Except Errno α} (hresult : result = .ok a) (h : ∀ w, P w → Q a w) :
    Triple P (built label result) Q R := by
  subst hresult
  exact Triple.pure h

theorem quiet_approachMode (hd : d.Known) {r : Request} (hr : r.Supported)
    (hhead : r.head.toNat < n) (i : Connector) :
    Keeps (Quiet d n) (fun _ => False) (approachMode r.head i (UInt16.ofNat r.width)
      (UInt16.ofNat r.height) (UInt16.ofNat r.refreshHz)) := by
  have h : Flows r.head i (Quiet d n) (fun _ => False) := quiet_flows hhead i
  refine Triple.bind (Q := fun w w' => w.dock = d ∧ Quiet d n w')
    (Triple.get fun w hw => ⟨hw.dock, hw⟩) fun w => ?_
  refine Triple.given fun hdock => ?_
  subst hdock
  obtain ⟨frames, hframes⟩ := blackFrameEp08_ok w.dock.toOpening.geometry
    ((geometry_toOpening w.dock).1 ▸ (padded_dvd w.dock _ _).1)
    ((geometry_toOpening w.dock).2 ▸ (padded_dvd w.dock _ _).2) r.head
  refine Triple.bind (Q := fun _ => Quiet w.dock n) (triple_built hframes fun _ hw => hw)
    fun prompt => ?_
  refine Triple.bind (h.sealing _) fun opening => Triple.bind h.ask fun a => ?_
  obtain ⟨content, hcontent, -⟩ :=
    setModeProfile_ok hr.2.2.2.2 w.dock w.innerCounter r.head a.random
  refine Triple.bind (Q := fun _ => Quiet w.dock n) (triple_built hcontent fun _ hw => hw)
    fun mode => ?_
  refine Triple.bind (h.sendMarker _ _ _) fun _ => Triple.bind (h.sendPreMode r.head) fun _ => ?_
  refine Triple.bind h.pollStatus fun _ => Triple.bind (h.sendClearMode r.head) fun _ => ?_
  exact Keeps.pure _

/-- **A supported mode is programmed in quiet surroundings.** -/
theorem programMode_quiet (hd : d.Known) {r : Request} (hr : r.Supported)
    (hhead : r.head.toNat < n) :
    Triple (Quiet d n) (programMode r.head r.width r.height r.refreshHz)
      (fun lit w => lit = true ∧ Quiet d n w) (fun _ => False) := by
  obtain ⟨i, hi⟩ := Option.isSome_iff_exists.1 hr.2.2.2.1
  have h : Flows r.head i (Quiet d n) (fun _ => False) := quiet_flows hhead i
  have happroach := quiet_approachMode hd hr hhead i
  obtain ⟨hwidth, hheight, hrefresh, -, -⟩ := hr
  unfold programMode
  rw [if_neg (by omega), if_neg (by omega), if_neg (by omega), hi]
  refine Triple.bind (Q := fun _ => Quiet d n) ?_ fun _ => Triple.pure fun _ hw => ⟨rfl, hw⟩
  rw [programConnector_eq]
  refine Triple.bind happroach fun prepared => ?_
  refine Triple.bind (quiet_sendControl 0x48 _) fun _ => Triple.bind h.pollStatus fun _ => ?_
  refine Triple.bind (h.trainBracket quiet_checkPace r.head i (h.sendStreamPrologue _ _)) fun _ => ?_
  exact h.startStream (fun w hw => hw.same rfl rfl rfl rfl) (fun w _ hw => hw.same rfl rfl rfl rfl)
    (quiet_rearmCursor r.head) prepared.2.1 prepared.1

end Vino.Session
