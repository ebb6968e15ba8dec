import Vino.Session.Quiet

/-!
# The Inner Counter

Every control message carries the session's counter at the time it was built, and the counter
moves on with every message that goes out.  A message that is built and sent at once therefore
carries the next number.  The set-mode message is not: it is built ahead of the markers and the
poll that go out before it, so its counter is the one of the first marker.

* `counters_consecutive`: without programming a mode, the messages of a run carry consecutive
  counters,
* `setMode_repeats_counter`: programming one repeats a counter.
-/

namespace Vino.Session

open Vino.Cp.Messages Vino.Cp.Seal Vino.Lib.Effect Vino.Lib.Run Vino.Profile Vino.Stream

/-- The counters of the control messages of a trace. -/
def carried (trace : List Action) : List UInt16 := (controls trace).map fun f => counterOf f.2.1

/-- The numbers from `c0` on, one after the other. -/
def Consecutive (c0 : UInt16) (l : List UInt16) : Prop :=
  l = (List.range l.length).map fun i => c0 + UInt16.ofNat i

theorem Consecutive.concat {c0 : UInt16} {l : List UInt16} (h : Consecutive c0 l) :
    Consecutive c0 (l ++ [c0 + UInt16.ofNat l.length]) := by
  unfold Consecutive
  rw [List.length_append, List.length_singleton, List.range_succ, List.map_append, ← h]
  rfl

/-- Fewer than `2 ^ 16` consecutive counters are distinct. -/
theorem Consecutive.nodup {c0 : UInt16} {l : List UInt16} (h : Consecutive c0 l)
    (hlen : l.length ≤ 65536) : l.Nodup := by
  rw [h]
  refine List.Nodup.map_on (fun i hi j hj heq => ?_) List.nodup_range
  rw [List.mem_range] at hi hj
  have hmod : i % 65536 = j % 65536 := by
    simpa [UInt16.toNat_ofNat'] using congrArg UInt16.toNat (UInt16.add_right_inj c0 |>.1 heq)
  omega

/-- All writes succeed, and the messages so far carry consecutive counters. -/
structure InStep (c0 : UInt16) (w : World) : Prop where
  writes : ∀ t, (w.answers t).write = none
  carried : Consecutive c0 (carried w.trace)
  next : w.innerCounter = c0 + UInt16.ofNat (Session.carried w.trace).length

theorem InStep.tick {c0 : UInt16} {w : World} (hw : InStep c0 w) : InStep c0 w.tick :=
  ⟨hw.writes, hw.carried, hw.next⟩

theorem inStep_steady (c0 : UInt16) : Steady (InStep c0) (InStep c0) where
  tick _ hw := hw.tick
  weaken _ hw := hw
  cursor _ _ hw := ⟨hw.writes, hw.carried, hw.next⟩
  receive := keeps_receiveOptional (fun _ hw => hw.tick) fun _ hw => hw
  transmit id content fail := by
    refine triple_transmit (fun w ⟨hw, hcounter⟩ hwrite => ?_) fun w e ⟨hw, _⟩ hwrite => ?_
    · have htrace : Session.carried (w.trace ++ [.control w.wireSeq id content none]) =
          Session.carried w.trace ++ [c0 + UInt16.ofNat (Session.carried w.trace).length] := by
        simp [Session.carried, controls, hcounter, hw.next]
      refine ⟨hw.writes, ?_, ?_⟩
      · show Consecutive c0 (Session.carried (w.trace ++ _))
        rw [htrace]
        exact hw.carried.concat
      · show w.innerCounter + 1 = c0 + UInt16.ofNat (Session.carried (w.trace ++ _)).length
        rw [htrace, List.length_append, List.length_singleton, hw.next, UInt16.add_assoc,
          UInt16.ofNat_add]
        rfl
    · rw [hw.writes] at hwrite
      cases hwrite
  same w w' hsame hw := by
    refine ⟨fun t => by rw [hsame.answers]; exact hw.writes t, ?_, ?_⟩
    · unfold Session.carried
      rw [hsame.controls]
      exact hw.carried
    · unfold Session.carried
      rw [hsame.innerCounter, hsame.controls]
      exact hw.next

/-- The call programs a mode. -/
def Programs (w : World) : Call → Prop
  | .activateMode r => declined w r.head = false ∧ r.Supported
  | .activateModes rs => ∃ r, rs.head? = some r ∧ r.Supported
  | _ => False

section Refused

variable {I R : World → Prop} (h : Steady I R)

include h

theorem Steady.activateMode_refused {r : Request} :
    Triple (fun w => I w ∧ ¬(declined w r.head = false ∧ r.Supported))
      (activateMode r.head r.width r.height r.refreshHz) (fun _ => I) R := by
  refine Triple.bind (Q := fun w w' => I w' ∧ ¬(declined w r.head = false ∧ r.Supported))
    (Triple.get fun _ hw => hw) fun w => ?_
  split_ifs with hdeclined
  · exact Triple.pure fun _ hw => hw.1
  · rintro w' ⟨hw, hcond⟩
    have hrefused : ¬r.Supported := fun hr => hcond ⟨by simpa using hdeclined, hr⟩
    exact (programMode_refused h.tick (fun i _ => (h.flows r.head i).sealed) h.weaken hrefused).mono (fun _ h => h)
      (fun _ _ h => h.elim) (fun _ h => h) w' hw

theorem Steady.activateModes_refused {rs : List Request}
    (hrs : ¬∃ r, rs.head? = some r ∧ r.Supported) : Keeps I R (activateModes rs) := by
  refine Keeps.bind (Keeps.forM _ fun i _ => h.darken i) fun _ => ?_
  cases rs with
  | nil => exact Keeps.pure _
  | cons r rs =>
      have hrefused : ¬r.Supported := fun hr => hrs ⟨r, rfl, hr⟩
      refine Triple.bind (Q := fun _ _ => False) ?_ fun _ _ hfalse => hfalse.elim
      refine Triple.bind (programMode_refused h.tick (fun i _ => (h.flows r.head i).sealed) h.weaken hrefused) fun _ _ hfalse => ?_
      exact hfalse.elim

end Refused

/-- **A call that programs no mode keeps the counters consecutive.** -/
theorem inStep_perform (c0 : UInt16) (c : Crypto) (call : Call) :
    Triple (fun w => InStep c0 w ∧ ¬Programs w call) (perform c call) (fun _ => InStep c0)
      (InStep c0) := by
  have h := inStep_steady c0
  have hkeep : Keeps (InStep c0) (InStep c0) (perform c call) →
      Triple (fun w => InStep c0 w ∧ ¬Programs w call) (perform c call) (fun _ => InStep c0)
        (InStep c0) :=
    fun hk => hk.mono (fun _ hw => hw.1) (fun _ _ h => h) fun _ h => h
  cases call with
  | activateMode r => exact Triple.bind h.activateMode_refused fun _ => Keeps.pure _
  | activateModes rs =>
      rintro w ⟨hw, hrs⟩
      exact h.activateModes_refused hrs w hw
  | presentRgb head width height rgb => exact hkeep (h.presentRgb head width height rgb)
  | deactivateMode head width height => exact hkeep (h.deactivateMode head width height)
  | _ => exact hkeep (h.toStable.perform c nofun nofun nofun nofun)

/-- **Control messages are numbered consecutively** in every run whose writes all succeed and that
programs no mode: the message with index `i` carries `c0 + i`. -/
theorem counters_consecutive (c : Crypto) (s : ControlSession) (es : List Event)
    (hwrites : ∀ e ∈ es, ∀ t, (e.answers t).write = none)
    (hprograms : Along (fun w e => ¬Programs w e.call) (step c) (start s) es) :
    Consecutive s.innerCounter (carried (run (step c) (start s) es).trace) ∧
      ((carried (run (step c) (start s) es).trace).length ≤ 65536 →
        (carried (run (step c) (start s) es).trace).Nodup) := by
  have hstep : ∀ w e, (∃ answers, InStep s.innerCounter (w.facing answers)) →
      (¬Programs w e.call ∧ ∀ t, (e.answers t).write = none) →
        ∃ answers, InStep s.innerCounter ((step c w e).facing answers) := by
    rintro w e ⟨answers, hw⟩ ⟨hcond, hgood⟩
    have hface : InStep s.innerCounter (w.facing e.answers) := ⟨hgood, hw.carried, hw.next⟩
    have hcond' : ¬Programs (w.facing e.answers) e.call := hcond
    have hfinal := (inStep_perform s.innerCounter c e.call).final ⟨hface, hcond'⟩
      (T := InStep s.innerCounter) (fun _ _ h => h) fun _ h => h
    exact ⟨_, hfinal.writes, hfinal.carried, hfinal.next⟩
  have hstart : ∃ answers, InStep s.innerCounter ((start s).facing answers) :=
    ⟨(start s).answers, fun _ => rfl, rfl, by simp [World.facing, start, Session.carried, controls]⟩
  obtain ⟨answers, hrun⟩ := run_invariant hstep es (start s) hstart (Along.and es _ hprograms hwrites)
  exact ⟨hrun.carried, hrun.carried.nodup⟩

/-- Two messages without a mode. -/
theorem counters_consecutive_sample :
    Consecutive 0 (carried (run (step plainCrypto) (start (freshSession ⟨profileElla, false, false⟩ 2))
      [⟨.heartbeat, calmAnswers⟩, ⟨.keepalivePoll, calmAnswers⟩]).trace) :=
  (counters_consecutive plainCrypto (freshSession ⟨profileElla, false, false⟩ 2)
    [⟨.heartbeat, calmAnswers⟩, ⟨.keepalivePoll, calmAnswers⟩] (by simp [calmAnswers])
    ⟨id, id, trivial⟩).1

/-! ### The set-mode message -/

/-- Quiet surroundings, what the messages so far carry, and the next counter. -/
structure At (d : Dock) (n : ℕ) (l : List UInt16) (k : UInt16) (w : World) : Prop where
  quiet : Quiet d n w
  carried : carried w.trace = l
  next : w.innerCounter = k

section At

variable {d : Dock} {n : ℕ} {l : List UInt16} {k : UInt16}

theorem At.tick {w : World} (hw : At d n l k w) : At d n l k w.tick :=
  ⟨hw.quiet.tick, hw.carried, hw.next⟩

theorem at_receive : Keeps (At d n l k) (fun _ => False) receiveOptional :=
  triple_receiveOptional (fun _ hw _ => hw.tick) (fun _ _ hw _ => hw.tick)
    fun w _ hw he hne => hne ((hw.quiet.calm w.time).reply_timeout he)

theorem at_sendControl (id : UInt16) (content : List UInt8) :
    Triple (At d n l k) (sendControl id content)
      (fun _ => At d n (l ++ [counterOf content]) (k + 1)) (fun _ => False) := by
  refine Triple.bind (Q := fun _ => At d n (l ++ [counterOf content]) (k + 1)) ?_ fun _ => at_receive
  refine triple_transmit (fun w hw _ => ?_) fun w e hw hwrite => ?_
  · refine ⟨hw.quiet.same rfl rfl rfl rfl, ?_, ?_⟩
    · show Session.carried (w.trace ++ _) = _
      simp [Session.carried, controls, ← hw.carried]
    · show w.innerCounter + 1 = k + 1
      rw [hw.next]
  · rw [(hw.quiet.calm w.time).write] at hwrite
    cases hwrite

theorem at_sendOk (label : String) (id : UInt16) {f : UInt16 → Rng → List UInt8}
    (hf : ∀ counter rng, counterOf (f counter rng) = counter) :
    Triple (At d n l k) (sendBuilt label id fun counter rng => .ok (f counter rng))
      (fun _ => At d n (l ++ [k]) (k + 1)) (fun _ => False) := by
  refine Triple.bind (Q := fun w w' => w.innerCounter = k ∧ At d n l k w')
    (Triple.get fun w hw => ⟨hw.next, hw⟩) fun w => Triple.given fun hnext => ?_
  refine Triple.bind (Q := fun _ => At d n l k) (triple_ask fun _ hw => hw.tick) fun a => ?_
  have hsend := at_sendControl (d := d) (n := n) (l := l) (k := k) id (f k a.random)
  rw [hf] at hsend
  rw [hnext]
  exact hsend

theorem at_sendMarker (head : UInt8) (sub : UInt16) (state : UInt8) :
    Triple (At d n l k) (sendMarker head sub state) (fun _ => At d n (l ++ [k]) (k + 1))
      (fun _ => False) :=
  Triple.bind (at_sendOk _ _ fun _ _ => counterOf_message' _) fun _ => Triple.pure fun _ hw => hw

theorem at_pollStatus : Triple (At d n l k) pollStatus (fun _ => At d n (l ++ [k]) (k + 1))
    (fun _ => False) :=
  Triple.bind (at_sendOk _ _ fun _ _ => counterOf_message' _) fun _ => Triple.pure fun _ hw => hw

theorem at_sealing (head : UInt8) (i : Connector) (build : UInt32 → Rng → List Piece × UInt32) :
    Keeps (At d n l k) (fun _ => False) (sealing head i build) := by
  refine Keeps.get.bind fun w => Keeps.bind (triple_ask fun _ hw => hw.tick) fun a => ?_
  refine Keeps.bind (Keeps.modify fun w hw => ⟨hw.quiet.same rfl rfl rfl rfl, ?_, hw.next⟩) fun _ =>
    Keeps.pure _
  rw [← hw.carried]
  simp [World.sealed, World.log, Session.carried, controls]

end At

/-- What the messages carry begins with `l`. -/
def Opens (l : List UInt16) (w : World) : Prop := l <+: carried w.trace

theorem opens_transmit (l : List UInt16) (id : UInt16) (content : List UInt8)
    (fail : UsbError → SessionError) : Keeps (Opens l) (Opens l) (transmit id content fail) := by
  have happend : ∀ (w : World) (error : Option UsbError), Opens l w →
      l <+: carried (w.trace ++ [.control w.wireSeq id content error]) := by
    intro w error hw
    unfold Opens carried at hw
    unfold carried
    rw [controls_append, List.map_append]
    exact hw.trans (List.prefix_append _ _)
  exact triple_transmit (fun w hw _ => happend w none hw) fun w e hw _ => happend w (some e) hw

theorem opens_steady (l : List UInt16) : Steady (Opens l) (Opens l) where
  tick _ hw := hw
  weaken _ hw := hw
  cursor _ _ hw := hw
  receive := keeps_receiveOptional (fun _ hw => hw) fun _ hw => hw
  transmit id content fail :=
    (opens_transmit l id content fail).mono (fun _ hw => hw.1) (fun _ _ h => h) fun _ h => h
  same w w' hsame hw := by
    unfold Opens carried
    rw [hsame.controls]
    exact hw

/-- A DL-3x00 dock, whose bracket opens with one marker and a poll. -/
def ella : Dock := ⟨profileElla, false, false⟩

theorem known_ella : ella.Known := ⟨.inl rfl, nofun⟩

section Ella

variable {n : ℕ} {l : List UInt16} {k : UInt16}

theorem ella_sendPreMode (head : UInt8) :
    Keeps (At ella n l k) (fun _ => False) (sendPreMode head) := by
  refine Triple.bind (Q := fun w w' => w.dock = ella ∧ At ella n l k w')
    (Triple.get fun w hw => ⟨hw.quiet.dock, hw⟩) fun w => Triple.given fun hdock => ?_
  rw [hdock]
  exact Keeps.pure _

theorem ella_sendClearMode (head : UInt8) :
    Keeps (At ella n l k) (fun _ => False) (sendClearMode head) := by
  refine Triple.bind (Q := fun w w' => w.dock = ella ∧ At ella n l k w')
    (Triple.get fun w hw => ⟨hw.quiet.dock, hw⟩) fun w => Triple.given fun hdock => ?_
  rw [hdock]
  exact Keeps.pure _

/-- A message built at `k` goes out behind two others. -/
theorem ella_openBracket (head : UInt8) {mode : List UInt8} (hmode : counterOf mode = k) :
    Triple (At ella n [] k) (openBracket head mode) (fun _ => Opens [k, k + 1, k])
      (Opens [k, k + 1, k]) := by
  refine Triple.bind (at_sendMarker head 0x2f 1).never fun _ => ?_
  refine Triple.bind (ella_sendPreMode head).never fun _ => ?_
  refine Triple.bind at_pollStatus.never fun _ => Triple.bind (ella_sendClearMode head).never fun _ => ?_
  refine Triple.bind (at_sendControl 0x48 mode).never fun _ => ?_
  refine (opens_steady [k, k + 1, k]).pollStatus.mono (fun w hw => ?_) (fun _ _ h => h) fun _ h => h
  have hcarried := hw.carried
  rw [hmode] at hcarried
  unfold Opens
  rw [hcarried]
  exact List.prefix_rfl

end Ella

/-- **The set-mode message carries the counter of the marker** that went out before it. -/
theorem programMode_repeats (c0 : UInt16) {r : Request} (hr : r.Supported) :
    Triple (At ella 2 [] c0) (programMode r.head r.width r.height r.refreshHz)
      (fun _ => Opens [c0, c0 + 1, c0]) (Opens [c0, c0 + 1, c0]) := by
  obtain ⟨hwidth, hheight, hrefresh, hconnector, hknown⟩ := hr
  obtain ⟨i, hi⟩ := Option.isSome_iff_exists.1 hconnector
  have h := (opens_steady [c0, c0 + 1, c0]).flows r.head i
  unfold programMode
  rw [if_neg (by omega), if_neg (by omega), if_neg (by omega), hi]
  refine Triple.bind (Q := fun _ => Opens [c0, c0 + 1, c0]) ?_ fun _ => Triple.pure fun _ hw => hw
  refine Triple.bind (Q := fun w w' => (w.dock = ella ∧ w.innerCounter = c0) ∧ At ella 2 [] c0 w')
    (Triple.get fun w hw => ⟨⟨hw.quiet.dock, hw.next⟩, hw⟩) fun w => Triple.given fun hw => ?_
  rw [hw.1, hw.2]
  obtain ⟨frames, hframes⟩ := blackFrameEp08_ok ella.toOpening.geometry
    ((geometry_toOpening ella).1 ▸ (padded_dvd ella _ _).1)
    ((geometry_toOpening ella).2 ▸ (padded_dvd ella _ _).2) r.head
  refine Triple.bind (Q := fun _ => At ella 2 [] c0) (triple_built hframes fun _ hw => hw)
    fun prompt => ?_
  refine Triple.bind (at_sealing r.head i _).never fun opening => ?_
  refine Triple.bind (Q := fun _ => At ella 2 [] c0) (triple_ask fun _ hw => hw.tick) fun a => ?_
  obtain ⟨mode, hmode, hcounter⟩ := setModeProfile_ok hknown ella c0 r.head a.random
  refine Triple.bind (Q := fun content w => content = mode ∧ At ella 2 [] c0 w)
    (triple_built hmode fun _ hw => ⟨rfl, hw⟩) fun content => Triple.given fun hcontent => ?_
  subst hcontent
  refine Triple.bind (ella_openBracket r.head hcounter) fun _ => ?_
  refine Triple.bind (h.trainBracket (h.checkPace fun _ hw => hw) r.head i
    (h.sendStreamPrologue _ _)) fun _ => ?_
  exact h.startStream (I := Opens [c0, c0 + 1, c0]) (fun _ hw => hw) (fun _ _ hw => hw)
    ((opens_steady _).rearmCursor r.head) opening prompt

theorem activateMode_repeats (c : Crypto) {r : Request} (hr : r.Supported) {w : World}
    (hw : At ella 2 [] 0 (w.facing calmAnswers)) :
    Opens [0, 1, 0] (step c w ⟨.activateMode r, calmAnswers⟩) := by
  have hactivate : Triple (At ella 2 [] 0) (perform c (.activateMode r))
      (fun _ => Opens [0, 1, 0]) (Opens [0, 1, 0]) := by
    refine Triple.bind (Q := fun _ => Opens [0, 1, 0]) ?_ fun _ => Triple.pure fun _ hw => hw
    refine Triple.bind (Q := fun w w' => w.dock = ella ∧ At ella 2 [] 0 w')
      (Triple.get fun w hw => ⟨hw.quiet.dock, hw⟩) fun w => Triple.given fun hdock => ?_
    have hdeclined : declined w r.head = false := by
      rw [declined, hdock]
      rfl
    rw [hdeclined]
    exact programMode_repeats 0 hr
  exact hactivate.final hw (fun _ _ hw => hw) fun _ hw => hw

theorem Consecutive.third {c0 a b c : UInt16} {rest : List UInt16}
    (h : Consecutive c0 (a :: b :: c :: rest)) : c = c0 + 2 := by
  have hthird := congrArg (fun l => l[2]?) h
  simpa using hthird

/-- **Programming a mode repeats a counter.**  On a fresh DL-3x00 session the first marker of the
bracket carries 0, the poll behind it 1, and the set-mode message 0 again. -/
theorem setMode_repeats_counter :
    ¬∀ (c : Crypto) (d : Dock) (connectors : Fin (maxConnectors + 1)) (key : Key) (nonce : Nonce)
      (wireSeq : UInt32) (c0 : UInt16) (videoKeys : Connector → Key × Nonce) (es : List Event),
      d.Known → (∀ e ∈ es, ∀ t, (e.answers t).write = none) →
      Consecutive c0 (carried (run (step c)
        (start (engaged d connectors key nonce wireSeq c0 videoKeys)) es).trace) := by
  intro h
  have hcons := h plainCrypto ella 2 (Vector.replicate 16 0) (Vector.replicate 8 0) 0 0
    (fun _ => (Vector.replicate 16 0, Vector.replicate 8 0))
    [⟨.activateMode ⟨0, 1280, 720, 60⟩, calmAnswers⟩] known_ella (by simp [calmAnswers])
  have hstart : At ella 2 [] 0 ((start (freshSession ella 2)).facing calmAnswers) :=
    ⟨⟨calm_calmAnswers, rfl, rfl, fun _ => rfl⟩, rfl, rfl⟩
  rw [← freshSession] at hcons
  generalize start (freshSession ella 2) = w at hcons hstart
  rw [run, List.foldl_cons, List.foldl_nil] at hcons
  have hr : Request.Supported ⟨0, 1280, 720, 60⟩ := by decide +kernel
  obtain ⟨rest, hrest⟩ := activateMode_repeats plainCrypto hr hstart
  rw [← hrest] at hcons
  exact absurd hcons.third (by decide)

end Vino.Session
