import Vino.Session.Calls

/-!
# Invariants of a Connector's Stream

The frames of a stream are numbered, and a frame may carry a report that was sealed for it.  An
invariant of the stream therefore comes in two families: `S n` holds while the next frame has
number `n`, and `T n report` once that frame's report is built.

* `Streams.carriers`, `Streams.presentations`: the loops that send frames,
* `triple_programConnector`, `Streams.startStream`: programming a mode,
* `Streams.presentRgb`: presenting a picture.

An invariant about one connector is kept by everything that is done to the others.

* `Local.perform`: what a call keeps, from what it keeps when it is about the connector.
-/

namespace Vino.Session

open Vino.Cp.Messages Vino.Cp.Seal Vino.Lib.Effect Vino.Profile Vino.Scanout Vino.Stream

/-! ### Transfers that succeed -/

section Transfers

variable {head : UInt8} {P Q R : World → Prop}

/-- **A frame goes out, or its head has no endpoint.** -/
theorem triple_submitVideo {pieces : List Piece} (hwrites : ∀ w, P w → Delivers w)
    (hok : ∀ w, P w → Q (w.tick.log (.video head pieces none))) (hrefused : ∀ w, P w → R w) :
    Triple P (submitVideo head pieces) (fun _ => Q) R := by
  have hwrite : Triple P (writeVideoFrame head pieces)
      (fun error w => (error = none ∧ Q w) ∨ (error = some .disconnected ∧ R w)) R := by
    refine Triple.bind (Q := fun _ => P) (Triple.get fun _ hw => hw) fun w => ?_
    split_ifs
    · exact Triple.pure fun w hw => .inr ⟨rfl, hrefused w hw⟩
    · refine Triple.bind (Q := fun a w' => a.write = none ∧ ∃ w, P w ∧ w' = w.tick)
        (triple_ask fun w hw => ⟨hwrites w hw w.time, w, hw, rfl⟩) fun a => Triple.given fun ha => ?_
      rw [ha]
      refine Triple.bind (Q := fun _ => Q) (Triple.modify ?_) fun _ =>
        Triple.pure fun w hw => .inl ⟨rfl, hw⟩
      rintro _ ⟨w, hw, rfl⟩
      exact hok w hw
  refine Triple.bind hwrite fun error w hw => ?_
  rcases hw with ⟨rfl, hw⟩ | ⟨rfl, hw⟩
  · exact hw
  · exact hw

theorem triple_sendPlainVideo {piece : Piece} (hwrites : ∀ w, P w → Delivers w)
    (hok : ∀ w, P w → Q (w.tick.log (.prologue head piece none))) :
    Triple P (sendPlainVideo head piece) (fun _ => Q) R := by
  refine Triple.bind (Q := fun a w' => a.write = none ∧ ∃ w, P w ∧ w' = w.tick)
    (triple_ask fun w hw => ⟨hwrites w hw w.time, w, hw, rfl⟩) fun a => Triple.given fun ha => ?_
  rw [ha]
  refine Triple.bind (Q := fun _ => Q) (Triple.modify ?_) fun _ => Triple.pure fun w hw => hw
  rintro _ ⟨w, hw, rfl⟩
  exact hok w hw

end Transfers

/-! ### Frames -/

/-- An invariant of the frames of a connector's stream. -/
structure Streams (head : UInt8) (i : Connector) (d : Dock) (S : UInt32 → World → Prop)
    (T : UInt32 → List Piece → World → Prop) (R : World → Prop) : Prop where
  wire : ∀ n, Wire (S n) R
  report : ∀ n mode, Triple (S n) (frameReport head i mode) (T n) R
  submit : ∀ n d' report records, d' = d ∨ d' = d.toOpening → Triple (T n report)
    (submitVideo head (prefixFrame d' [] report records head n)) (fun _ => S (n + 1)) R
  frameSeq : ∀ n seq w, S n w → S n { w with frameSeq := Function.update w.frameSeq i seq }

section Loops

variable {head : UInt8} {i : Connector} {d : Dock} {S : UInt32 → World → Prop}
  {T : UInt32 → List Piece → World → Prop} {R : World → Prop}

theorem Streams.carriers (h : Streams head i d S T R) (mode : UInt16 × UInt16)
    (prompt : List (List UInt8)) : ∀ (n : ℕ) (seq : UInt32),
    Triple (S (seq + 1)) (carriers d head i mode prompt n seq) (fun last => S (last + 1)) R
  | 0, seq => Triple.pure fun _ hw => hw
  | n + 1, seq => by
      refine Triple.bind (h.report (seq + 1) mode) fun report => ?_
      refine Triple.bind (h.submit (seq + 1) d.toOpening report prompt (.inr rfl)) fun _ => ?_
      refine Triple.bind (Q := fun _ => S (seq + 1 + 1))
        (Triple.modify fun w hw => h.frameSeq _ _ w hw) fun _ => ?_
      exact Triple.bind (h.wire _).pollIfDue fun _ => h.carriers mode prompt n (seq + 1)

theorem Streams.presentations (h : Streams head i d S T R) (mode : UInt16 × UInt16)
    (records : List (List UInt8)) : ∀ (n : ℕ) (seq : UInt32),
    Triple (S seq) (presentations d head i mode records n seq)
      (fun _ => S (seq + UInt32.ofNat n)) R
  | 0, seq => Triple.pure fun w hw => by simpa using hw
  | n + 1, seq => by
      have hnext : seq + UInt32.ofNat (n + 1) = seq + 1 + UInt32.ofNat n := by
        rw [UInt32.ofNat_add, UInt32.add_comm (UInt32.ofNat n), ← UInt32.add_assoc]
        rfl
      rw [hnext]
      refine Triple.bind (h.report seq mode) fun report => ?_
      refine Triple.bind (h.submit seq d report records (.inl rfl)) fun _ => ?_
      exact h.presentations mode records n (seq + 1)

/-- **The stream behind the bracket**: its first frame carries the opening, the others continue
its numbers. -/
theorem Streams.startStream (h : Streams head i d S T R) {I K J : World → Prop}
    {mode : UInt16 × UInt16} {opening : List Piece} {prompt : List (List UInt8)}
    (hdock : ∀ w, K w → w.dock = d) (hprogrammed : ∀ w, I w → K (w.programmed i mode))
    (hopen : Triple K (submitVideo head (prefixFrame d.toOpening opening [] prompt head 0))
      (fun _ => S 1) R)
    (hlit : ∀ n w, S n w → J (w.lit i n)) (hcursor : Keeps J R (rearmCursor head)) :
    Triple I (startStream head i mode opening prompt) (fun _ => J) R := by
  refine Triple.bind (Q := fun _ => K) (Triple.modify hprogrammed) fun _ => ?_
  refine Triple.bind (Q := fun w w' => w.dock = d ∧ K w') (Triple.get fun w hw => ⟨hdock w hw, hw⟩)
    fun w => Triple.given fun hw => ?_
  rw [hw]
  refine Triple.bind hopen fun _ => Triple.bind ((h.wire 1).sendCommit head) fun _ => ?_
  refine Triple.bind ((h.wire 1).sendCommit head) fun _ => ?_
  refine Triple.bind ((h.wire 1).closeBracket head) fun _ => ?_
  refine Triple.bind ((h.wire 1).carrierCount _) fun n => ?_
  refine Triple.bind (h.carriers mode prompt n 0) fun seq => ?_
  exact Triple.bind (Q := fun _ => J) (Triple.modify fun w hw => hlit (seq + 1) w hw) fun _ => hcursor

end Loops

section Operations

variable {head : UInt8} {d : Dock} {P R J : World → Prop}

/-- **Programming a mode**, for an invariant `I` of the opening that waits to be sent. -/
theorem triple_programConnector {i : Connector} {width height refreshHz : UInt16}
    {I : List Piece → World → Prop} (hdock : ∀ w, P w → w.dock = d) (hP : ∀ w, P w → R w)
    (hopening : Triple P (sealing head i fun sealSeq rng => streamPrefix d head sealSeq width height rng)
      I R)
    (hwire : ∀ opening, Wire (I opening) R) (hweaken : ∀ opening w, I opening w → R w)
    (hmode : ∀ opening content, Keeps (I opening) R (sendControl 0x48 content))
    (hprologue : ∀ opening, Keeps (I opening) R (sendStreamPrologue head i width height))
    (hstart : (knownMode width height refreshHz).isSome → ∀ opening prompt,
      Triple (I opening) (startStream head i (width, height) opening prompt) (fun _ => J) R) :
    Triple P (programConnector head i width height refreshHz) (fun _ => J) R := by
  refine Triple.bind (Q := fun w w' => w.dock = d ∧ P w') (Triple.get fun w hw => ⟨hdock w hw, hw⟩)
    fun w => Triple.given fun hw => ?_
  rw [hw]
  refine Triple.bind (keeps_built hP _ _) fun prompt => Triple.bind hopening fun opening => ?_
  refine Triple.bind (hwire opening).ask fun a => ?_
  cases hknown : knownMode width height refreshHz with
  | none =>
      refine Triple.bind (Q := fun _ _ => False) ?_ fun _ _ hfalse => hfalse.elim
      rw [setModeProfile, hknown]
      exact Triple.throw (hweaken opening)
  | some m =>
      refine Triple.bind (keeps_built (hweaken opening) _ _) fun mode => ?_
      refine Triple.bind ((hwire opening).openBracket head (hmode opening mode)) fun _ => ?_
      refine Triple.bind ((hwire opening).trainBracket ((hwire opening).checkPace (hweaken opening))
        head i (hprologue opening)) fun _ => ?_
      exact hstart (by rw [hknown]; rfl) opening prompt

/-- **Presenting a picture**: its presentations continue the numbers of the stream. -/
theorem Streams.presentRgb {S : Connector → UInt32 → World → Prop}
    {T : Connector → UInt32 → List Piece → World → Prop}
    (h : ∀ i, connector? head = some i → Streams head i d (S i) (T i) R) (hwire : Wire P R)
    (hweaken : ∀ w, P w → R w) (hdock : ∀ w, P w → w.dock = d)
    (hscanout : ∀ w i s, P w → P { w with scanout := Function.update w.scanout i s })
    (hnext : ∀ i, connector? head = some i → ∀ w, P w → S i (w.frameSeq i) w)
    (hback : ∀ i, connector? head = some i → ∀ n w, S i n w →
      P { w with frameSeq := Function.update w.frameSeq i n })
    (width height : ℕ) (rgb : List UInt8) : Keeps P R (presentRgb head width height rgb) := by
  refine Keeps.get.bind fun w => ?_
  split_ifs with hlt
  · generalize hi : (⟨head.toNat, hlt.trans_le (Nat.lt_succ_iff.1 w.connectors.2)⟩ : Connector) = i
    have hconnector : connector? head = some i := connector?_eq (by rw [← hi])
    have hstream := h i hconnector
    refine hwire.ask.bind fun a => Keeps.bind (Keeps.modify fun w hw => hscanout w _ _ hw) fun _ => ?_
    refine (keeps_built hweaken _ _).bind fun frame => ?_
    split
    · exact hwire.pollStatus
    · rename_i frame
      refine Keeps.bind ?_ fun _ => hwire.pollStatus
      refine Triple.bind (Q := fun w w' => w.dock = d ∧ S i (w.frameSeq i) w')
        (Triple.get fun w hw => ⟨hdock w hw, hnext i hconnector w hw⟩) fun w => ?_
      refine Triple.given fun hw => ?_
      rw [hw]
      refine Triple.bind (hstream.presentations _ frame.records frame.presentations (w.frameSeq i))
        fun _ => ?_
      refine Triple.bind (Q := fun _ => P) (Triple.modify fun w' hw => hback i hconnector _ w' hw)
        fun _ => ?_
      exact Triple.modify fun w hw => hscanout w _ _ hw
  · exact Keeps.throw hweaken _

end Operations

/-! ### Invariants of one connector -/

/-- The action belongs to the connector's stream. -/
def Action.concerns (j : Connector) : Action → Bool
  | .control .. => false
  | .prologue head _ _ => connector? head == some j
  | .video head _ _ => connector? head == some j
  | .enciphered head _ => connector? head == some j

/-- The connector's part of a trace. -/
def streamOf (j : Connector) (trace : List Action) : List Action :=
  trace.filter (Action.concerns j)

@[simp]
theorem streamOf_append (j : Connector) (t t' : List Action) :
    streamOf j (t ++ t') = streamOf j t ++ streamOf j t' :=
  List.filter_append ..

/-- The connector is in the same state in both worlds, behind the same stream. -/
structure SameConnector (j : Connector) (w w' : World) : Prop where
  dock : w'.dock = w.dock
  connectors : w'.connectors = w.connectors
  answers : w'.answers = w.answers
  programmedMode : w'.programmedMode j = w.programmedMode j
  modeActive : w'.modeActive j = w.modeActive j
  modeRestateOwed : w'.modeRestateOwed j = w.modeRestateOwed j
  videoSealSeq : w'.videoSealSeq j = w.videoSealSeq j
  frameSeq : w'.frameSeq j = w.frameSeq j
  stream : streamOf j w'.trace = streamOf j w.trace

/-- An invariant that depends on one connector alone. -/
structure Local (j : Connector) (I R : World → Prop) : Prop where
  same : ∀ w w', SameConnector j w w' → I w → I w'
  weaken : ∀ w, I w → R w

section Local

variable {j : Connector} {I R : World → Prop} (h : Local j I R)

include h

theorem Local.tick (w : World) (hw : I w) : I w.tick :=
  h.same w _ ⟨rfl, rfl, rfl, rfl, rfl, rfl, rfl, rfl, rfl⟩ hw

theorem Local.log (a : Action) (ha : a.concerns j = false) (w : World) (hw : I w) : I (w.log a) := by
  refine h.same w _ ⟨rfl, rfl, rfl, rfl, rfl, rfl, rfl, rfl, ?_⟩ hw
  simp [World.log, streamOf, ha]

theorem Local.transmit (id : UInt16) (content : List UInt8) (fail : UsbError → SessionError) :
    Keeps I R (transmit id content fail) := by
  have hlog : ∀ w error, I w → I (w.tick.log (.control w.wireSeq id content error)) :=
    fun w error hw => h.log _ rfl _ (h.tick w hw)
  refine triple_transmit (fun w hw _ => ?_) fun w e hw _ => h.weaken _ (hlog w (some e) hw)
  refine h.same (w.tick.log _) _ ?_ (hlog w none hw)
  exact ⟨rfl, rfl, rfl, rfl, rfl, rfl, rfl, rfl, rfl⟩

theorem Local.stable : Stable I R where
  tick := h.tick
  weaken := h.weaken
  cursor w _ hw := h.same w _ ⟨rfl, rfl, rfl, rfl, rfl, rfl, rfl, rfl, rfl⟩ hw
  receive := keeps_receiveOptional h.tick h.weaken
  transmit id content fail :=
    (h.transmit id content fail).mono (fun _ hw => hw.1) (fun _ _ h => h) fun _ h => h

theorem Local.sendControl (id : UInt16) (content : List UInt8) :
    Keeps I R (sendControl id content) :=
  (h.transmit id content _).bind fun _ => h.stable.receive

theorem Local.scanout (w : World) (i : Connector) (s : HeadScanout) (hw : I w) :
    I { w with scanout := Function.update w.scanout i s } :=
  h.same w _ ⟨rfl, rfl, rfl, rfl, rfl, rfl, rfl, rfl, rfl⟩ hw

/-- **The stream of another connector** does not touch this one. -/
theorem Local.flows {head : UInt8} {i : Connector} (hi : connector? head = some i) (hij : i ≠ j) :
    Flows head i I R := by
  have hother : (connector? head == some j) = false := by
    rw [hi]
    simpa using hij
  have hne : j ≠ i := fun hji => hij hji.symm
  refine ⟨h.stable.toWire, ?_, ?_, ?_, ?_, ?_⟩
  · exact fun pieces => keeps_submitVideo h.tick h.weaken fun w _ => h.log (.video ..) hother w
  · exact fun piece => keeps_sendPlainVideo h.tick h.weaken fun w _ => h.log (.prologue ..) hother w
  · intro w pieces seq hw
    refine h.log (.enciphered head pieces) hother _ (h.same w _ ?_ hw)
    exact ⟨rfl, rfl, rfl, rfl, rfl, rfl, Function.update_of_ne hne _ _, rfl, rfl⟩
  · intro w hw
    refine h.same w _ ?_ hw
    exact ⟨rfl, rfl, rfl, rfl, rfl, Function.update_of_ne hne _ _, rfl, rfl, rfl⟩
  · intro w seq hw
    refine h.same w _ ?_ hw
    exact ⟨rfl, rfl, rfl, rfl, rfl, rfl, rfl, Function.update_of_ne hne _ _, rfl⟩

theorem Local.programMode_other {head : UInt8} (hhead : connector? head ≠ some j)
    (width height refreshHz : ℕ) : Keeps I R (programMode head width height refreshHz) := by
  refine (triple_programMode (J := I) h.weaken fun i hi _ _ _ => ?_).mono (fun _ h => h)
    (fun _ _ h => h.2) fun _ h => h
  have hij : i ≠ j := fun hij => hhead (hij ▸ hi)
  have hne : j ≠ i := fun hji => hij hji.symm
  have hflows := h.flows hi hij
  refine hflows.programConnector hflows h.weaken (h.sendControl 0x48) (fun w hw => h.same w _ ?_ hw)
    (fun w seq hw => h.same w _ ?_ hw) (h.stable.rearmCursor head) _
  · exact ⟨rfl, rfl, rfl, Function.update_of_ne hne _ _, rfl, Function.update_of_ne hne _ _, rfl,
      Function.update_of_ne hne _ _, rfl⟩
  · exact ⟨rfl, rfl, rfl, rfl, Function.update_of_ne hne _ _, rfl, rfl,
      Function.update_of_ne hne _ _, rfl⟩

theorem Local.presentRgb_other {head : UInt8} (hhead : connector? head ≠ some j)
    (width height : ℕ) (rgb : List UInt8) : Keeps I R (presentRgb head width height rgb) :=
  Flows.presentRgb h.stable.toWire (fun _ hi => h.flows hi fun hij => hhead (hij ▸ hi)) h.weaken
    (fun w i s _ hw => h.scanout w i s hw) width height rgb

theorem Local.deactivateMode_other {head : UInt8} (hhead : connector? head ≠ some j)
    (width height : ℕ) : Keeps I R (deactivateMode head width height) := by
  have hother : (connector? head == some j) = false := by simpa using hhead
  refine h.stable.toWire.deactivateMode h.weaken (fun w hw => h.same w _ ?_ hw) (fun frames => ?_)
    width height
  · unfold World.darkened
    split
    · exact ⟨rfl, rfl, rfl, rfl, rfl, rfl, rfl, rfl, rfl⟩
    · rename_i i hi
      have hne : j ≠ i := fun hji => hhead (hji ▸ hi)
      exact ⟨rfl, rfl, rfl, rfl, Function.update_of_ne hne _ _, rfl, rfl, rfl, rfl⟩
  · exact keeps_submitVideo h.tick h.weaken fun w _ => h.log (.video ..) hother w

end Local

theorem connector?_headOf (i : Connector) : connector? (headOf i) = some i := by
  refine connector?_eq ?_
  have hlt : i.val < 4 := i.isLt
  rw [headOf, UInt8.toNat_ofNat']
  omega

/-- **What a call keeps**, from what it keeps when it is about the connector. -/
theorem Local.perform {j : Connector} {I R : World → Prop} (h : Local j I R)
    (hprogram : ∀ r : Request, connector? r.head = some j →
      Keeps I R (programMode r.head r.width r.height r.refreshHz))
    (hpresent : ∀ head width height rgb, connector? head = some j →
      Keeps I R (presentRgb head width height rgb))
    (hdeactivate : ∀ head width height, connector? head = some j →
      Keeps I R (deactivateMode head width height)) (c : Crypto) (call : Call) :
    Keeps I R (perform c call) := by
  have hprogram' : ∀ r : Request, Keeps I R (programMode r.head r.width r.height r.refreshHz) := by
    intro r
    by_cases hr : connector? r.head = some j
    · exact hprogram r hr
    · exact h.programMode_other hr _ _ _
  have hdeactivate' : ∀ head width height, Keeps I R (deactivateMode head width height) := by
    intro head width height
    by_cases hhead : connector? head = some j
    · exact hdeactivate head width height hhead
    · exact h.deactivateMode_other hhead width height
  refine h.stable.perform c ?_ ?_ ?_ ?_
  · rintro r rfl
    refine Keeps.discard (Keeps.get.bind fun w => ?_)
    split_ifs
    · exact Keeps.pure _
    · exact hprogram' r
  · rintro rs rfl
    refine Keeps.bind (Keeps.forM _ fun i _ => Keeps.get.bind fun w => ?_) fun _ =>
      Keeps.forM _ fun r _ => (hprogram' r).bind fun _ => Keeps.pure _
    split_ifs
    · exact hdeactivate' _ _ _
    · exact Keeps.pure _
  · rintro head width height rgb rfl
    by_cases hhead : connector? head = some j
    · exact hpresent head width height rgb hhead
    · exact h.presentRgb_other hhead width height rgb
  · rintro head width height rfl
    exact hdeactivate' head width height

end Vino.Session
