import Vino.Session.Frames
import Vino.Session.Quiet

/-!
# The Keystream of a Video Stream

The records of a connector's stream that are sealed take their blocks from the connector's counter,
which survives mode sets.  The cold burst of a DL-6xxx dock is the exception: it counts its blocks
from zero every time it is built, and it goes out with every mode set.

* `video_spans_disjoint`: no block of a connector's stream is used twice, as long as a dock with a
  cold burst is given each connector's mode once,
* `burst_reuses_keystream`: a second mode set uses the blocks of the first again.
-/

namespace Vino.Session

open Vino.Cp.Messages Vino.Cp.Seal Vino.Lib.Effect Vino.Lib.Run Vino.Lib.Spans Vino.Profile
open Vino.Stream

/-! ### What was sealed and what was sent -/

/-- The blocks of the sealed records handed over for a connector, in order. -/
def handed (j : Connector) (trace : List Action) : List Span :=
  (streamOf j trace).flatMap fun
    | .video _ pieces _ => spans pieces
    | .prologue _ piece _ => spans [piece]
    | _ => []

/-- The blocks of the records that were sealed for it, handed over or not. -/
def enciphered (j : Connector) (trace : List Action) : List Span :=
  (streamOf j trace).flatMap fun
    | .enciphered _ pieces => spans pieces
    | _ => []

section Traces

variable {j : Connector} {head : UInt8} (hhead : connector? head = some j) (w : World)

include hhead

theorem streamOf_video (pieces : List Piece) (error : Option UsbError) :
    streamOf j (w.log (.video head pieces error)).trace =
      streamOf j w.trace ++ [.video head pieces error] := by
  simp [World.log, streamOf, Action.concerns, hhead]

theorem streamOf_prologue (piece : Piece) (error : Option UsbError) :
    streamOf j (w.log (.prologue head piece error)).trace =
      streamOf j w.trace ++ [.prologue head piece error] := by
  simp [World.log, streamOf, Action.concerns, hhead]

theorem streamOf_enciphered (pieces : List Piece) :
    streamOf j (w.log (.enciphered head pieces)).trace =
      streamOf j w.trace ++ [.enciphered head pieces] := by
  simp [World.log, streamOf, Action.concerns, hhead]

end Traces

/-! ### Docks without a cold burst -/

/-- The records handed over, and those that wait to be, lie in order in the blocks that were sealed
from `s0` on; the counter stands behind them. -/
structure Pending (s0 : UInt32) (d : Dock) (j : Connector) (held : List Span) (w : World) :
    Prop where
  writes : Delivers w
  dock : w.dock = d
  next : w.videoSealSeq j = s0 + UInt32.ofNat (total (enciphered j w.trace))
  laid : Laid s0 0 (total (enciphered j w.trace)) (handed j w.trace ++ held)

section Counted

variable {s0 : UInt32} {d : Dock} {j : Connector} {held : List Span}

/-- What waits may be dropped. -/
theorem Pending.drop {w : World} (hw : Pending s0 d j held w) : Pending s0 d j [] w :=
  ⟨hw.writes, hw.dock, hw.next, by rw [List.append_nil]; exact hw.laid.left⟩

theorem pending_local (s0 : UInt32) (d : Dock) (j : Connector) (held : List Span) :
    Local j (Pending s0 d j held) (Pending s0 d j []) where
  same w w' h hw := by
    have hsealed : enciphered j w'.trace = enciphered j w.trace := by
      rw [enciphered, h.stream, enciphered]
    have hhanded : handed j w'.trace = handed j w.trace := by rw [handed, h.stream, handed]
    refine ⟨fun t => ?_, h.dock.trans hw.dock, ?_, ?_⟩
    · rw [h.answers]
      exact hw.writes t
    · rw [h.videoSealSeq, hsealed]
      exact hw.next
    · rw [hsealed, hhanded]
      exact hw.laid
  weaken _ hw := hw.drop

variable {head : UInt8} (hhead : connector? head = some j)

include hhead

/-- **A frame that goes out carries what waited.** -/
theorem pending_submit {pieces : List Piece} (hpieces : spans pieces = held) :
    Triple (Pending s0 d j held) (submitVideo head pieces) (fun _ => Pending s0 d j [])
      (Pending s0 d j []) := by
  refine triple_submitVideo (fun _ hw => hw.writes) (fun w hw => ?_) fun _ hw => hw.drop
  have hsealed : enciphered j (w.tick.log (.video head pieces none)).trace =
      enciphered j w.trace := by
    rw [enciphered, streamOf_video hhead, List.flatMap_append]
    exact List.append_nil _
  have hhanded : handed j (w.tick.log (.video head pieces none)).trace = handed j w.trace ++ held := by
    rw [handed, streamOf_video hhead, List.flatMap_append, List.flatMap_singleton, ← hpieces]
    rfl
  refine ⟨hw.writes, hw.dock, ?_, ?_⟩
  · rw [hsealed]
    exact hw.next
  · rw [hsealed, hhanded, List.append_nil]
    exact hw.laid

theorem pending_plain (piece : Piece) :
    Triple (Pending s0 d j (spans [piece] ++ held)) (sendPlainVideo head piece)
      (fun _ => Pending s0 d j held) (Pending s0 d j []) := by
  refine triple_sendPlainVideo (fun _ hw => hw.writes) fun w hw => ?_
  have hsealed : enciphered j (w.tick.log (.prologue head piece none)).trace =
      enciphered j w.trace := by
    rw [enciphered, streamOf_prologue hhead, List.flatMap_append]
    exact List.append_nil _
  have hhanded : handed j (w.tick.log (.prologue head piece none)).trace =
      handed j w.trace ++ spans [piece] := by
    rw [handed, streamOf_prologue hhead, List.flatMap_append, List.flatMap_singleton]
    rfl
  refine ⟨hw.writes, hw.dock, ?_, ?_⟩
  · rw [hsealed]
    exact hw.next
  · rw [hsealed, hhanded, List.append_assoc]
    exact hw.laid

/-- **What a builder seals from the counter on** waits behind the rest. -/
theorem pending_sealing {build : UInt32 → Rng → List Piece × UInt32}
    (hbuild : ∀ sealSeq rng, Contiguous sealSeq (build sealSeq rng).2 (spans (build sealSeq rng).1)) :
    Triple (Pending s0 d j held) (sealing head j build)
      (fun pieces w => (∃ sealSeq rng, pieces = (build sealSeq rng).1) ∧
        Pending s0 d j (held ++ spans pieces) w) (Pending s0 d j []) := by
  refine Triple.bind (Q := fun w w' => w'.videoSealSeq j = w.videoSealSeq j ∧ Pending s0 d j held w')
    (Triple.get fun w hw => ⟨rfl, hw⟩) fun w => ?_
  refine Triple.bind (Q := fun _ w' => w'.videoSealSeq j = w.videoSealSeq j ∧ Pending s0 d j held w')
    (triple_ask fun w' hw => ⟨hw.1, (pending_local s0 d j held).tick w' hw.2⟩) fun a => ?_
  refine Triple.bind (Q := fun _ => Pending s0 d j
    (held ++ spans (build (w.videoSealSeq j) a.random).1)) (Triple.modify fun w' hw => ?_) fun _ =>
      Triple.pure fun _ hw => ⟨⟨_, _, rfl⟩, hw⟩
  obtain ⟨hseq, hw⟩ := hw
  generalize hpieces : build (w.videoSealSeq j) a.random = built
  have hcontiguous := hbuild (w.videoSealSeq j) a.random
  rw [hpieces, ← hseq, hw.next] at hcontiguous
  obtain ⟨hlaid, hend⟩ := hcontiguous.laid
  have hsealed : enciphered j (w'.sealed head j built.1 built.2).trace =
      enciphered j w'.trace ++ spans built.1 := by
    rw [World.sealed, enciphered, streamOf_enciphered hhead, List.flatMap_append,
      List.flatMap_singleton]
    rfl
  have hhanded : handed j (w'.sealed head j built.1 built.2).trace = handed j w'.trace := by
    rw [World.sealed, handed, streamOf_enciphered hhead, List.flatMap_append]
    exact List.append_nil _
  refine ⟨hw.writes, hw.dock, ?_, ?_⟩
  · show Function.update w'.videoSealSeq j built.2 j = _
    rw [Function.update_self, hsealed, total_append]
    exact hend
  · rw [hsealed, total_append, hhanded, ← List.append_assoc]
    exact hw.laid.append hlaid

theorem pending_frameReport (mode : UInt16 × UInt16) :
    Triple (Pending s0 d j []) (frameReport head j mode)
      (fun report => Pending s0 d j (spans report)) (Pending s0 d j []) := by
  refine Triple.bind (Q := fun _ => Pending s0 d j []) (Triple.get fun _ hw => hw) fun w => ?_
  split_ifs
  · exact Triple.pure fun _ hw => hw
  · refine Triple.bind (pending_sealing hhead fun sealSeq rng =>
      streamReport_contiguous w.dock head sealSeq mode.1 mode.2 rng _) fun report => ?_
    refine Triple.given fun _ => ?_
    refine Triple.bind (Q := fun _ => Pending s0 d j (spans report)) ?_ fun _ =>
      Triple.pure fun _ hw => hw
    unfold settleRestate
    split_ifs
    · exact Triple.modify fun w hw => ⟨hw.writes, hw.dock, hw.next, hw.laid⟩
    · exact Triple.pure fun _ hw => hw

theorem pending_streams : Streams head j d (fun _ => Pending s0 d j [])
    (fun _ report => Pending s0 d j (spans report)) (Pending s0 d j []) where
  wire _ := (pending_local s0 d j []).stable.toWire
  report _ mode := pending_frameReport hhead mode
  submit n d' report records _ := pending_submit hhead (spans_prefixFrame d' head [] report records n)
  frameSeq _ _ _ hw := ⟨hw.writes, hw.dock, hw.next, hw.laid⟩

/-- The prologue of a shared-pipe dock is sealed and sent at once. -/
theorem pending_sendStreamPrologue (hheld : d.videoOnCtrlPipe = true → held = [])
    (width height : UInt16) :
    Keeps (Pending s0 d j held) (Pending s0 d j []) (sendStreamPrologue head j width height) := by
  have hforM : ∀ config : List Piece, Triple (Pending s0 d j (spans config))
      (config.forM (sendPlainVideo head)) (fun _ => Pending s0 d j []) (Pending s0 d j []) := by
    intro config
    induction config with
    | nil => exact Keeps.pure _
    | cons piece config ih =>
        have hspans : spans (piece :: config) = spans [piece] ++ spans config :=
          spans_append [piece] config
        rw [hspans]
        exact Triple.bind (pending_plain hhead piece) fun _ => ih
  refine Triple.bind (Q := fun w w' => w.dock = d ∧ Pending s0 d j held w')
    (Triple.get fun w hw => ⟨hw.dock, hw⟩) fun w => Triple.given fun hw => ?_
  rw [hw]
  cases hpipe : d.videoOnCtrlPipe with
  | false =>
      rw [streamRingRecord, hpipe]
      exact Keeps.pure _
  | true =>
      rw [streamRingRecord, hpipe, hheld hpipe]
      refine Triple.bind (@pending_plain s0 d j [] head hhead (.plain _)) fun _ => ?_
      refine Triple.bind (pending_sealing hhead fun sealSeq _ =>
        streamConfigMessage_contiguous d head sealSeq width height) fun config => ?_
      exact Triple.given fun _ => hforM config

/-- **Off the cold burst, a mode set continues the connector's counter.** -/
theorem pending_programMode (hburst : d.armBurst = false) (width height refreshHz : ℕ) :
    Keeps (Pending s0 d j []) (Pending s0 d j []) (programMode head width height refreshHz) := by
  refine (triple_programMode (J := Pending s0 d j []) (fun _ hw => hw) fun i hi _ _ _ => ?_).mono
    (fun _ h => h) (fun _ _ h => h.2) fun _ h => h
  obtain rfl : j = i := Option.some.inj (hhead.symm.trans hi)
  -- On a shared pipe nothing waits: the prologue goes out ahead of the first frame.
  have hlocal : ∀ opening, Local j (fun w => (d.videoOnCtrlPipe = true → spans opening = []) ∧
      Pending s0 d j (spans opening) w) (Pending s0 d j []) := fun opening =>
    ⟨fun w w' h hw => ⟨hw.1, (pending_local s0 d j _).same w w' h hw.2⟩, fun _ hw => hw.2.drop⟩
  refine triple_programConnector (fun _ hw => hw.dock) (fun _ hw => hw) ?_
    (fun opening => (hlocal opening).stable.toWire) (fun opening => (hlocal opening).weaken)
    (fun opening => (hlocal opening).sendControl 0x48) ?_ ?_
  · refine (pending_sealing hhead fun sealSeq rng => streamPrefix_contiguous d head sealSeq _ _ rng
      hburst).mono (fun _ h => h) (fun opening w hw => ⟨fun hpipe => ?_, hw.2⟩) fun _ h => h
    obtain ⟨⟨sealSeq, rng, rfl⟩, -⟩ := hw
    simp [streamPrefix, hburst, hpipe]
  · exact fun opening => Triple.given fun hheld =>
      (pending_sendStreamPrologue hhead hheld _ _).mono (fun _ h => h) (fun _ _ h => ⟨hheld, h⟩)
        fun _ h => h
  · intro _ opening prompt
    refine (pending_streams hhead).startStream (K := Pending s0 d j (spans opening))
      (fun _ hw => hw.dock) (fun w hw => ⟨hw.2.writes, hw.2.dock, hw.2.next, hw.2.laid⟩) ?_
      (fun n w hw => ⟨hw.writes, hw.dock, hw.next, hw.laid⟩)
      ((pending_local s0 d j []).stable.rearmCursor head)
    refine pending_submit hhead ?_
    rw [spans_prefixFrame, spans_nil, List.append_nil]

theorem pending_presentRgb (width height : ℕ) (rgb : List UInt8) :
    Keeps (Pending s0 d j []) (Pending s0 d j []) (presentRgb head width height rgb) := by
  have hmine : ∀ i, connector? head = some i → j = i := fun i hi =>
    Option.some.inj (hhead.symm.trans hi)
  refine Streams.presentRgb (S := fun _ _ => Pending s0 d j [])
    (T := fun _ _ report => Pending s0 d j (spans report)) (fun i hi => ?_)
    (pending_local s0 d j []).stable.toWire (fun _ hw => hw) (fun _ hw => hw.dock)
    (fun w i s hw => (pending_local s0 d j []).scanout w i s hw) (fun _ _ _ hw => hw)
    (fun _ _ _ _ hw => ⟨hw.writes, hw.dock, hw.next, hw.laid⟩) width height rgb
  obtain rfl := hmine i hi
  exact pending_streams hhead

theorem pending_deactivateMode (width height : ℕ) :
    Keeps (Pending s0 d j []) (Pending s0 d j []) (deactivateMode head width height) := by
  refine (pending_local s0 d j []).stable.toWire.deactivateMode (fun _ hw => hw) (fun w hw => ?_)
    (fun frames => pending_submit hhead (spans_map_plain frames)) width height
  rw [World.darkened, hhead]
  exact ⟨hw.writes, hw.dock, hw.next, hw.laid⟩

end Counted

theorem pending_perform {s0 : UInt32} {d : Dock} {j : Connector} (hburst : d.armBurst = false)
    (c : Crypto) (call : Call) : Keeps (Pending s0 d j []) (Pending s0 d j []) (perform c call) :=
  (pending_local s0 d j []).perform
    (fun _ hhead => pending_programMode hhead hburst _ _ _)
    (fun _ _ _ _ hhead => pending_presentRgb hhead _ _ _)
    (fun _ _ _ hhead => pending_deactivateMode hhead _ _) c call

/-! ### Docks with a cold burst -/

/-- The blocks of a cold burst. -/
def burstSpans : List Span := [⟨0, 1⟩, ⟨1, 1⟩, ⟨2, 69⟩, ⟨71, 69⟩]

theorem known_burst {d : Dock} (hd : d.Known) (hburst : d.armBurst = true) :
    d.profile.protocol.codeTables = .wide ∧ d.tenBit = false ∧ d.videoOnCtrlPipe = false := by
  obtain ⟨profile, opening, tenBit⟩ := d
  obtain ⟨hprofile, hten⟩ := hd
  rcases hprofile with rfl | rfl | rfl
  · cases hburst
  · refine ⟨rfl, ?_, rfl⟩
    cases tenBit with
    | false => rfl
    | true => cases hten rfl
  · cases hburst

/-- The connector's mode, and the blocks handed over for it. -/
structure Held (d : Dock) (j : Connector) (mode : UInt16 × UInt16) (out : List Span) (w : World) :
    Prop where
  writes : Delivers w
  dock : w.dock = d
  mode : w.programmedMode j = mode
  out : handed j w.trace = out

section Burst

variable {d : Dock} {j : Connector} {mode : UInt16 × UInt16} {out : List Span} {R : World → Prop}
  (hR : ∀ w, Held d j mode out w → R w)

theorem Held.of {w w' : World} (hw : Held d j mode out w) (hanswers : w'.answers = w.answers)
    (hdock : w'.dock = w.dock) (hmode : w'.programmedMode j = w.programmedMode j)
    (hhanded : handed j w'.trace = handed j w.trace) : Held d j mode out w' :=
  ⟨fun t => hanswers ▸ hw.writes t, hdock.trans hw.dock, hmode.trans hw.mode, hhanded.trans hw.out⟩

theorem handed_sealed {head : UInt8} (w : World) (i : Connector) (pieces : List Piece)
    (seq : UInt32) : handed j (w.sealed head i pieces seq).trace = handed j w.trace := by
  unfold World.sealed World.log handed
  rw [streamOf_append, List.flatMap_append]
  cases hc : Action.concerns j (.enciphered head pieces) with
  | false => simp [streamOf, hc]
  | true => simp [streamOf, hc]

include hR

theorem held_local : Local j (Held d j mode out) R where
  same w w' h hw := hw.of h.answers h.dock h.programmedMode (by rw [handed, h.stream, handed])
  weaken := hR

variable {head : UInt8} (hhead : connector? head = some j)

theorem held_sealing {build : UInt32 → Rng → List Piece × UInt32} :
    Triple (Held d j mode out) (sealing head j build)
      (fun pieces w => (∃ sealSeq rng, pieces = (build sealSeq rng).1) ∧ Held d j mode out w)
      R :=
  triple_sealing (held_local hR).tick fun w _ _ hw =>
    hw.of rfl rfl rfl (handed_sealed w j _ _)

/-- A dock with a cold burst is sent no reports. -/
theorem held_frameReport (hburst : d.armBurst = true) (size : UInt16 × UInt16) :
    Triple (Held d j mode out) (frameReport head j size)
      (fun report w => spans report = [] ∧ Held d j mode out w) R := by
  refine Triple.bind (Q := fun w w' => w.dock = d ∧ Held d j mode out w')
    (Triple.get fun w hw => ⟨hw.dock, hw⟩) fun w => Triple.given fun hdock => ?_
  split_ifs
  · exact Triple.pure fun _ hw => ⟨rfl, hw⟩
  · refine Triple.bind (held_sealing hR) fun report => Triple.given fun hreport => ?_
    have hnone : report = [] := by
      obtain ⟨sealSeq, rng, rfl⟩ := hreport
      simp [streamReport, hdock, hburst]
    subst hnone
    refine Triple.bind (Q := fun _ => Held d j mode out) ?_ fun _ =>
      Triple.pure fun _ hw => ⟨rfl, hw⟩
    rw [settleRestate, if_neg (by simp)]
    exact Triple.pure fun _ hw => hw

include hhead

/-- A frame without sealed records. -/
theorem held_submit {pieces : List Piece} (hpieces : spans pieces = []) :
    Keeps (Held d j mode out) R (submitVideo head pieces) := by
  refine triple_submitVideo (fun _ hw => hw.writes) (fun w hw => hw.of rfl rfl rfl ?_)
    hR
  rw [handed, streamOf_video hhead, List.flatMap_append, List.flatMap_singleton]
  show _ ++ spans pieces = _
  rw [hpieces, List.append_nil]
  rfl

theorem held_streams (hburst : d.armBurst = true) : Streams head j d (fun _ => Held d j mode out)
    (fun _ report w => spans report = [] ∧ Held d j mode out w) R where
  wire _ := (held_local hR).stable.toWire
  report _ size := held_frameReport hR hburst size
  submit n d' report records _ := Triple.given fun hreport => held_submit hR hhead
    (by rw [spans_prefixFrame, hreport]; rfl)
  frameSeq _ _ _ hw := hw.of rfl rfl rfl rfl

theorem held_presentRgb (hburst : d.armBurst = true) (width height : ℕ) (rgb : List UInt8) :
    Keeps (Held d j mode out) R (presentRgb head width height rgb) := by
  refine Streams.presentRgb (S := fun _ _ => Held d j mode out)
    (T := fun _ _ report w => spans report = [] ∧ Held d j mode out w) (fun i hi => ?_)
    (held_local hR).stable.toWire hR (fun _ hw => hw.dock)
    (fun w i s hw => (held_local hR).scanout w i s hw) (fun _ _ _ hw => hw)
    (fun _ _ _ _ hw => hw.of rfl rfl rfl rfl) width height rgb
  obtain rfl : j = i := Option.some.inj (hhead.symm.trans hi)
  exact held_streams hR hhead hburst

theorem held_deactivateMode (width height : ℕ) :
    Keeps (Held d j mode out) R (deactivateMode head width height) := by
  refine (held_local hR).stable.toWire.deactivateMode hR (fun w hw => ?_)
    (fun frames => held_submit hR hhead (spans_map_plain frames)) width height
  rw [World.darkened, hhead]
  exact hw.of rfl rfl rfl rfl

omit hR in
/-- **A mode set hands the burst over**, behind what was handed over before. -/
theorem burst_programMode (hd : d.Known) (hburst : d.armBurst = true) (width height refreshHz : ℕ)
    (hR : ∀ w, Held d j mode out w → R w)
    (hprogrammed : ∀ size w, size ≠ (0, 0) → Held d j size out w → R w)
    (harmed : ∀ size w, size ≠ (0, 0) → Held d j size (out ++ burstSpans) w → R w) :
    Triple (Held d j mode out) (programMode head width height refreshHz)
      (fun _ w => ∃ size, size ≠ (0, 0) ∧ Held d j size (out ++ burstSpans) w) R := by
  obtain ⟨hwide, hten, hpipe⟩ := known_burst hd hburst
  refine (triple_programMode
    (J := fun w => ∃ size, size ≠ (0, 0) ∧ Held d j size (out ++ burstSpans) w) hR
    fun i hi _ _ _ => ?_).mono (fun _ h => h) (fun _ _ h => h.2) fun _ h => h
  obtain rfl : j = i := Option.some.inj (hhead.symm.trans hi)
  have hlocal : ∀ opening, Local j (fun w => spans opening = burstSpans ∧ Held d j mode out w) R :=
    fun opening => ⟨fun w w' h hw => ⟨hw.1, (held_local hR).same w w' h hw.2⟩, fun w hw => hR w hw.2⟩
  refine triple_programConnector (fun _ hw => hw.dock) hR ?_
    (fun opening => (hlocal opening).stable.toWire) (fun opening => (hlocal opening).weaken)
    (fun opening => (hlocal opening).sendControl 0x48) (fun opening => ?_) ?_
  · refine (held_sealing hR).mono (fun _ h => h) (fun opening w hw => ⟨?_, hw.2⟩) fun _ h => h
    obtain ⟨⟨sealSeq, rng, rfl⟩, -⟩ := hw
    rw [streamPrefix, if_pos hburst]
    exact spans_videoArmBurst d head _ _ rng hwide hten
  · refine Triple.bind (Q := fun w w' => w.dock = d ∧ _ ∧ _) (Triple.get fun w hw => ⟨hw.2.dock, hw⟩)
      fun w => Triple.given fun hdock => ?_
    rw [streamRingRecord, hdock, hpipe]
    exact Keeps.pure _
  · intro hknown opening prompt
    generalize UInt16.ofNat width = width, UInt16.ofNat height = height at hknown
    have hsize : (width, height) ≠ ((0, 0) : UInt16 × UInt16) := by
      rintro ⟨⟩
      simp [knownMode] at hknown
    refine (held_streams (harmed _ · hsize) hhead hburst).startStream
      (K := fun w => spans opening = burstSpans ∧ Held d j (width, height) out w)
      (fun _ hw => hw.2.dock)
      (fun w hw => ⟨hw.1, hw.2.writes, hw.2.dock, Function.update_self .., hw.2.out⟩) ?_
      (fun n w hw => ⟨(width, height), hsize, hw.of rfl rfl rfl rfl⟩) ?_
    · refine Triple.given fun hopening => triple_submitVideo (fun _ hw => hw.writes) (fun w hw => ?_)
        (hprogrammed _ · hsize)
      refine ⟨hw.writes, hw.dock, hw.mode, ?_⟩
      rw [handed, streamOf_video hhead, List.flatMap_append, List.flatMap_singleton]
      show handed j w.trace ++ spans (prefixFrame d.toOpening opening [] prompt head 0) = _
      rw [hw.out, spans_prefixFrame, hopening]
      rfl
    · rintro w ⟨size, hsize, hw⟩
      exact ((held_local (harmed _ · hsize)).stable.rearmCursor head).mono (fun _ h => h)
        (fun _ w h => ⟨size, hsize, h⟩) (fun _ h => h) w hw

end Burst

/-! ### Runs -/

/-- No burst, or one behind a mode that was programmed. -/
def Once (mode : UInt16 × UInt16) (out : List Span) : Prop :=
  out = [] ∨ (mode ≠ (0, 0) ∧ out = burstSpans)

/-- At most one burst was handed over, and none before a mode was programmed. -/
def Armed (d : Dock) (j : Connector) (w : World) : Prop :=
  ∃ mode out, Once mode out ∧ Held d j mode out w

/-- The call programs a connector that was given a mode before, or one connector twice. -/
def Rearms (w : World) : Call → Prop
  | .activateMode r => declined w r.head = false ∧ r.Supported ∧
      ∃ i, connector? r.head = some i ∧ w.programmedMode i ≠ (0, 0)
  | .activateModes rs =>
      (∃ r ∈ rs.takeWhile fun r => decide r.Supported, ∃ i, connector? r.head = some i ∧
        w.programmedMode i ≠ (0, 0)) ∨
      ¬((rs.takeWhile fun r => decide r.Supported).map Request.head).Nodup
  | _ => False

theorem connector?_inj {head head' : UInt8} {i : Connector} (h : connector? head = some i)
    (h' : connector? head' = some i) : head = head' := by
  have hval : ∀ {head : UInt8}, connector? head = some i → i.val = head.toNat := by
    intro head h
    unfold connector? at h
    split_ifs at h
    exact congrArg Fin.val (Option.some.inj h).symm
  exact UInt8.toNat_inj.1 ((hval h).symm.trans (hval h'))

section Runs

variable {d : Dock} {j : Connector}

theorem Once.armed {mode : UInt16 × UInt16} {out : List Span} (hout : Once mode out) (w : World)
    (hw : Held d j mode out w) : Armed d j w := ⟨mode, out, hout, hw⟩

/-- A mode that is not supported changes nothing. -/
theorem held_refused {mode : UInt16 × UInt16} {out : List Span}
    (hout : Once mode out) {r : Request} (hr : ¬r.Supported) :
    Triple (Held d j mode out) (programMode r.head r.width r.height r.refreshHz)
      (fun _ _ => False) (Armed d j) :=
  programMode_refused (held_local hout.armed).tick
    (fun i _ w _ _ hw => hw.of rfl rfl rfl (handed_sealed w i _ _)) hout.armed hr

variable (hd : d.Known) (hburst : d.armBurst = true)

include hd hburst

/-- **A mode set on a connector that has none.** -/
theorem armed_activate {r : Request} {mode : UInt16 × UInt16} {out : List Span}
    (hout : Once mode out)
    (hfresh : r.Supported → connector? r.head = some j → mode = (0, 0)) :
    Triple (Held d j mode out) (programMode r.head r.width r.height r.refreshHz)
      (fun _ => Armed d j) (Armed d j) := by
  by_cases hr : r.Supported
  · by_cases hhead : connector? r.head = some j
    · have hzero := hfresh hr hhead
      have hnil : out = [] := hout.resolve_right fun h => h.1 hzero
      subst hzero hnil
      refine (burst_programMode hhead hd hburst r.width r.height r.refreshHz hout.armed
        (fun _ w _ hw => ⟨_, _, .inl rfl, hw⟩) fun _ w hsize hw => ⟨_, _, .inr ⟨hsize, rfl⟩, hw⟩).mono
        (fun _ h => h) (fun _ w h => ?_) fun _ h => h
      obtain ⟨size, hsize, hw⟩ := h
      exact ⟨_, _, .inr ⟨hsize, rfl⟩, hw⟩
    · exact ((held_local hout.armed).programMode_other hhead _ _ _).mono (fun _ h => h)
        (fun _ => hout.armed) fun _ h => h
  · exact (held_refused hout hr).mono (fun _ h => h) (fun _ _ h => h.elim) fun _ h => h

/-- **The batch**, from dark: each connector once. -/
theorem armed_batch : ∀ (rs : List Request) {mode : UInt16 × UInt16} {out : List Span},
    Once mode out →
    ((rs.takeWhile fun r => decide r.Supported).map Request.head).Nodup →
    ((∃ r ∈ rs.takeWhile fun r => decide r.Supported, connector? r.head = some j) →
      mode = (0, 0)) →
    Triple (Held d j mode out)
      (rs.forM fun r => do
        let _ ← programMode r.head r.width r.height r.refreshHz)
      (fun _ => Armed d j) (Armed d j)
  | [], mode, out, hout, _, _ => Triple.pure hout.armed
  | r :: rs, mode, out, hout, hnodup, hfresh => by
      by_cases hr : r.Supported
      · rw [List.takeWhile_cons_of_pos (by simpa using hr)] at hnodup hfresh
        rw [List.map_cons, List.nodup_cons] at hnodup
        by_cases hhead : connector? r.head = some j
        · refine Triple.bind (Q := fun _ => Armed d j) ?_ fun _ => ?_
          · refine Triple.bind (armed_activate hd hburst hout fun _ _ => ?_) fun _ =>
              Triple.pure fun _ hw => hw
            exact hfresh ⟨r, List.mem_cons_self, hhead⟩
          · rintro w ⟨mode', out', hout', hw⟩
            refine armed_batch rs hout' hnodup.2 ?_ w hw
            rintro ⟨r', hr', hhead'⟩
            exact absurd (List.mem_map_of_mem hr')
              (connector?_inj hhead hhead' ▸ hnodup.1)
        · refine Triple.bind (Q := fun _ => Held d j mode out) ?_ fun _ => ?_
          · exact Triple.bind ((held_local hout.armed).programMode_other hhead _ _ _) fun _ =>
              Triple.pure fun _ hw => hw
          · refine armed_batch rs hout hnodup.2 ?_
            rintro ⟨r', hr', hhead'⟩
            exact hfresh ⟨r', List.mem_cons_of_mem r hr', hhead'⟩
      · refine Triple.bind (Q := fun _ _ => False) ?_ fun _ _ hfalse => hfalse.elim
        exact Triple.bind (held_refused hout hr) fun _ _ hfalse => hfalse.elim

/-- **A call that programs no connector again.** -/
theorem armed_perform (c : Crypto) (call : Call) :
    Triple (fun w => Armed d j w ∧ ¬Rearms w call) (perform c call) (fun _ => Armed d j)
      (Armed d j) := by
  rintro w ⟨⟨mode, out, hout, hw⟩, hcond⟩
  have hdeactivate : ∀ head width height,
      Keeps (Held d j mode out) (Armed d j) (deactivateMode head width height) := by
    intro head width height
    by_cases hhead : connector? head = some j
    · exact held_deactivateMode hout.armed hhead width height
    · exact (held_local hout.armed).deactivateMode_other hhead width height
  have hkeep : Keeps (Held d j mode out) (Armed d j) (perform c call) →
      Triple (Held d j mode out) (perform c call) (fun _ => Armed d j) (Armed d j) :=
    fun h => h.mono (fun _ h => h) (fun _ => hout.armed) fun _ h => h
  cases call with
  | activateMode r =>
      have hactivate : Triple (fun w' => w' = w ∧ Held d j mode out w')
          (perform c (.activateMode r)) (fun _ => Armed d j) (Armed d j) := by
        refine Triple.bind (Q := fun _ => Armed d j) ?_ fun _ => Triple.pure fun _ hw => hw
        refine Triple.bind (Q := fun w' w'' => w' = w ∧ Held d j mode out w'')
          (Triple.get fun w' hw => ⟨hw.1, hw.2⟩) fun w' => Triple.given fun hw' => ?_
        rw [hw']
        split_ifs with hdeclined
        · exact Triple.pure hout.armed
        · refine armed_activate hd hburst hout fun hr hhead => ?_
          by_contra hmode
          exact hcond ⟨by simpa using hdeclined, hr, j, hhead, by rw [hw.mode]; exact hmode⟩
      exact hactivate w ⟨rfl, hw⟩
  | activateModes rs =>
      refine Triple.bind (Q := fun _ => Held d j mode out) ?_ (fun _ => ?_) w hw
      · refine Keeps.forM _ fun i _ => Keeps.get.bind fun w => ?_
        split_ifs
        · exact hdeactivate _ _ _
        · exact Keeps.pure _
      · refine armed_batch hd hburst rs hout ?_ ?_
        · by_contra hnodup
          exact hcond (.inr hnodup)
        · rintro ⟨r, hr, hhead⟩
          by_contra hmode
          exact hcond (.inl ⟨r, hr, j, hhead, by rw [hw.mode]; exact hmode⟩)
  | presentRgb head width height rgb =>
      refine hkeep ?_ w hw
      by_cases hhead : connector? head = some j
      · exact held_presentRgb hout.armed hhead hburst width height rgb
      · exact (held_local hout.armed).presentRgb_other hhead width height rgb
  | deactivateMode head width height => exact hkeep (hdeactivate head width height) w hw
  | _ => exact hkeep ((held_local hout.armed).stable.perform c nofun nofun nofun nofun) w hw

end Runs

theorem pairwise_burstSpans : burstSpans.Pairwise Span.Disjoint := by
  have hlaid : Contiguous 0 140 burstSpans := ⟨rfl, rfl, rfl, rfl, rfl⟩
  exact hlaid.pairwise_disjoint (by decide)

/-- **No keystream block of a connector's video is used twice**, in every run whose writes all
succeed and that seals fewer than `2 ^ 32` blocks for the connector, as long as a dock with a cold
burst is not given a connector's mode again. -/
theorem video_spans_disjoint (c : Crypto) (s : ControlSession) (hd : s.dock.Known)
    (es : List Event) (hwrites : ∀ e ∈ es, ∀ t, (e.answers t).write = none)
    (hfresh : Along (fun w e => w.dock.armBurst = true → ¬Rearms w e.call) (step c) (start s) es)
    (j : Connector) (htotal : total (enciphered j (run (step c) (start s) es).trace) < 2 ^ 32) :
    (handed j (run (step c) (start s) es).trace).Pairwise Span.Disjoint := by
  cases hburst : s.dock.armBurst with
  | false =>
      have hstep : ∀ w e, (∃ answers, Pending (s.videoSealSeq j) s.dock j [] (w.facing answers)) →
          (∀ t, (e.answers t).write = none) →
          ∃ answers, Pending (s.videoSealSeq j) s.dock j [] ((step c w e).facing answers) := by
        rintro w e ⟨answers, hw⟩ hgood
        have hface : Pending (s.videoSealSeq j) s.dock j [] (w.facing e.answers) :=
          ⟨hgood, hw.dock, hw.next, hw.laid⟩
        have hfinal := (pending_perform hburst c e.call).final (fun _ h => h) hface
        exact ⟨_, hfinal.writes, hfinal.dock, hfinal.next, hfinal.laid⟩
      have hstart : ∃ answers, Pending (s.videoSealSeq j) s.dock j [] ((start s).facing answers) :=
        ⟨calmAnswers, fun _ => rfl, rfl, (UInt32.add_zero _).symm, Nat.le_refl 0⟩
      obtain ⟨answers, hrun⟩ := run_invariant hstep es (start s) hstart (along_of_forall es _ hwrites)
      have hlaid := hrun.laid
      rw [List.append_nil] at hlaid
      exact hlaid.pairwise_disjoint (by rw [Nat.zero_add]; exact htotal.le)
  | true =>
      have hstep : ∀ w e, (∃ answers, Armed s.dock j (w.facing answers)) →
          ((w.dock.armBurst = true → ¬Rearms w e.call) ∧ ∀ t, (e.answers t).write = none) →
          ∃ answers, Armed s.dock j ((step c w e).facing answers) := by
        rintro w e ⟨answers, mode, out, hout, hw⟩ ⟨hcond, hgood⟩
        have hdock : w.dock = s.dock := hw.dock
        have hface : Armed s.dock j (w.facing e.answers) :=
          ⟨mode, out, hout, hgood, hw.dock, hw.mode, hw.out⟩
        have hcond' : ¬Rearms (w.facing e.answers) e.call := hcond (by rw [hdock, hburst])
        obtain ⟨mode', out', hout', hfinal⟩ := (armed_perform hd hburst c e.call).final
          ⟨hface, hcond'⟩ (T := Armed s.dock j) (fun _ _ h => h) fun _ h => h
        exact ⟨_, mode', out', hout', hfinal.writes, hfinal.dock, hfinal.mode, hfinal.out⟩
      have hstart : ∃ answers, Armed s.dock j ((start s).facing answers) :=
        ⟨calmAnswers, _, [], .inl rfl, fun _ => rfl, rfl, rfl, rfl⟩
      obtain ⟨answers, mode, out, hout, hrun⟩ :=
        run_invariant hstep es (start s) hstart (Along.and es _ hfresh hwrites)
      have hhanded : handed j (run (step c) (start s) es).trace = out := hrun.out
      rw [hhanded]
      rcases hout with rfl | ⟨-, rfl⟩
      · exact List.Pairwise.nil
      · exact pairwise_burstSpans

/-! ### A mode set of a DL-6xxx connector -/

/-- At most `k` blocks were sealed for the connector. -/
structure Few (d : Dock) (j : Connector) (k : ℕ) (w : World) : Prop where
  dock : w.dock = d
  few : total (enciphered j w.trace) ≤ k

section Few

variable {d : Dock} {j : Connector} {k : ℕ} {R : World → Prop}

theorem few_local (hR : ∀ w, Few d j k w → R w) : Local j (Few d j k) R where
  same w w' h hw := ⟨h.dock.trans hw.dock, by rw [enciphered, h.stream]; exact hw.few⟩
  weaken := hR

variable {head : UInt8} (hhead : connector? head = some j)

include hhead

theorem few_submit (hR : ∀ w, Few d j k w → R w) (pieces : List Piece) :
    Keeps (Few d j k) R (submitVideo head pieces) := by
  refine keeps_submitVideo (few_local hR).tick hR fun w error hw => ?_
  refine ⟨hw.dock, ?_⟩
  rw [enciphered, streamOf_video hhead, List.flatMap_append]
  simpa [enciphered] using hw.few

theorem few_sealing {build : UInt32 → Rng → List Piece × UInt32} {b : ℕ}
    (hbuild : ∀ sealSeq rng, total (spans (build sealSeq rng).1) ≤ b) :
    Triple (Few d j k) (sealing head j build) (fun _ => Few d j (k + b)) R := by
  refine Triple.bind (Q := fun _ => Few d j k) (Triple.get fun _ hw => hw) fun w => ?_
  refine Triple.bind (Q := fun _ => Few d j k)
    (triple_ask (few_local (R := fun _ => True) fun _ _ => trivial).tick) fun a => ?_
  refine Triple.bind (Q := fun _ => Few d j (k + b)) (Triple.modify fun w' hw => ?_) fun _ =>
    Triple.pure fun _ hw => hw
  refine ⟨hw.dock, ?_⟩
  rw [World.sealed, enciphered, streamOf_enciphered hhead, List.flatMap_append,
    List.flatMap_singleton, total_append]
  exact Nat.add_le_add hw.few (hbuild _ _)

theorem few_frameReport (hburst : d.armBurst = true) (mode : UInt16 × UInt16) :
    Keeps (Few d j k) R (frameReport head j mode) := by
  refine Triple.bind (Q := fun w w' => w.dock = d ∧ Few d j k w')
    (Triple.get fun w hw => ⟨hw.dock, hw⟩) fun w => Triple.given fun hdock => ?_
  split_ifs
  · exact Triple.pure fun _ hw => hw
  · refine Triple.bind (few_sealing (b := 0) hhead fun sealSeq rng => ?_) fun report => ?_
    · simp [streamReport, hdock, hburst]
    · refine Triple.bind (Q := fun _ => Few d j k) ?_ fun _ => Triple.pure fun _ hw => hw
      unfold settleRestate
      split_ifs
      · exact Triple.modify fun w hw => ⟨hw.dock, hw.few⟩
      · exact Triple.pure fun _ hw => hw

theorem few_streams (hR : ∀ w, Few d j k w → R w) (hburst : d.armBurst = true) :
    Streams head j d (fun _ => Few d j k) (fun _ _ => Few d j k) R where
  wire _ := (few_local hR).stable.toWire
  report _ mode := few_frameReport hhead hburst mode
  submit _ _ _ _ _ := few_submit hhead hR _
  frameSeq _ _ _ hw := ⟨hw.dock, hw.few⟩

/-- A mode set seals one burst. -/
theorem few_programMode (hd : d.Known) (hburst : d.armBurst = true) (width height refreshHz : ℕ) :
    Triple (Few d j k) (programMode head width height refreshHz) (fun _ => Few d j (k + 140))
      (fun _ => True) := by
  obtain ⟨hwide, hten, hpipe⟩ := known_burst hd hburst
  have htrue : ∀ w, Few d j (k + 140) w → True := fun _ _ => trivial
  have hlocal := few_local (k := k + 140) htrue
  refine (triple_programMode (J := Few d j (k + 140)) (fun _ _ => trivial) fun i hi _ _ _ => ?_).mono
    (fun _ h => h) (fun _ _ h => h.2) fun _ h => h
  obtain rfl : j = i := Option.some.inj (hhead.symm.trans hi)
  refine triple_programConnector (I := fun _ => Few d j (k + 140)) (fun _ hw => hw.dock)
    (fun _ _ => trivial) (few_sealing hhead fun sealSeq rng => ?_) (fun _ => hlocal.stable.toWire)
    (fun _ => hlocal.weaken) (fun _ => hlocal.sendControl 0x48) (fun _ => ?_) fun _ opening prompt => ?_
  · rw [streamPrefix, if_pos hburst, spans_videoArmBurst d head _ _ rng hwide hten]
    decide
  · refine Triple.bind (Q := fun w w' => w.dock = d ∧ Few d j (k + 140) w')
      (Triple.get fun w hw => ⟨hw.dock, hw⟩) fun w => Triple.given fun hdock => ?_
    rw [streamRingRecord, hdock, hpipe]
    exact Keeps.pure _
  · exact (few_streams hhead htrue hburst).startStream (K := Few d j (k + 140))
      (fun _ hw => hw.dock) (fun w hw => ⟨hw.dock, hw.few⟩) (few_submit hhead htrue _)
      (fun n w hw => ⟨hw.dock, hw.few⟩)
      (hlocal.stable.rearmCursor head)

/-- A presentation seals nothing. -/
theorem few_presentRgb (hR : ∀ w, Few d j k w → R w) (hburst : d.armBurst = true)
    (width height : ℕ) (rgb : List UInt8) :
    Keeps (Few d j k) R (presentRgb head width height rgb) := by
  refine Streams.presentRgb (d := d) (S := fun _ _ => Few d j k) (T := fun _ _ _ => Few d j k)
    (fun i hi => ?_) (few_local hR).stable.toWire hR (fun _ hw => hw.dock)
    (fun w i s hw => (few_local hR).scanout w i s hw) (fun _ _ _ hw => hw)
    (fun _ _ _ _ hw => ⟨hw.dock, hw.few⟩) width height rgb
  obtain rfl : j = i := Option.some.inj (hhead.symm.trans hi)
  exact few_streams hhead hR hburst

end Few

/-- A DL-6xxx dock, whose streams open with a cold burst. -/
def ridge : Dock := ⟨profileRidge, false, false⟩

theorem known_ridge : ridge.Known := ⟨.inr (.inl rfl), nofun⟩

/-- Quiet surroundings, and what was sealed and handed over for a connector. -/
structure Ridge (j : Connector) (out : List Span) (k : ℕ) (w : World) : Prop where
  quiet : Quiet ridge 2 w
  held : ∃ mode, Held ridge j mode out w
  few : Few ridge j k w

/-- A mode set in quiet surroundings hands a burst over. -/
theorem ridge_activate (c : Crypto) {r : Request} (hr : r.Supported) {j : Connector}
    (hhead : connector? r.head = some j) (hlt : r.head.toNat < 2) {out : List Span} {k : ℕ}
    {w : World} (hw : Ridge j out k (w.facing calmAnswers)) :
    Ridge j (out ++ burstSpans) (k + 140)
      ((step c w ⟨.activateMode r, calmAnswers⟩).facing calmAnswers) := by
  obtain ⟨mode, hheld⟩ := hw.held
  have hprogram := ((programMode_quiet known_ridge hr hlt).and
    (@burst_programMode ridge j mode out (fun _ => True) r.head hhead known_ridge rfl r.width
      r.height r.refreshHz (fun _ _ => trivial) (fun _ _ _ _ => trivial) fun _ _ _ _ => trivial)).and
    (few_programMode (k := k) hhead known_ridge rfl r.width r.height r.refreshHz)
  have hactivate : Triple
      (fun w => (Quiet ridge 2 w ∧ Held ridge j mode out w) ∧ Few ridge j k w)
      (perform c (.activateMode r)) (fun _ => Ridge j (out ++ burstSpans) (k + 140))
      (fun _ => False) := by
    refine Triple.bind (Q := fun _ => Ridge j (out ++ burstSpans) (k + 140)) ?_ fun _ =>
      Triple.pure fun _ hw => hw
    refine Triple.bind (Q := fun w w' => w.dock = ridge ∧
      (Quiet ridge 2 w' ∧ Held ridge j mode out w') ∧ Few ridge j k w')
      (Triple.get fun w hw => ⟨hw.1.1.dock, hw⟩) fun w => Triple.given fun hdock => ?_
    have hdeclined : declined w r.head = false := by
      rw [declined, hdock]
      rfl
    rw [hdeclined]
    refine hprogram.mono (fun _ h => h) (fun _ w h => ?_) fun _ h => h.1.1
    obtain ⟨⟨⟨-, hquiet⟩, size, -, hheld⟩, hfew⟩ := h
    exact ⟨hquiet, ⟨size, hheld⟩, hfew⟩
  have hfinal : Ridge j (out ++ burstSpans) (k + 140)
      (final (perform c (.activateMode r)) (w.facing calmAnswers)) :=
    hactivate.final ⟨⟨hw.quiet, hheld⟩, hw.few⟩ (fun _ _ h => h) fun _ h => h.elim
  obtain ⟨size, hheld⟩ := hfinal.held
  exact ⟨⟨calm_calmAnswers, hfinal.quiet.dock, hfinal.quiet.connectors, hfinal.quiet.cursor⟩,
    ⟨size, fun _ => rfl, hheld.dock, hheld.mode, hheld.out⟩, hfinal.few.dock, hfinal.few.few⟩

/-- Pictures that are presented behind it seal nothing. -/
theorem ridge_present (c : Crypto) {head : UInt8} {j : Connector} (hhead : connector? head = some j)
    {mode : UInt16 × UInt16} {out : List Span} {k : ℕ} (width height : ℕ) (rgb : List UInt8)
    {w : World} (hheld : Held ridge j mode out (w.facing calmAnswers))
    (hfew : Few ridge j k (w.facing calmAnswers)) :
    Held ridge j mode out
        ((step c w ⟨.presentRgb head width height rgb, calmAnswers⟩).facing calmAnswers) ∧
      Few ridge j k
        ((step c w ⟨.presentRgb head width height rgb, calmAnswers⟩).facing calmAnswers) := by
  have hpresent := (held_presentRgb (R := Held ridge j mode out) (fun _ h => h) hhead rfl width
    height rgb).and (few_presentRgb (R := Few ridge j k) hhead (fun _ h => h) rfl width height rgb)
  have hfinal : Held ridge j mode out
        (final (perform c (.presentRgb head width height rgb)) (w.facing calmAnswers)) ∧
      Few ridge j k
        (final (perform c (.presentRgb head width height rgb)) (w.facing calmAnswers)) :=
    Triple.final (T := fun w => Held ridge j mode out w ∧ Few ridge j k w) hpresent
      ⟨hheld, hfew⟩ (fun _ _ h => h) fun _ h => h
  exact ⟨⟨fun _ => rfl, hfinal.1.dock, hfinal.1.mode, hfinal.1.out⟩, hfinal.2.dock, hfinal.2.few⟩

/-- HD on the first connector. -/
def hdMode : Request := ⟨0, 1280, 720, 60⟩

/-- The connector is lit and given two pictures. -/
def litThenPresented (rgb rgb' : List UInt8) : List Event :=
  [⟨.activateMode hdMode, calmAnswers⟩, ⟨.presentRgb hdMode.head 1280 720 rgb, calmAnswers⟩,
    ⟨.presentRgb hdMode.head 1280 720 rgb', calmAnswers⟩]

/-- A picture of one grey. -/
def grey (level : UInt8) : List UInt8 := List.replicate (1280 * 720 * 3) level

theorem supported_hdMode : hdMode.Supported := by decide +kernel

theorem ridge_start (j : Connector) :
    Ridge j [] 0 ((start (freshSession ridge 2)).facing calmAnswers) :=
  ⟨⟨calm_calmAnswers, rfl, rfl, fun _ => rfl⟩, ⟨_, fun _ => rfl, rfl, rfl, rfl⟩, rfl, Nat.le_refl 0⟩

/-- What such a run hands over and seals. -/
theorem handed_litThenPresented (rgb rgb' : List UInt8) {j : Connector}
    (hhead : connector? hdMode.head = some j) {w : World}
    (hstart : Ridge j [] 0 (w.facing calmAnswers)) :
    handed j (run (step plainCrypto) w (litThenPresented rgb rgb')).trace = burstSpans ∧
      total (enciphered j (run (step plainCrypto) w (litThenPresented rgb rgb')).trace) ≤ 140 := by
  have hlit := ridge_activate plainCrypto supported_hdMode hhead (by decide) hstart
  rw [litThenPresented, run, List.foldl_cons, List.foldl_cons, List.foldl_cons, List.foldl_nil]
  generalize step plainCrypto w ⟨.activateMode hdMode, calmAnswers⟩ = w₁ at hlit ⊢
  obtain ⟨mode, hheld⟩ := hlit.held
  have hfirst := ridge_present plainCrypto hhead 1280 720 rgb hheld hlit.few
  generalize step plainCrypto w₁ ⟨.presentRgb hdMode.head 1280 720 rgb, calmAnswers⟩ = w₂
    at hfirst ⊢
  have hsecond := ridge_present plainCrypto hhead 1280 720 rgb' hfirst.1 hfirst.2
  generalize step plainCrypto w₂ ⟨.presentRgb hdMode.head 1280 720 rgb', calmAnswers⟩ = w₃
    at hsecond ⊢
  exact ⟨hsecond.1.out, hsecond.2.few⟩

theorem video_spans_disjoint_presented :
    handed ⟨0, by decide⟩ (run (step plainCrypto) (start (freshSession ridge 2))
        (litThenPresented (grey 64) (grey 192))).trace = [⟨0, 1⟩, ⟨1, 1⟩, ⟨2, 69⟩, ⟨71, 69⟩] ∧
      (handed ⟨0, by decide⟩ (run (step plainCrypto) (start (freshSession ridge 2))
        (litThenPresented (grey 64) (grey 192))).trace).Pairwise Span.Disjoint := by
  obtain ⟨hhanded, hfew⟩ := handed_litThenPresented (grey 64) (grey 192) (j := ⟨0, by decide⟩) rfl
    (ridge_start _)
  have hfresh : ¬Rearms (start (freshSession ridge 2)) (.activateMode hdMode) := by
    rintro ⟨-, -, i, -, hmode⟩
    exact hmode rfl
  refine ⟨hhanded, video_spans_disjoint plainCrypto (freshSession ridge 2) known_ridge
    (litThenPresented (grey 64) (grey 192)) (by simp [litThenPresented, calmAnswers])
    ⟨fun _ => hfresh, fun _ h => h, fun _ h => h, trivial⟩ _ ?_⟩
  exact hfew.trans_lt (by decide)

/-- **The second mode set of a DL-6xxx connector reuses the keystream of the first.** -/
theorem burst_reuses_keystream :
    ¬∀ (c : Crypto) (s : ControlSession) (es : List Event) (j : Connector), s.dock.Known →
      (∀ e ∈ es, ∀ t, (e.answers t).write = none) →
      total (enciphered j (run (step c) (start s) es).trace) < 2 ^ 32 →
      (handed j (run (step c) (start s) es).trace).Pairwise Span.Disjoint := by
  intro h
  obtain ⟨r, hr, hlt⟩ : ∃ r : Request, r.Supported ∧ r.head.toNat < 2 :=
    ⟨hdMode, supported_hdMode, by decide⟩
  obtain ⟨j, hhead⟩ := Option.isSome_iff_exists.1 hr.2.2.2.1
  have hdisjoint := h plainCrypto (freshSession ridge 2)
    [⟨.activateMode r, calmAnswers⟩, ⟨.activateMode r, calmAnswers⟩] j known_ridge
    (by simp [calmAnswers])
  have hstart := ridge_start j
  generalize start (freshSession ridge 2) = w at hdisjoint hstart
  rw [run, List.foldl_cons, List.foldl_cons, List.foldl_nil] at hdisjoint
  have hfirst := ridge_activate plainCrypto hr hhead hlt hstart
  generalize step plainCrypto w ⟨.activateMode r, calmAnswers⟩ = w' at hdisjoint hfirst
  have hsecond := ridge_activate plainCrypto hr hhead hlt hfirst
  generalize step plainCrypto w' ⟨.activateMode r, calmAnswers⟩ = w'' at hdisjoint hsecond
  obtain ⟨mode, hheld⟩ := hsecond.held
  have hfew : total (enciphered j w''.trace) ≤ 280 := hsecond.few.few
  have hout : handed j w''.trace = burstSpans ++ burstSpans := hheld.out
  have hpairwise := hdisjoint (by omega)
  rw [hout] at hpairwise
  have hcross := (List.pairwise_append.1 hpairwise).2.2 ⟨0, 1⟩ List.mem_cons_self ⟨0, 1⟩
    List.mem_cons_self
  exact hcross 0 (by decide) 0 (by decide) rfl

end Vino.Session
