import Vino.Session.Calls

/-!
# The Keystream of the Control Channel

A control frame is enciphered with the blocks from the session's counter on, and the counter moves
behind them once the frame went out.  A write that reports an error leaves the counter where it
was, although the dock may have the frame.  Most errors end the session; the daemon goes on after
those of `ddcci` and `fetchEdid`.

* `control_spans_disjoint`: no block is used twice while no transfer fails in a call whose errors
  are swallowed,
* `ddcci_reuses_counter`: one that fails there has its blocks used again.
-/

namespace Vino.Session

open Vino.Cp.Messages Vino.Cp.Seal Vino.Lib.Effect Vino.Lib.Run Vino.Lib.Spans Vino.Profile

/-! ### Runs that an error may end -/

/-- A session, and whether an error has ended it. -/
structure Live where
  world : World
  ended : Bool

/-- The daemon reports an error of the call and goes on. -/
def Call.swallowed : Call → Bool
  | .ddcci .. => true
  | .fetchEdid _ => true
  | _ => false

/-- A call to a session that has not ended. -/
def Live.step (c : Crypto) (s : Live) (e : Event) : Live :=
  if s.ended then s
  else
    match perform c e.call (s.world.facing e.answers) with
    | .ok _ w => ⟨w, false⟩
    | .error _ w => ⟨w, !e.call.swallowed⟩

/-- The blocks of the control frames handed over, in order. -/
def controlSpans (trace : List Action) : List Span :=
  (controls trace).map fun f => ⟨f.1, blocks f.2.1.length⟩

theorem controlSpans_concat (trace : List Action) (seq : UInt32) (id : UInt16)
    (content : List UInt8) (error : Option UsbError) :
    controlSpans (trace ++ [.control seq id content error]) =
      controlSpans trace ++ [⟨seq, blocks content.length⟩] := by
  simp [controlSpans, controls]

/-! ### The invariant -/

/-- The frames so far took the counter from `s0` to where it is. -/
def Aligned (s0 : UInt32) (w : World) : Prop :=
  Contiguous s0 w.wireSeq (controlSpans w.trace)

/-- The frames so far took consecutive blocks, the last of them perhaps without moving the
counter. -/
def Spent (s0 : UInt32) (w : World) : Prop :=
  ∃ seq, Contiguous s0 seq (controlSpans w.trace)

variable {s0 : UInt32}

theorem Aligned.spent {w : World} (hw : Aligned s0 w) : Spent s0 w := ⟨w.wireSeq, hw⟩

/-- One more frame behind the others. -/
theorem Aligned.concat {w : World} (hw : Aligned s0 w) (id : UInt16) (content : List UInt8)
    (error : Option UsbError) :
    Contiguous s0 (w.wireSeq + UInt32.ofNat (blocks content.length))
      (controlSpans (w.trace ++ [.control w.wireSeq id content error])) := by
  rw [controlSpans_concat]
  exact Contiguous.append hw ⟨rfl, rfl⟩

theorem aligned_transmit (id : UInt16) (content : List UInt8) (fail : UsbError → SessionError) :
    Keeps (Aligned s0) (Spent s0) (transmit id content fail) :=
  triple_transmit (fun _ hw _ => hw.concat id content none) fun _ e hw _ =>
    ⟨_, hw.concat id content (some e)⟩

theorem Aligned.same {w w' : World} (hsame : SameControl w w') (hw : Aligned s0 w) :
    Aligned s0 w' := by
  unfold Aligned controlSpans
  rw [hsame.wireSeq, hsame.controls]
  exact hw

theorem aligned_steady (s0 : UInt32) : Steady (Aligned s0) (Spent s0) where
  tick _ hw := hw
  weaken _ hw := hw.spent
  cursor _ _ hw := hw
  receive := keeps_receiveOptional (fun _ hw => hw) fun _ hw => hw.spent
  transmit id content fail :=
    (aligned_transmit id content fail).mono (fun _ hw => hw.1) (fun _ _ h => h) fun _ h => h
  same _ _ hsame hw := hw.same hsame

theorem delivering_transmit (id : UInt16) (content : List UInt8)
    (fail : UsbError → SessionError) :
    Keeps (fun w => Aligned s0 w ∧ Delivers w) (fun w => Aligned s0 w ∧ Delivers w)
      (transmit id content fail) := by
  refine triple_transmit (fun w hw _ => ⟨hw.1.concat id content none, hw.2⟩) fun w e hw hwrite => ?_
  rw [hw.2] at hwrite
  cases hwrite

/-- Without a failing write an error leaves the counter behind the frames, too. -/
theorem delivering_steady (s0 : UInt32) :
    Steady (fun w => Aligned s0 w ∧ Delivers w) (fun w => Aligned s0 w ∧ Delivers w) where
  tick _ hw := hw
  weaken _ hw := hw
  cursor _ _ hw := hw
  receive := keeps_receiveOptional (fun _ hw => hw) fun _ hw => hw
  transmit id content fail :=
    (delivering_transmit id content fail).mono (fun _ hw => hw.1) (fun _ _ h => h) fun _ h => h
  same w w' hsame hw := ⟨hw.1.same hsame, fun t => by rw [hsame.answers]; exact hw.2 t⟩

/-! ### Runs -/

/-- What holds of a session that goes on, and of one that has ended. -/
def Live.Sound (s0 : UInt32) (s : Live) : Prop :=
  if s.ended then Spent s0 s.world else Aligned s0 s.world

theorem Live.Sound.spent {s : Live} (hs : s.Sound s0) : Spent s0 s.world := by
  unfold Live.Sound at hs
  split_ifs at hs
  · exact hs
  · exact Aligned.spent hs

/-- **One call.** -/
theorem sound_step (c : Crypto) (s : Live) (e : Event) (hs : s.Sound s0)
    (hwrites : e.call.swallowed = true → ∀ t, (e.answers t).write = none) :
    (s.step c e).Sound s0 := by
  unfold Live.step
  split_ifs with hended
  · exact hs
  · have haligned : Aligned s0 (s.world.facing e.answers) := by
      unfold Live.Sound at hs
      rwa [if_neg hended] at hs
    cases hswallowed : e.call.swallowed with
    | false =>
        have hrun := (aligned_steady s0).perform
          (fun content => (aligned_transmit 0x48 content _).bind fun _ =>
            (aligned_steady s0).receive) c e.call _ haligned
        split
        · rename_i w hw
          rw [hw] at hrun
          exact hrun
        · rename_i w hw
          rw [hw] at hrun
          exact hrun
    | true =>
        have hrun := (delivering_steady s0).perform
          (fun content => (delivering_transmit 0x48 content _).bind fun _ =>
            (delivering_steady s0).receive) c e.call _ ⟨haligned, hwrites hswallowed⟩
        split
        · rename_i w hw
          rw [hw] at hrun
          exact hrun.1
        · rename_i w hw
          rw [hw] at hrun
          exact hrun.1

/-- **No keystream block is used twice** on the control channel, in every run in which no transfer
fails during a call whose errors are swallowed. -/
theorem control_spans_disjoint (c : Crypto) (s : ControlSession) (es : List Event)
    (hwrites : ∀ e ∈ es, e.call.swallowed = true → ∀ t, (e.answers t).write = none)
    (htotal : total (controlSpans (run (Live.step c) ⟨start s, false⟩ es).world.trace) < 2 ^ 32) :
    (controlSpans (run (Live.step c) ⟨start s, false⟩ es).world.trace).Pairwise
      Span.Disjoint := by
  have hrun := run_invariant (fun s e hs he => sound_step c s e hs he) es
    ⟨start s, false⟩ rfl (along_of_forall es _ hwrites)
  obtain ⟨seq, hspans⟩ := hrun.spent
  exact hspans.pairwise_disjoint htotal.le

/-- A heartbeat and a DDC/CI write that goes out. -/
theorem control_spans_disjoint_sample :
    (controlSpans (run (Live.step plainCrypto)
      ⟨start (freshSession ⟨profileElla, false, false⟩ 2), false⟩
      [⟨.heartbeat, calmAnswers⟩, ⟨.ddcci 0 i2cAddr 0 [], calmAnswers⟩]).world.trace).Pairwise
      Span.Disjoint :=
  control_spans_disjoint plainCrypto (freshSession ⟨profileElla, false, false⟩ 2)
    [⟨.heartbeat, calmAnswers⟩, ⟨.ddcci 0 i2cAddr 0 [], calmAnswers⟩] (by simp [calmAnswers])
    (by decide +kernel)

/-- **A DDC/CI write that reports a timeout leaves its counter to the next message**: both frames
are enciphered with the same blocks. -/
theorem ddcci_reuses_counter :
    ¬∀ (c : Crypto) (s : ControlSession) (es : List Event),
      total (controlSpans (run (Live.step c) ⟨start s, false⟩ es).world.trace) < 2 ^ 32 →
      (controlSpans (run (Live.step c) ⟨start s, false⟩ es).world.trace).Pairwise
        Span.Disjoint := by
  intro h
  let failing : ℕ → Answer := fun t => { calmAnswers t with write := some .timeout }
  let es : List Event := [⟨.ddcci 0 i2cAddr 0 [], failing⟩, ⟨.heartbeat, calmAnswers⟩]
  have hspans : controlSpans (run (Live.step plainCrypto)
      ⟨start (freshSession ⟨profileElla, false, false⟩ 2), false⟩ es).world.trace =
      [⟨0, 4⟩, ⟨0, 2⟩] := by decide +kernel
  have hdisjoint := h plainCrypto (freshSession ⟨profileElla, false, false⟩ 2) es
    (by rw [hspans]; decide)
  rw [hspans, List.pairwise_pair] at hdisjoint
  exact hdisjoint 0 (by decide) 0 (by decide) rfl

end Vino.Session
