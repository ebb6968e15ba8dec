import Vino.Lib.Run

/-!
# A Shared Pipe

On a dock whose video shares the control endpoint, six threads write to one pipe: the scanout
worker of each connector, the command worker and the keepalive.  A frame presentation is several
transfers, and `own_pipe` is what keeps a control write from landing between two of them: the
presentation holds the guard from its first transfer to its last, and `send_cp_locked` takes it
around its write.  `send_presence_probe`, `send_stream_ring` and `send_stream_config` write without
it.

* `presentations_whole`: in every run in which none of these three writes while a presentation is
  part-way through, no control write stands between two transfers of one presentation,
* `ring_inside_frame`: the activation a scanout worker performs inline writes its ring descriptor
  into the frame of another connector.
-/

namespace Vino.Kms.Pipe

open Vino.Lib.Run

/-! ### Writers and the endpoint -/

local instance neZero_four : NeZero 4 := ⟨by decide⟩

/-- The threads that write to the endpoint. -/
inductive Writer where
  | scanout (connector : Fin 4)
  | command
  | keepalive
  deriving DecidableEq

/-- What reaches the endpoint: a control record, or one transfer of a frame presentation. -/
inductive Transfer where
  | control (w : Writer)
  | frame (presentation : ℕ)
  deriving DecidableEq

/-- Where a writer is in the call it performs. -/
inductive Phase where
  | idle
  /-- `send_cp_locked`, behind `cp_link.lock()`: the message is sealed. -/
  | sealed
  /-- Behind `own_pipe()`. -/
  | owning
  /-- Behind `ctrl_send`, before `drop(pipe)`. -/
  | written
  /-- `send_presence_probe`, behind `cp_link.lock()`. -/
  | probing
  /-- Waiting for the reply, with `cp_link` held. -/
  | awaiting
  /-- Submitting a frame under `own_pipe()`: transfers submitted, and transfers to go. -/
  | presenting (presentation sent left : ℕ)
  deriving DecidableEq

namespace Phase

/-- The call holds the guard of the pipe. -/
def ownsPipe : Phase → Bool
  | owning | written | presenting .. => true
  | _ => false

/-- A frame of which a part has been submitted. -/
def midFrame : Phase → Bool
  | presenting _ sent left => 0 < sent && 0 < left
  | _ => false

end Phase

structure State where
  cpLink : Option Writer
  pipeWriter : Option Writer
  armPrefixPending : Fin 4 → Bool
  phase : Writer → Phase
  /-- Presentations begun so far. -/
  presentations : ℕ
  /-- What reached the endpoint, oldest first. -/
  wire : List Transfer

namespace State

def initial : State where
  cpLink := none
  pipeWriter := none
  armPrefixPending := fun _ => false
  phase := fun _ => .idle
  presentations := 0
  wire := []

def enter (s : State) (w : Writer) (p : Phase) : State :=
  { s with phase := Function.update s.phase w p }

def put (s : State) (x : Transfer) : State := { s with wire := s.wire ++ [x] }

end State

inductive Event where
  /-- `send_cp_locked` takes the control link and seals the message. -/
  | sendCp (w : Writer)
  /-- It takes the pipe. -/
  | ownPipe (w : Writer)
  /-- It writes the message. -/
  | ctrlSend (w : Writer)
  /-- It gives the pipe back and waits for the reply. -/
  | dropPipe (w : Writer)
  /-- The reply, or a timeout, ends the call. -/
  | finishReply (w : Writer)
  /-- `send_presence_probe` takes the control link. -/
  | presenceProbe (w : Writer)
  /-- It writes the probe. -/
  | probeSend (w : Writer)
  /-- Activation makes a connector owe its stream prologue. -/
  | armStreamPrologue (w : Writer) (connector : Fin 4)
  /-- `send_stream_ring`. -/
  | streamRing (w : Writer) (connector : Fin 4)
  /-- `send_stream_config`. -/
  | streamConfig (w : Writer) (connector : Fin 4)
  /-- A presentation of `n` transfers takes the pipe. -/
  | beginFrame (w : Writer) (n : ℕ)
  | transfer (w : Writer)
  /-- The presentation gives the pipe back, behind its last transfer or behind one that failed; the
  first of a mode generation settles the prologue of its connector. -/
  | endFrame (w : Writer) (startup : Option (Fin 4))

/-- A write of the stream prologue: nothing unless the connector owes it. -/
def sendPrologue (s : State) (w : Writer) (connector : Fin 4) : State :=
  match s.phase w with
  | .idle => if s.armPrefixPending connector then s.put (.control w) else s
  | _ => s

/-- One step of a writer; a step that is not due, or that waits for a lock, changes nothing. -/
def step (s : State) : Event → State
  | .sendCp w =>
      match s.phase w, s.cpLink with
      | .idle, none => { s.enter w .sealed with cpLink := some w }
      | _, _ => s
  | .ownPipe w =>
      match s.phase w, s.pipeWriter with
      | .sealed, none => { s.enter w .owning with pipeWriter := some w }
      | _, _ => s
  | .ctrlSend w =>
      match s.phase w with
      | .owning => (s.put (.control w)).enter w .written
      | _ => s
  | .dropPipe w =>
      match s.phase w with
      | .written => { s.enter w .awaiting with pipeWriter := none }
      | _ => s
  | .finishReply w =>
      match s.phase w with
      | .awaiting => { s.enter w .idle with cpLink := none }
      | _ => s
  | .presenceProbe w =>
      match s.phase w, s.cpLink with
      | .idle, none => { s.enter w .probing with cpLink := some w }
      | _, _ => s
  | .probeSend w =>
      match s.phase w with
      | .probing => (s.put (.control w)).enter w .awaiting
      | _ => s
  | .armStreamPrologue w connector =>
      match s.phase w with
      | .idle => { s with armPrefixPending := Function.update s.armPrefixPending connector true }
      | _ => s
  | .streamRing w connector => sendPrologue s w connector
  | .streamConfig w connector => sendPrologue s w connector
  | .beginFrame w n =>
      match s.phase w, s.pipeWriter with
      | .idle, none =>
          { s.enter w (.presenting s.presentations 0 n) with
            pipeWriter := some w
            presentations := s.presentations + 1 }
      | _, _ => s
  | .transfer w =>
      match s.phase w with
      | .presenting p sent (left + 1) =>
          (s.put (.frame p)).enter w (.presenting p (sent + 1) left)
      | _ => s
  | .endFrame w startup =>
      match s.phase w with
      | .presenting .. =>
          { s.enter w .idle with
            pipeWriter := none
            armPrefixPending :=
              startup.elim s.armPrefixPending (Function.update s.armPrefixPending · false) }
      | _ => s

/-- No control write stands between two transfers of one presentation. -/
def Whole (wire : List Transfer) : Prop :=
  ∀ (i j k p : ℕ) (w : Writer), i < j → j < k → wire[i]? = some (Transfer.frame p) →
    wire[k]? = some (Transfer.frame p) → wire[j]? ≠ some (Transfer.control w)

/-- A write that does not take the pipe finds no frame part-way through.  A probe is written behind
its lock, a ring descriptor or a decoder configuration where the prologue is owed. -/
def Event.Clear (s : State) : Event → Prop
  | .probeSend w => s.phase w = .probing → ∀ v, (s.phase v).midFrame = false
  | .streamRing w connector | .streamConfig w connector =>
      s.phase w = .idle → s.armPrefixPending connector = true →
        ∀ v, (s.phase v).midFrame = false
  | _ => True

/-! ### One step -/

theorem getElem?_put {s : State} {x y : Transfer} {i : ℕ} (h : (s.put x).wire[i]? = some y) :
    s.wire[i]? = some y ∨ i = s.wire.length ∧ x = y := by
  rcases Nat.lt_trichotomy i s.wire.length with hi | hi | hi
  · left
    rwa [State.put, List.getElem?_append_left hi] at h
  · right
    subst hi
    rw [State.put, List.getElem?_concat_length] at h
    exact ⟨rfl, Option.some.inj h⟩
  · rw [State.put, List.getElem?_eq_none (by simp; omega)] at h
    cases h

/-- No control write stands behind a transfer of the presentation. -/
def Unbroken (wire : List Transfer) (p : ℕ) : Prop :=
  ∀ (i j : ℕ) (w : Writer), i < j → wire[i]? = some (Transfer.frame p) →
    wire[j]? ≠ some (Transfer.control w)

/-- What holds between any two steps of the writers. -/
structure Inv (s : State) : Prop where
  owner : ∀ w, (s.phase w).ownsPipe = true → s.pipeWriter = some w
  begun : ∀ p, .frame p ∈ s.wire → p < s.presentations
  /-- A presentation under way has submitted nothing yet, or nothing cuts it so far. -/
  current : ∀ w p sent left, s.phase w = .presenting p sent left →
    p < s.presentations ∧ (sent = 0 → .frame p ∉ s.wire) ∧ (0 < left → Unbroken s.wire p)
  whole : Whole s.wire

theorem inv_initial : Inv State.initial where
  owner := by simp [State.initial, Phase.ownsPipe]
  begun := by simp [State.initial]
  current := by simp [State.initial]
  whole := by
    intro i j k p w _ _ hi
    simp [State.initial] at hi

/-- Taking or releasing a lock, in a phase that submits no frame. -/
theorem Inv.enter {s : State} (h : Inv s) {w : Writer} {ph : Phase} {link pipe : Option Writer}
    {arm : Fin 4 → Bool} (hph : ∀ p sent left, ph ≠ .presenting p sent left)
    (howner : ∀ v, (Function.update s.phase w ph v).ownsPipe = true → pipe = some v) :
    Inv { s.enter w ph with cpLink := link, pipeWriter := pipe, armPrefixPending := arm } where
  owner := howner
  begun := h.begun
  current := by
    intro v p sent left hv
    by_cases hvw : v = w
    · subst hvw
      exact absurd (by simpa [State.enter] using hv) (hph p sent left)
    · exact h.current v p sent left (by simpa [State.enter, hvw] using hv)
  whole := h.whole

/-- A control write between frames. -/
theorem Inv.put_control {s : State} (h : Inv s) (w : Writer)
    (hclear : ∀ v, (s.phase v).midFrame = false) : Inv (s.put (.control w)) where
  owner := h.owner
  begun := by
    intro p hp
    exact h.begun p (by simpa [State.put] using hp)
  current := by
    intro v p sent left hv
    obtain ⟨hlt, hnone, hleft⟩ := h.current v p sent left hv
    refine ⟨hlt, fun h0 => by simpa [State.put] using hnone h0, ?_⟩
    intro hpos i j u hij hi hj
    have hsent : sent = 0 := by
      have := hclear v
      simp only [show s.phase v = _ from hv, Phase.midFrame] at this
      simp at this
      omega
    rcases getElem?_put hi with hi | ⟨_, hi⟩
    · exact hnone hsent (List.mem_of_getElem? hi)
    · cases hi
  whole := by
    intro i j k p u hij hjk hi hk hj
    rcases getElem?_put hk with hk' | ⟨_, hk'⟩
    · have hlen : k < s.wire.length := (List.getElem?_eq_some_iff.1 hk').1
      rcases getElem?_put hi with hi' | ⟨hi', _⟩
      · rcases getElem?_put hj with hj' | ⟨hj', _⟩
        · exact h.whole i j k p u hij hjk hi' hk' hj'
        · omega
      · omega
    · cases hk'

/-- A transfer of the presentation under way. -/
theorem Inv.put_frame {s : State} (h : Inv s) {w : Writer} {p sent left : ℕ}
    (hw : s.phase w = .presenting p sent (left + 1)) :
    Inv ((s.put (.frame p)).enter w (.presenting p (sent + 1) left)) := by
  obtain ⟨hlt, -, hleft⟩ := h.current w p sent (left + 1) hw
  have hown : s.pipeWriter = some w := h.owner w (by rw [hw]; rfl)
  have hunb : Unbroken (s.put (.frame p)).wire p := by
    intro i j u hij hi hj
    rcases getElem?_put hj with hj' | ⟨_, hj'⟩
    · have hlen : j < s.wire.length := (List.getElem?_eq_some_iff.1 hj').1
      rcases getElem?_put hi with hi' | ⟨hi', _⟩
      · exact hleft (by omega) i j u hij hi' hj'
      · omega
    · cases hj'
  refine ⟨?_, ?_, ?_, ?_⟩
  · intro v hv
    by_cases hvw : v = w
    · subst hvw
      exact hown
    · exact h.owner v (by simpa [State.enter, State.put, hvw] using hv)
  · intro q hq
    rcases List.mem_append.1 hq with hq | hq
    · exact h.begun q hq
    · obtain rfl : q = p := by simpa using hq
      exact hlt
  · intro v q sent' left' hv
    by_cases hvw : v = w
    · subst hvw
      obtain ⟨rfl, rfl, rfl⟩ : p = q ∧ sent + 1 = sent' ∧ left = left' := by
        simpa [State.enter] using hv
      exact ⟨hlt, by omega, fun _ => hunb⟩
    · have hv' : s.phase v = .presenting q sent' left' := by
        simpa [State.enter, State.put, hvw] using hv
      have hown' : s.pipeWriter = some v := h.owner v (by rw [hv']; rfl)
      exact absurd (Option.some.inj (hown'.symm.trans hown)) hvw
  · intro i j k q u hij hjk hi hk hj
    rcases getElem?_put hk with hk' | ⟨hk', hq⟩
    · have hlen : k < s.wire.length := (List.getElem?_eq_some_iff.1 hk').1
      rcases getElem?_put hi with hi' | ⟨hi', _⟩
      · rcases getElem?_put hj with hj' | ⟨hj', _⟩
        · exact h.whole i j k q u hij hjk hi' hk' hj'
        · omega
      · omega
    · obtain rfl : p = q := by simpa using hq
      exact hunb i j u hij hi hj

/-- The owner of the pipe is alone with it. -/
theorem Inv.midFrame_eq_false {s : State} (h : Inv s) {w : Writer}
    (hw : s.pipeWriter = some w ∨ s.pipeWriter = none) (hph : (s.phase w).midFrame = false) :
    ∀ v, (s.phase v).midFrame = false := by
  intro v
  by_cases hvw : v = w
  · subst hvw
    exact hph
  · by_contra hmid
    have hown : (s.phase v).ownsPipe = true := by
      cases hv : s.phase v <;> simp_all [Phase.midFrame, Phase.ownsPipe]
    have hv := h.owner v hown
    rcases hw with hw | hw
    · exact hvw (Option.some.inj (hv.symm.trans hw))
    · simp [hw] at hv

/-- Ownership behind a phase that does not hold the pipe. -/
theorem Inv.owner_update {s : State} (h : Inv s) {w : Writer} {ph : Phase}
    (hph : ph.ownsPipe = false) :
    ∀ v, (Function.update s.phase w ph v).ownsPipe = true → s.pipeWriter = some v := by
  intro v hv
  by_cases hvw : v = w
  · subst hvw
    simp [hph] at hv
  · exact h.owner v (by simpa [hvw] using hv)

/-- Nobody owns a pipe that its owner gives back. -/
theorem Inv.owner_release {s : State} (h : Inv s) {w : Writer} {ph : Phase}
    (hown : s.pipeWriter = some w) (hph : ph.ownsPipe = false) :
    ∀ v, (Function.update s.phase w ph v).ownsPipe = true → none = some v := by
  intro v hv
  have hv' := h.owner_update hph v hv
  obtain rfl : v = w := Option.some.inj (hv'.symm.trans hown)
  simp [hph] at hv

theorem Inv.beginFrame {s : State} (h : Inv s) {w : Writer} {n : ℕ} (hpipe : s.pipeWriter = none) :
    Inv { s.enter w (.presenting s.presentations 0 n) with
      pipeWriter := some w
      presentations := s.presentations + 1 } := by
  have hfree : ∀ v, (s.phase v).ownsPipe = false := by
    intro v
    by_contra hv
    have hv' := h.owner v (by simpa using hv)
    simp [hpipe] at hv'
  have hnew : Transfer.frame s.presentations ∉ s.wire := by
    intro hp
    exact lt_irrefl _ (h.begun _ hp)
  refine ⟨?_, fun p hp => Nat.lt_succ_of_lt (h.begun p hp), ?_, h.whole⟩
  · intro v hv
    by_cases hvw : v = w
    · rw [hvw]
    · simp [State.enter, hvw, hfree v] at hv
  · intro v p sent left hv
    by_cases hvw : v = w
    · subst hvw
      obtain ⟨rfl, rfl, rfl⟩ : s.presentations = p ∧ 0 = sent ∧ n = left := by
        simpa [State.enter] using hv
      refine ⟨Nat.lt_succ_self _, fun _ => hnew, ?_⟩
      intro _ i j u _ hi
      exact absurd (List.mem_of_getElem? hi) hnew
    · have hv' : s.phase v = .presenting p sent left := by simpa [State.enter, hvw] using hv
      have := hfree v
      simp [hv', Phase.ownsPipe] at this

theorem inv_sendPrologue {s : State} (h : Inv s) (w : Writer) (connector : Fin 4)
    (hclear : s.phase w = .idle → s.armPrefixPending connector = true →
      ∀ v, (s.phase v).midFrame = false) : Inv (sendPrologue s w connector) := by
  unfold sendPrologue
  split
  next hidle =>
    split
    next hpending => exact h.put_control w (hclear hidle hpending)
    next => exact h
  next => exact h

theorem inv_step {s : State} {e : Event} (h : Inv s) (he : e.Clear s) : Inv (step s e) := by
  cases e with
  | sendCp w =>
    simp only [step]
    split
    · exact h.enter (by simp) (h.owner_update rfl)
    · exact h
  | ownPipe w =>
    simp only [step]
    split
    next hph hpipe =>
      refine h.enter (by simp) fun v hv => ?_
      by_cases hvw : v = w
      · rw [hvw]
      · have hv' := h.owner v (by simpa [hvw] using hv)
        simp [hpipe] at hv'
    next => exact h
  | ctrlSend w =>
    simp only [step]
    split
    next hph =>
      have hown : s.pipeWriter = some w := h.owner w (by rw [hph]; rfl)
      have hmid := h.midFrame_eq_false (Or.inl hown) (by rw [hph]; rfl)
      refine (h.put_control w hmid).enter (by simp) fun v hv => ?_
      by_cases hvw : v = w
      · rw [hvw]
        exact hown
      · exact h.owner v (by simpa [State.put, hvw] using hv)
    next => exact h
  | dropPipe w =>
    simp only [step]
    split
    next hph =>
      have hown : s.pipeWriter = some w := h.owner w (by rw [hph]; rfl)
      exact h.enter (by simp) (h.owner_release hown rfl)
    next => exact h
  | finishReply w =>
    simp only [step]
    split
    · exact h.enter (by simp) (h.owner_update rfl)
    · exact h
  | presenceProbe w =>
    simp only [step]
    split
    · exact h.enter (by simp) (h.owner_update rfl)
    · exact h
  | probeSend w =>
    simp only [step]
    split
    next hprobing => exact (h.put_control w (he hprobing)).enter (by simp) (h.owner_update rfl)
    next => exact h
  | armStreamPrologue w connector =>
    simp only [step]
    split
    · exact ⟨h.owner, h.begun, h.current, h.whole⟩
    · exact h
  | streamRing w connector => exact inv_sendPrologue h w connector he
  | streamConfig w connector => exact inv_sendPrologue h w connector he
  | beginFrame w n =>
    simp only [step]
    split
    next hph hpipe => exact h.beginFrame hpipe
    next => exact h
  | transfer w =>
    simp only [step]
    split
    next hph => exact h.put_frame hph
    next => exact h
  | endFrame w startup =>
    simp only [step]
    split
    next p sent left hph =>
      have hown : s.pipeWriter = some w := h.owner w (by rw [hph]; rfl)
      exact h.enter (by simp) (h.owner_release hown rfl)
    next => exact h

/-! ### Runs -/

/-- **No control write inside a frame.**  In every run of the writers in which a presence probe, a
ring descriptor and a decoder configuration are only written while no frame is part-way through,
none of a frame's transfers is cut off from the next by a control write. -/
theorem presentations_whole (es : List Event)
    (hclear : Along (fun s e => e.Clear s) step State.initial es) :
    Whole (run step State.initial es).wire :=
  (run_invariant (fun _ _ h he => inv_step h he) es State.initial inv_initial hclear).whole

/-- A frame of two transfers, with a ring that is not owed and a control message that waits for it
inside, and a probe behind it. -/
def probeBehindFrame : List Event :=
  [.beginFrame (.scanout 0) 2, .transfer (.scanout 0), .streamRing (.scanout 1) 1,
    .sendCp .command, .ownPipe .command, .transfer (.scanout 0), .endFrame (.scanout 0) none,
    .ownPipe .command, .ctrlSend .command, .dropPipe .command, .finishReply .command,
    .presenceProbe .keepalive, .probeSend .keepalive]

theorem presentations_whole_probeBehindFrame :
    (run step State.initial probeBehindFrame).wire =
        [.frame 0, .frame 0, .control .command, .control .keepalive] ∧
      Whole (run step State.initial probeBehindFrame).wire := by
  refine ⟨rfl, presentations_whole probeBehindFrame ?_⟩
  refine ⟨trivial, trivial, nofun, trivial, trivial, trivial, trivial, trivial, trivial, trivial,
    trivial, trivial, ?_, trivial⟩
  rintro - (c | _ | _)
  · fin_cases c <;> rfl
  · rfl
  · rfl

/-- Connector 0 presents a frame of two transfers; the scanout worker of connector 1 activates its
mode inline, and writes the ring descriptor between the two. -/
def ringDuringFrame : List Event :=
  [.armStreamPrologue (.scanout 1) 1, .beginFrame (.scanout 0) 2, .transfer (.scanout 0),
    .streamRing (.scanout 1) 1, .transfer (.scanout 0)]

theorem ring_inside_frame : ¬ Whole (run step State.initial ringDuringFrame).wire := by
  intro h
  exact h 0 1 2 0 (.scanout 1) (by omega) (by omega) rfl rfl rfl

end Vino.Kms.Pipe
