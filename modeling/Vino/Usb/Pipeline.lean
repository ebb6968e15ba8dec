import Vino.Lib.Chunks
import Vino.Lib.Run
import Vino.Stream

/-!
# Pipelined Writes to a Video Endpoint

The chunks of a frame are submitted to libusb from a window of transfer objects.  Whenever one of
them completes it is taken up for the next chunk, until something fails; then everything that is
still outstanding is cancelled and waited for.  A step of the machine is a turn of the calling
thread, whose calls may be accepted or not, or a completion that libusb reports, in any order and
with any outcome.

* `Ledger`, `Placed`: what the counters and the history say, and where the thread stands,
* `ledger_step`: both kinds of step keep them,
* `rank_lt`: every effective step brings the end nearer,
* `pipelineOut_allOrError`: what holds of every run, and that a call returns.
-/

namespace Vino.Usb

open Vino.Lib.Chunks Vino.Lib.Run Vino.Cp.Seal Vino.Stream

/-! ### The transfers of libusb -/

/-- How libusb says that a transfer ended. -/
inductive TransferStatus where
  | completed
  | error
  | timedOut
  | cancelled
  | stall
  | noDevice
  | overflow
  deriving DecidableEq, Repr

/-- The errors of a write. -/
inductive WriteError where
  | timeout
  | stall
  | disconnected
  | other
  | shortWrite (wrote wanted : ℕ)
  deriving DecidableEq, Repr

def statusToErr : TransferStatus → WriteError
  | .timedOut => .timeout
  | .stall => .stall
  | .noDevice => .disconnected
  | _ => .other

/-- A size as a C `int`. -/
def cInt (n : ℕ) : ℤ := (n : ℤ).bmod (2 ^ 32)

theorem cInt_eq {n : ℕ} (h : n < 2 ^ 31) : cInt n = n :=
  Int.bmod_eq_of_le (by omega) (by omega)

/-- What a submission fills in: the chunk the buffer points at, and the length. -/
structure Transfer where
  buffer : ℕ
  length : ℤ
  deriving DecidableEq, Repr

/-- An entry of the completion queue. -/
structure Completion where
  transfer : ℕ
  status : TransferStatus
  actual : ℤ
  deriving DecidableEq, Repr

/-! ### The state of a call -/

/-- Where the calling thread stands: at a transfer of the priming loop, in the loop that reaps, in
the loop behind the cancellation of every transfer, or behind the call. -/
inductive Phase where
  | prime (k : ℕ)
  | reap
  | drain
  | returned (result : Except WriteError ℕ)
  deriving DecidableEq, Repr

/-- What the call has done and observed. -/
inductive Note where
  | submitted (chunk : ℕ)
  | rejected (chunk : ℕ)
  | reaped (chunk : ℕ) (status : TransferStatus) (wrote : ℕ)
  | expired
  deriving DecidableEq, Repr

/-- A call under way.  `owned` are the transfers that libusb has, and `accepted` how many bytes of
which chunk the endpoint took, both outside of what the thread can see. -/
structure Pipe where
  phase : Phase
  transfers : ℕ → Transfer
  owned : List ℕ
  completions : List Completion
  accepted : List (ℕ × ℕ)
  next : ℕ
  submitted : ℕ
  reaped : ℕ
  total : ℕ
  err : Option WriteError
  history : List Note

/-- How many transfers are outstanding at most. -/
def pipelineDepth : ℕ := 8

section Machine

variable (chunks : List (List UInt8))

def depth : ℕ := min pipelineDepth chunks.length

/-- The length of a chunk. -/
def chunkLen (i : ℕ) : ℕ := (chunks.getD i []).length

/-- Fill in a transfer for the next chunk and submit it. -/
def Pipe.submit (s : Pipe) (t : ℕ) (accepted : Bool) : Pipe :=
  let transfer : Transfer := ⟨s.next, cInt (chunkLen chunks s.next)⟩
  if accepted then
    { s with transfers := Function.update s.transfers t transfer, owned := s.owned ++ [t],
             submitted := s.submitted + 1, next := s.next + 1,
             history := s.history ++ [.submitted s.next] }
  else
    { s with transfers := Function.update s.transfers t transfer, err := some .disconnected,
             history := s.history ++ [.rejected s.next] }

/-- Take the first completion off the queue. -/
def Pipe.pop (s : Pipe) (rest : List Completion) : Pipe :=
  { s with completions := rest, reaped := s.reaped + 1 }

/-- A failure is kept, unless there has been one. -/
def Pipe.fail (s : Pipe) (e : WriteError) : Pipe := { s with err := s.err.or (some e) }

/-- Look at a completion, and submit ahead. -/
def Pipe.reap (s : Pipe) (done : Completion) (accepted : Bool) : Pipe :=
  let t := s.transfers done.transfer
  let wrote := done.actual.toNat
  let wanted := t.length.toNat
  let note : Note := .reaped t.buffer done.status wrote
  let s := { s with history := s.history ++ [note] }
  if done.status ≠ .completed then s.fail (statusToErr done.status)
  else if wrote ≠ wanted then s.fail (.shortWrite wrote wanted)
  else
    let s := { s with total := s.total + wrote }
    if s.err = none ∧ s.next < chunks.length then s.submit chunks done.transfer accepted else s

/-- A turn of the calling thread: a submission is accepted or not, and the deadline has passed or
not. -/
def Pipe.turn (s : Pipe) (accepted late : Bool) : Pipe :=
  match s.phase with
  | .prime k =>
      if k < depth chunks ∧ s.next < chunks.length then
        { s.submit chunks k accepted with phase := if accepted then .prime (k + 1) else .reap }
      else { s with phase := .reap }
  | .reap =>
      if s.reaped < s.submitted then
        match s.completions with
        | [] =>
            if late then
              { s.fail .timeout with phase := .drain, history := s.history ++ [.expired] }
            else s
        | done :: rest => (s.pop rest).reap chunks done accepted
      else { s with phase := .drain }
  | .drain =>
      if s.reaped < s.submitted then
        match s.completions with
        | [] => s
        | _ :: rest => s.pop rest
      else
        { s with phase := .returned (match s.err with
                                     | some e => .error e
                                     | none => .ok s.total) }
  | .returned _ => s

/-- Libusb reports the end of a transfer it has. -/
def Pipe.deliver (s : Pipe) (c : Completion) : Pipe :=
  if c.transfer ∈ s.owned then
    { s with owned := s.owned.erase c.transfer, completions := s.completions ++ [c],
             accepted := s.accepted ++ [((s.transfers c.transfer).buffer, c.actual.toNat)] }
  else s

/-- What happens next. -/
inductive Event where
  | turn (accepted late : Bool)
  | complete (c : Completion)

def Pipe.step (s : Pipe) : Event → Pipe
  | .turn accepted late => s.turn chunks accepted late
  | .complete c => s.deliver c

/-- A call of `pipeline_out`, without chunks at its end already. -/
def pipelineOut : Pipe where
  phase := if chunks = [] then .returned (.ok 0) else .prime 0
  transfers := fun _ => ⟨0, 0⟩
  owned := []
  completions := []
  accepted := []
  next := 0
  submitted := 0
  reaped := 0
  total := 0
  err := none
  history := []

/-! ### What a run owes -/

/-- The chunk a submission was attempted of. -/
def Note.attempt : Note → Option ℕ
  | .submitted chunk | .rejected chunk => some chunk
  | _ => none

/-- What a completed transfer wrote of a chunk. -/
def Note.taken : Note → Option (ℕ × ℕ)
  | .reaped chunk _ wrote => some (chunk, wrote)
  | _ => none

/-- A failure is observed. -/
def Note.Fails : Note → Prop
  | .submitted _ => False
  | .rejected _ | .expired => True
  | .reaped chunk status wrote => status ≠ .completed ∨ wrote ≠ chunkLen chunks chunk

/-- **All or an error, and in order.**  Submissions are attempted in the order of the chunks and
once each, and none behind a failure; no more transfers are outstanding than the window has, and
none twice; success is returned only if every chunk completed in full, with the total; and nothing
is outstanding behind the call. -/
structure AllOrError (s : Pipe) : Prop where
  ordered : s.history.filterMap Note.attempt =
    List.range (s.history.filterMap Note.attempt).length
  window : s.owned.length ≤ pipelineDepth
  distinct : s.owned.Nodup
  full : ∀ n, s.phase = .returned (.ok n) →
    (∀ i (h : i < chunks.length), .reaped i .completed chunks[i].length ∈ s.history) ∧
      n = (chunks.map List.length).sum
  stops : s.history.Pairwise fun a b => a.Fails chunks → b.attempt = none
  drained : ∀ result, s.phase = .returned result → s.owned = []

/-! ### The ledger -/

/-- The transfers that are submitted and not reaped. -/
def Pipe.live (s : Pipe) : List ℕ := s.completions.map (·.transfer) ++ s.owned

/-- As long as nothing has failed: the submitted chunks are the reaped ones and those of the
transfers that are not reaped, and the total is what was reaped. -/
structure Clean (s : Pipe) : Prop where
  filled : ∀ t ∈ s.live,
    (s.transfers t).length = cInt (chunkLen chunks (s.transfers t).buffer)
  perm : ((s.history.filterMap Note.taken).map Prod.fst ++
    s.live.map fun t => (s.transfers t).buffer).Perm (List.range s.next)
  total : s.total = ((s.history.filterMap Note.taken).map Prod.snd).sum
  accepted : s.accepted = s.history.filterMap Note.taken ++
    s.completions.map fun c => ((s.transfers c.transfer).buffer, c.actual.toNat)

/-- What the counters and the history say, wherever the thread stands. -/
structure Ledger (s : Pipe) : Prop where
  submitted : s.submitted = s.next
  next_le : s.next ≤ chunks.length
  sum : s.next = s.reaped + s.live.length
  nodup : s.live.Nodup
  lt : ∀ t ∈ s.live, t < depth chunks
  attempts : s.history.filterMap Note.attempt = List.range s.next ∨
    s.err ≠ none ∧ s.history.filterMap Note.attempt = List.range (s.next + 1)
  stops : s.history.Pairwise fun a b => a.Fails chunks → b.attempt = none
  failed : ∀ a ∈ s.history, a.Fails chunks → s.err ≠ none
  clean : s.err = none → Clean chunks s

variable {chunks} {s : Pipe}

theorem chunkLen_lt (hfit : ∀ chunk ∈ chunks, chunk.length < 2 ^ 31) (i : ℕ) :
    chunkLen chunks i < 2 ^ 31 := by
  unfold chunkLen
  by_cases hi : i < chunks.length
  · rw [List.getD_eq_getElem _ _ hi]
    exact hfit _ (List.getElem_mem hi)
  · rw [List.getD_eq_default _ _ (by omega)]
    norm_num

/-- A note that attempts nothing goes behind any history. -/
theorem Ledger.stops_append (h : Ledger chunks s) {a : Note}
    (ha : a.attempt = none ∨ s.err = none) :
    (s.history ++ [a]).Pairwise fun a b => a.Fails chunks → b.attempt = none := by
  refine List.pairwise_append.2 ⟨h.stops, List.pairwise_singleton _ _, ?_⟩
  intro b hb a' ha' hfails
  rw [List.mem_singleton.1 ha']
  exact ha.elim id fun herr => absurd herr (h.failed b hb hfails)

theorem ledger_rejected (h : Ledger chunks s) (herr : s.err = none) (t : ℕ) :
    Ledger chunks (s.submit chunks t false) where
  submitted := h.submitted
  next_le := h.next_le
  sum := h.sum
  nodup := h.nodup
  lt := h.lt
  attempts := by
    refine Or.inr ⟨nofun, ?_⟩
    obtain hold | ⟨hsome, -⟩ := h.attempts
    · show (s.history ++ [Note.rejected s.next]).filterMap Note.attempt = _
      rw [List.filterMap_append, hold, List.range_succ]
      rfl
    · exact absurd herr hsome
  stops := h.stops_append (Or.inr herr)
  failed := fun _ _ _ => nofun
  clean := nofun

theorem ledger_accepted (h : Ledger chunks s) (herr : s.err = none)
    (hnext : s.next < chunks.length) {t : ℕ} (ht : t ∉ s.live) (hdepth : t < depth chunks) :
    Ledger chunks (s.submit chunks t true) := by
  have hlive : (s.submit chunks t true).live = s.live ++ [t] :=
    (List.append_assoc _ _ _).symm
  have hother {u : ℕ} (hu : u ∈ s.live) :
      (s.submit chunks t true).transfers u = s.transfers u :=
    Function.update_of_ne (by rintro rfl; exact ht hu) _ _
  have hself : (s.submit chunks t true).transfers t = ⟨s.next, cInt (chunkLen chunks s.next)⟩ :=
    Function.update_self _ _ _
  have htaken : (s.submit chunks t true).history.filterMap Note.taken =
      s.history.filterMap Note.taken := by
    show (s.history ++ [Note.submitted s.next]).filterMap Note.taken = _
    rw [List.filterMap_append]
    exact List.append_nil _
  refine
    { submitted := congrArg (· + 1) h.submitted
      next_le := hnext
      sum := ?_
      nodup := ?_
      lt := ?_
      attempts := Or.inl ?_
      stops := h.stops_append (Or.inr herr)
      failed := ?_
      clean := fun _ => { filled := ?_, perm := ?_, total := ?_, accepted := ?_ } }
  · rw [hlive, List.length_append, ← Nat.add_assoc, List.length_singleton]
    exact congrArg (· + 1) h.sum
  · rw [hlive]
    exact List.nodup_append.2 ⟨h.nodup, List.nodup_singleton t, fun a ha b hb he =>
      ht (by rw [← List.mem_singleton.1 hb, ← he]; exact ha)⟩
  · rw [hlive]
    intro u hu
    rcases List.mem_append.1 hu with hu | hu
    · exact h.lt u hu
    · rw [List.mem_singleton.1 hu]
      exact hdepth
  · obtain hold | ⟨hsome, -⟩ := h.attempts
    · show (s.history ++ [Note.submitted s.next]).filterMap Note.attempt = _
      rw [List.filterMap_append, hold]
      exact List.range_succ.symm
    · exact absurd herr hsome
  · intro a ha hfails
    rcases List.mem_append.1 ha with ha | ha
    · exact h.failed a ha hfails
    · rw [List.mem_singleton.1 ha] at hfails
      exact hfails.elim
  · rw [hlive]
    intro u hu
    rcases List.mem_append.1 hu with hu | hu
    · rw [hother hu]
      exact (h.clean herr).filled u hu
    · rw [List.mem_singleton.1 hu, hself]
  · have hold : s.live.map (fun u => ((s.submit chunks t true).transfers u).buffer) =
        s.live.map fun u => (s.transfers u).buffer :=
      List.map_congr_left fun u hu => by rw [hother hu]
    rw [htaken, hlive, List.map_append, hold, ← List.append_assoc, List.map_singleton, hself]
    show (_ ++ [s.next]).Perm (List.range (s.next + 1))
    rw [List.range_succ]
    exact (h.clean herr).perm.append_right _
  · rw [htaken]
    exact (h.clean herr).total
  · rw [htaken]
    refine (h.clean herr).accepted.trans (congrArg _ (List.map_congr_left fun c hc => ?_))
    rw [hother (List.mem_append_left _ (List.mem_map_of_mem hc))]

/-- A completion is taken off the queue and noted; what is clean behind it was clean before, and
the completion was in full. -/
theorem ledger_noted (hfit : ∀ chunk ∈ chunks, chunk.length < 2 ^ 31) (h : Ledger chunks s)
    {done : Completion} {rest : List Completion} (hqueue : s.completions = done :: rest)
    {err : Option WriteError} {total : ℕ} (hkept : s.err ≠ none → err ≠ none)
    (hclean : err = none → done.status = .completed ∧
      done.actual.toNat = (s.transfers done.transfer).length.toNat ∧
      total = s.total + done.actual.toNat) :
    Ledger chunks { s.pop rest with
      history := s.history ++ [.reaped (s.transfers done.transfer).buffer done.status
        done.actual.toNat], err := err, total := total } := by
  have hlive : s.live = done.transfer :: (rest.map (·.transfer) ++ s.owned) := by
    rw [Pipe.live, hqueue]
    rfl
  have hnodup := h.nodup
  rw [hlive, List.nodup_cons] at hnodup
  refine
    { submitted := h.submitted
      next_le := h.next_le
      sum := ?_
      nodup := hnodup.2
      lt := fun t ht => h.lt t (hlive ▸ List.mem_cons_of_mem _ ht)
      attempts := ?_
      stops := h.stops_append (Or.inl rfl)
      failed := ?_
      clean := fun herr => ?_ }
  · have hsum := h.sum
    rw [hlive, List.length_cons] at hsum
    show s.next = s.reaped + 1 + (rest.map (·.transfer) ++ s.owned).length
    omega
  · simp only [List.filterMap_append, List.filterMap_cons, List.filterMap_nil, Note.attempt,
      List.append_nil]
    exact h.attempts.imp id fun hattempts => ⟨hkept hattempts.1, hattempts.2⟩
  · intro a ha hfails
    rcases List.mem_append.1 ha with ha | ha
    · exact hkept (h.failed a ha hfails)
    · -- A clean completion is of the length its transfer was filled in with.
      intro herr
      have hsome : s.err = none := by_contra fun hne => hkept hne herr
      obtain ⟨hstatus, hwrote, -⟩ := hclean herr
      have hfilled := (h.clean hsome).filled done.transfer (hlive ▸ List.mem_cons_self)
      rw [List.mem_singleton.1 ha] at hfails
      refine hfails.elim (fun hne => hne hstatus) fun hne => hne ?_
      rw [hwrote, hfilled, cInt_eq (chunkLen_lt hfit _), Int.toNat_natCast]
  · have hsome : s.err = none := by_contra fun hne => hkept hne herr
    obtain ⟨-, -, htotal⟩ := hclean herr
    obtain ⟨hfilled, hperm, hold, haccepted⟩ := h.clean hsome
    rw [hlive] at hperm
    refine
      { filled := fun t ht => hfilled t (hlive ▸ List.mem_cons_of_mem _ ht)
        perm := ?_
        total := ?_
        accepted := ?_ }
    · simp only [List.filterMap_append, List.filterMap_cons, List.filterMap_nil, Note.taken,
        List.map_append, List.map_singleton, List.append_assoc, List.singleton_append]
      exact hperm
    · simp only [List.filterMap_append, List.filterMap_cons, List.filterMap_nil, Note.taken,
        List.map_append, List.map_singleton, List.sum_append, List.sum_singleton]
      rw [htotal, hold]
    · simp only [List.filterMap_append, List.filterMap_cons, List.filterMap_nil, Note.taken,
        List.append_assoc, List.singleton_append]
      rw [hqueue] at haccepted
      exact haccepted

/-- A completion moves a transfer from libusb to the queue. -/
theorem ledger_deliver (h : Ledger chunks s) (c : Completion) : Ledger chunks (s.deliver c) := by
  unfold Pipe.deliver
  split_ifs with howned
  · have hperm : ((s.completions ++ [c]).map (·.transfer) ++ s.owned.erase c.transfer).Perm
        s.live := by
      rw [List.map_append, List.append_assoc]
      exact (List.perm_cons_erase howned).symm.append_left _
    refine
      { submitted := h.submitted
        next_le := h.next_le
        sum := ?_
        nodup := hperm.nodup_iff.2 h.nodup
        lt := fun t ht => h.lt t (hperm.mem_iff.1 ht)
        attempts := h.attempts
        stops := h.stops
        failed := h.failed
        clean := fun herr => ?_ }
    · show s.next = s.reaped + ((s.completions ++ [c]).map (·.transfer) ++ _).length
      rw [hperm.length_eq]
      exact h.sum
    · obtain ⟨hfilled, hclean, htotal, haccepted⟩ := h.clean herr
      refine
        { filled := fun t ht => hfilled t (hperm.mem_iff.1 ht)
          perm := ((hperm.map _).append_left _).trans hclean
          total := htotal
          accepted := ?_ }
      show s.accepted ++ [_] = _
      rw [haccepted, List.append_assoc, List.map_append]
      rfl
  · exact h

theorem ledger_reap (hfit : ∀ chunk ∈ chunks, chunk.length < 2 ^ 31) (h : Ledger chunks s)
    {done : Completion} {rest : List Completion} (hqueue : s.completions = done :: rest)
    (accepted : Bool) : Ledger chunks ((s.pop rest).reap chunks done accepted) := by
  have hfailed (e : WriteError) : s.err.or (some e) ≠ none := by
    cases s.err <;> simp
  unfold Pipe.reap
  dsimp only
  split_ifs with hstatus hwrote hahead
  · exact ledger_noted hfit h hqueue (fun _ => hfailed _) fun herr => absurd herr (hfailed _)
  · exact ledger_noted hfit h hqueue (fun _ => hfailed _) fun herr => absurd herr (hfailed _)
  · have hnoted := ledger_noted hfit h hqueue (fun herr : s.err ≠ none => herr) fun _ =>
      ⟨not_not.1 hstatus, not_not.1 hwrote, rfl⟩
    have hlive : s.live = done.transfer :: (rest.map (·.transfer) ++ s.owned) := by
      rw [Pipe.live, hqueue]
      rfl
    have hnodup := h.nodup
    rw [hlive, List.nodup_cons] at hnodup
    cases accepted with
    | false => exact ledger_rejected hnoted hahead.1 _
    | true =>
      exact ledger_accepted hnoted hahead.1 hahead.2 hnodup.1
        (h.lt _ (hlive ▸ List.mem_cons_self))
  · exact ledger_noted hfit h hqueue (fun herr : s.err ≠ none => herr) fun _ =>
      ⟨not_not.1 hstatus, not_not.1 hwrote, rfl⟩

/-- A phase is not in the ledger. -/
theorem Ledger.at_phase (h : Ledger chunks s) (phase : Phase) :
    Ledger chunks { s with phase := phase } :=
  ⟨h.submitted, h.next_le, h.sum, h.nodup, h.lt, h.attempts, h.stops, h.failed,
    fun herr => ⟨(h.clean herr).filled, (h.clean herr).perm, (h.clean herr).total,
      (h.clean herr).accepted⟩⟩

/-- Once something has failed, nothing is clean any more. -/
theorem ledger_drained (h : Ledger chunks s) (herr : s.err ≠ none) {done : Completion}
    {rest : List Completion} (hqueue : s.completions = done :: rest) :
    Ledger chunks (s.pop rest) := by
  have hlive : s.live = done.transfer :: (s.pop rest).live := by
    rw [Pipe.live, hqueue]
    rfl
  have hsum := h.sum
  rw [hlive, List.length_cons] at hsum
  refine ⟨h.submitted, h.next_le, ?_, ?_, fun t ht => h.lt t (hlive ▸ List.mem_cons_of_mem _ ht),
    h.attempts, h.stops, h.failed, fun hnone => absurd hnone herr⟩
  · show s.next = s.reaped + 1 + _
    omega
  · have hnodup := h.nodup
    rw [hlive] at hnodup
    exact hnodup.of_cons

theorem ledger_expired (h : Ledger chunks s) :
    Ledger chunks { s.fail .timeout with history := s.history ++ [.expired] } := by
  have herr : s.err.or (some WriteError.timeout) ≠ none := by cases s.err <;> simp
  refine ⟨h.submitted, h.next_le, h.sum, h.nodup, h.lt, ?_, h.stops_append (Or.inl rfl),
    fun _ _ _ => herr, fun hnone => absurd hnone herr⟩
  simp only [List.filterMap_append, List.filterMap_cons, List.filterMap_nil, Note.attempt,
    List.append_nil]
  exact h.attempts.imp id fun hattempts => ⟨herr, hattempts.2⟩

/-! ### Where the thread stands -/

/-- What a phase says of the window. -/
def Placed (chunks : List (List UInt8)) (s : Pipe) : Prop :=
  match s.phase with
  | .prime k =>
      k ≤ depth chunks ∧ s.next = k ∧ s.reaped = 0 ∧ s.err = none ∧ ∀ t ∈ s.live, t < k
  | .reap => s.err = none → s.next = chunks.length ∨ s.live.length = depth chunks
  | .drain => s.err = none → s.next = chunks.length ∧ s.reaped = s.next
  | .returned result => s.reaped = s.next ∧
      ∀ n, result = .ok n → s.err = none ∧ s.next = chunks.length ∧ n = s.total

/-- As long as nothing has failed, the window is full or the chunks are all submitted. -/
theorem window_reap (h : Ledger chunks s) {done : Completion} {rest : List Completion}
    (hqueue : s.completions = done :: rest)
    (hwindow : s.err = none → s.next = chunks.length ∨ s.live.length = depth chunks)
    (accepted : Bool) (herr : ((s.pop rest).reap chunks done accepted).err = none) :
    ((s.pop rest).reap chunks done accepted).next = chunks.length ∨
      ((s.pop rest).reap chunks done accepted).live.length = depth chunks := by
  have hfailed (e : WriteError) : s.err.or (some e) ≠ none := by
    cases s.err <;> simp
  revert herr
  unfold Pipe.reap
  dsimp only
  split_ifs with hstatus hwrote hahead
  · exact fun herr => absurd herr (hfailed _)
  · exact fun herr => absurd herr (hfailed _)
  · cases accepted with
    | false => exact nofun
    | true =>
      intro _
      have hlive : s.live.length = (rest.map (·.transfer) ++ s.owned).length + 1 := by
        rw [Pipe.live, hqueue]
        rfl
      have hnext : s.next < chunks.length := hahead.2
      refine Or.inr ?_
      show (rest.map (·.transfer) ++ (s.owned ++ [done.transfer])).length = depth chunks
      rw [← List.append_assoc, List.length_append, List.length_singleton, ← hlive]
      exact (hwindow hahead.1).resolve_left hnext.ne
  · intro herr
    have hnext : ¬ s.next < chunks.length := fun hlt => hahead ⟨herr, hlt⟩
    exact Or.inl (le_antisymm h.next_le (not_lt.1 hnext))

theorem phase_reap (s : Pipe) (done : Completion) (accepted : Bool) :
    (s.reap chunks done accepted).phase = s.phase := by
  unfold Pipe.reap
  dsimp only
  split_ifs
  · rfl
  · rfl
  · cases accepted <;> rfl
  · rfl

theorem deliver_live (s : Pipe) (c : Completion) : (s.deliver c).live.Perm s.live := by
  unfold Pipe.deliver
  split_ifs with howned
  · show ((s.completions ++ [c]).map (·.transfer) ++ s.owned.erase c.transfer).Perm s.live
    rw [List.map_append, List.append_assoc]
    exact (List.perm_cons_erase howned).symm.append_left _
  · exact List.Perm.refl _

theorem placed_deliver (h : Placed chunks s) (c : Completion) : Placed chunks (s.deliver c) := by
  have hlive := deliver_live s c
  revert hlive
  unfold Pipe.deliver
  split_ifs with howned
  · intro hlive
    unfold Placed at h ⊢
    dsimp only at h ⊢
    cases hphase : s.phase with
    | prime k =>
      rw [hphase] at h
      exact ⟨h.1, h.2.1, h.2.2.1, h.2.2.2.1, fun t ht => h.2.2.2.2 t (hlive.mem_iff.1 ht)⟩
    | reap =>
      rw [hphase] at h
      exact fun herr => (h herr).imp id fun hlen => hlive.length_eq.trans hlen
    | drain =>
      rw [hphase] at h
      exact h
    | returned result =>
      rw [hphase] at h
      exact h
  · exact fun _ => h

/-- A turn of the priming loop. -/
theorem turn_prime (h : Ledger chunks s) {k : ℕ} (hphase : s.phase = .prime k)
    (hp : Placed chunks s) (accepted late : Bool) :
    Ledger chunks (s.turn chunks accepted late) ∧ Placed chunks (s.turn chunks accepted late) := by
  unfold Placed at hp
  unfold Pipe.turn
  rw [hphase] at hp ⊢
  obtain ⟨hk, hnext, hreaped, herr, hlive⟩ := hp
  dsimp only
  split_ifs with hmore haccepted
  · subst haccepted
    have hfresh : k ∉ s.live := fun hmem => (hlive k hmem).ne rfl
    refine ⟨(ledger_accepted h herr hmore.2 hfresh hmore.1).at_phase _, ?_⟩
    refine ⟨hmore.1, congrArg (· + 1) hnext, hreaped, herr, fun t ht => ?_⟩
    rcases List.mem_append.1 ht with ht | ht
    · exact (hlive t (List.mem_append_left _ ht)).trans (Nat.lt_succ_self k)
    · rcases List.mem_append.1 ht with ht | ht
      · exact (hlive t (List.mem_append_right _ ht)).trans (Nat.lt_succ_self k)
      · rw [List.mem_singleton.1 ht]
        exact Nat.lt_succ_self k
  · rw [Bool.not_eq_true] at haccepted
    subst haccepted
    exact ⟨(ledger_rejected h herr _).at_phase _, nofun⟩
  · refine ⟨h.at_phase _, fun _ => ?_⟩
    have hsum := h.sum
    by_cases hall : s.next < chunks.length
    · right
      have hdepth : ¬ k < depth chunks := fun hlt => hmore ⟨hlt, hall⟩
      show s.live.length = depth chunks
      omega
    · exact Or.inl (le_antisymm h.next_le (not_lt.1 hall))

/-- A turn of the loop that reaps. -/
theorem turn_reap (hfit : ∀ chunk ∈ chunks, chunk.length < 2 ^ 31) (h : Ledger chunks s)
    (hphase : s.phase = .reap) (hp : Placed chunks s) (accepted late : Bool) :
    Ledger chunks (s.turn chunks accepted late) ∧ Placed chunks (s.turn chunks accepted late) := by
  have hp' := hp
  unfold Placed at hp
  unfold Pipe.turn
  rw [hphase] at hp ⊢
  dsimp only
  by_cases hmore : s.reaped < s.submitted
  · rw [if_pos hmore]
    cases hqueue : s.completions with
    | nil =>
      dsimp only
      cases late with
      | false => exact ⟨h, hp'⟩
      | true =>
        refine ⟨(ledger_expired h).at_phase _, fun herr => absurd herr ?_⟩
        show s.err.or _ ≠ none
        cases s.err <;> simp
    | cons done rest =>
      refine ⟨ledger_reap hfit h hqueue accepted, ?_⟩
      unfold Placed
      rw [phase_reap, show (s.pop rest).phase = .reap from hphase]
      exact window_reap h hqueue hp accepted
  · rw [if_neg hmore]
    refine ⟨h.at_phase _, fun herr => ?_⟩
    have hsum := h.sum
    have hsubmitted := h.submitted
    have hnext := h.next_le
    have hdone : s.reaped = s.next := by omega
    refine ⟨?_, hdone⟩
    rcases hp herr with hall | hfull
    · exact hall
    · have hdepth : depth chunks = 0 := by omega
      have hempty : chunks.length = 0 := by
        unfold depth pipelineDepth at hdepth
        omega
      show s.next = chunks.length
      omega

/-- A turn behind the cancellation. -/
theorem turn_drain (h : Ledger chunks s) (hphase : s.phase = .drain) (hp : Placed chunks s)
    (accepted late : Bool) :
    Ledger chunks (s.turn chunks accepted late) ∧ Placed chunks (s.turn chunks accepted late) := by
  have hp' := hp
  unfold Placed at hp
  unfold Pipe.turn
  rw [hphase] at hp ⊢
  dsimp only
  have hsubmitted := h.submitted
  split_ifs with hmore
  · have herr : s.err ≠ none := fun hnone => by
      have hdone := (hp hnone).2
      omega
    cases hqueue : s.completions with
    | nil => exact ⟨h, hp'⟩
    | cons done rest =>
      refine ⟨ledger_drained h herr hqueue, ?_⟩
      unfold Placed
      rw [show (s.pop rest).phase = .drain from hphase]
      exact fun hnone => absurd hnone herr
  · have hsum := h.sum
    refine ⟨h.at_phase _, ⟨show s.reaped = s.next by omega, fun n hn => ?_⟩⟩
    show s.err = none ∧ s.next = chunks.length ∧ n = s.total
    cases herr : s.err with
    | some e =>
      rw [herr] at hn
      cases hn
    | none =>
      rw [herr] at hn
      exact ⟨rfl, (hp herr).1, (Except.ok.inj hn).symm⟩

/-- **Every step keeps the ledger**, and what its phase says of the window. -/
theorem ledger_step (hfit : ∀ chunk ∈ chunks, chunk.length < 2 ^ 31)
    (h : Ledger chunks s ∧ Placed chunks s) (event : Event) :
    Ledger chunks (s.step chunks event) ∧ Placed chunks (s.step chunks event) := by
  cases event with
  | complete c => exact ⟨ledger_deliver h.1 c, placed_deliver h.2 c⟩
  | turn accepted late =>
    show Ledger chunks (s.turn chunks accepted late) ∧ Placed chunks (s.turn chunks accepted late)
    cases hphase : s.phase with
    | prime k => exact turn_prime h.1 hphase h.2 accepted late
    | reap => exact turn_reap hfit h.1 hphase h.2 accepted late
    | drain => exact turn_drain h.1 hphase h.2 accepted late
    | returned result =>
      rw [Pipe.turn, hphase]
      exact h

theorem ledger_start (chunks : List (List UInt8)) :
    Ledger chunks (pipelineOut chunks) ∧ Placed chunks (pipelineOut chunks) := by
  constructor
  · exact ⟨rfl, Nat.zero_le _, rfl, List.nodup_nil, nofun, Or.inl rfl, List.Pairwise.nil, nofun,
      fun _ => ⟨nofun, List.Perm.refl _, rfl, rfl⟩⟩
  · unfold Placed pipelineOut
    dsimp only
    by_cases hempty : chunks = []
    · rw [if_pos hempty]
      refine ⟨rfl, fun n hn => ⟨rfl, by rw [hempty]; rfl, (Except.ok.inj hn).symm⟩⟩
    · rw [if_neg hempty]
      exact ⟨Nat.zero_le _, rfl, rfl, rfl, nofun⟩

/-- **The ledger of a run.** -/
theorem ledger_run (hfit : ∀ chunk ∈ chunks, chunk.length < 2 ^ 31) (events : List Event) :
    Ledger chunks (run (Pipe.step chunks) (pipelineOut chunks) events) ∧
      Placed chunks (run (Pipe.step chunks) (pipelineOut chunks) events) :=
  run_invariant (C := fun _ _ => True) (P := fun s => Ledger chunks s ∧ Placed chunks s)
    (fun _ event h _ => ledger_step hfit h event) events _ (ledger_start chunks)
    (along_of_forall _ _ fun _ _ => trivial)

/-! ### Behind the call -/

/-- Behind the call everything that was submitted is reaped. -/
theorem live_returned (h : Ledger chunks s) (hp : Placed chunks s)
    {result : Except WriteError ℕ} (hphase : s.phase = .returned result) : s.live = [] := by
  unfold Placed at hp
  rw [hphase] at hp
  have hsum := h.sum
  have hreaped := hp.1
  exact List.length_eq_zero_iff.1 (by omega)

/-- What was reaped of which chunk, as long as nothing has failed. -/
theorem taken_full (h : Ledger chunks s) (herr : s.err = none) {i wrote : ℕ}
    (hmem : (i, wrote) ∈ s.history.filterMap Note.taken) :
    wrote = chunkLen chunks i ∧ .reaped i .completed wrote ∈ s.history := by
  obtain ⟨note, hnote, htaken⟩ := List.mem_filterMap.1 hmem
  cases note with
  | reaped chunk status wrote' =>
    obtain ⟨rfl, rfl⟩ := Prod.mk.inj (Option.some.inj htaken)
    have hfull : ¬ (Note.reaped chunk status wrote').Fails chunks :=
      fun hfails => h.failed _ hnote hfails herr
    obtain ⟨hstatus, hwrote⟩ := not_or.1 hfull
    exact ⟨not_not.1 hwrote, not_not.1 hstatus ▸ hnote⟩
  | submitted chunk => cases htaken
  | rejected chunk => cases htaken
  | expired => cases htaken

/-- Success: each chunk was reaped once, and in full. -/
theorem taken_perm (h : Ledger chunks s) (hp : Placed chunks s) {n : ℕ}
    (hphase : s.phase = .returned (.ok n)) :
    (s.history.filterMap Note.taken).Perm
      ((List.range chunks.length).map fun i => (i, chunkLen chunks i)) := by
  have hlive := live_returned h hp hphase
  unfold Placed at hp
  rw [hphase] at hp
  obtain ⟨herr, hnext, -⟩ := hp.2 n rfl
  have hperm := (h.clean herr).perm
  rw [hlive, List.map_nil, List.append_nil, hnext] at hperm
  refine List.Perm.trans (List.Perm.of_eq ?_) (hperm.map fun i => (i, chunkLen chunks i))
  rw [List.map_map]
  refine ((List.map_congr_left fun pair hpair => ?_).trans (List.map_id _)).symm
  exact Prod.ext rfl (taken_full h herr hpair).1.symm

theorem sum_chunkLen (chunks : List (List UInt8)) :
    ((List.range chunks.length).map (chunkLen chunks)).sum = (chunks.map List.length).sum := by
  refine congrArg List.sum (List.ext_getElem (by simp) fun i hi hi' => ?_)
  rw [List.length_map, List.length_range] at hi
  simp [chunkLen, hi]

theorem Ledger.allOrError (h : Ledger chunks s) (hp : Placed chunks s) : AllOrError chunks s where
  ordered := by
    obtain hall | ⟨-, hall⟩ := h.attempts
    · rw [hall, List.length_range]
    · rw [hall, List.length_range]
  window := by
    have hsub : s.live.length ≤ (List.range (depth chunks)).length :=
      (h.nodup.subperm fun t ht => List.mem_range.2 (h.lt t ht)).length_le
    rw [List.length_range] at hsub
    calc s.owned.length ≤ s.live.length := by rw [Pipe.live, List.length_append]; omega
      _ ≤ depth chunks := hsub
      _ ≤ pipelineDepth := Nat.min_le_left _ _
  distinct := (List.nodup_append.1 h.nodup).2.1
  full := by
    intro n hphase
    have hperm := taken_perm h hp hphase
    unfold Placed at hp
    rw [hphase] at hp
    obtain ⟨herr, -, htotal⟩ := hp.2 n rfl
    constructor
    · intro i hi
      have hmem : (i, chunkLen chunks i) ∈ s.history.filterMap Note.taken :=
        hperm.mem_iff.2 (List.mem_map.2 ⟨i, List.mem_range.2 hi, rfl⟩)
      have hnote := (taken_full h herr hmem).2
      rwa [chunkLen, List.getD_eq_getElem _ _ hi] at hnote
    · have hsum := (hperm.map Prod.snd).sum_eq
      rw [List.map_map] at hsum
      rw [htotal, (h.clean herr).total, hsum]
      exact sum_chunkLen chunks
  stops := h.stops
  drained := fun result hphase => (List.append_eq_nil_iff.1 (live_returned h hp hphase)).2

/-! ### The end of a call -/

/-- How far a phase is from the end. -/
def Phase.rank (chunks : List (List UInt8)) : Phase → ℕ
  | .prime k => depth chunks - k + 3
  | .reap => 2
  | .drain => 1
  | .returned _ => 0

/-- How far a call is from its end. -/
def Pipe.rank (chunks : List (List UInt8)) (s : Pipe) : ℕ :=
  s.phase.rank chunks + 3 * (chunks.length - s.next) + 2 * s.owned.length + s.completions.length

theorem rank_reap {done : Completion} {rest : List Completion}
    (hqueue : s.completions = done :: rest) (accepted : Bool) :
    ((s.pop rest).reap chunks done accepted).rank chunks < s.rank chunks := by
  have hlength : s.completions.length = rest.length + 1 := by rw [hqueue, List.length_cons]
  have hpop : (s.pop rest).rank chunks < s.rank chunks := by
    show s.phase.rank chunks + 3 * (chunks.length - s.next) + 2 * s.owned.length + rest.length < _
    unfold Pipe.rank
    omega
  unfold Pipe.reap
  dsimp only
  split_ifs with hstatus hwrote hahead
  · exact hpop
  · exact hpop
  · cases accepted with
    | false => exact hpop
    | true =>
      have hnext : s.next < chunks.length := hahead.2
      show s.phase.rank chunks + 3 * (chunks.length - (s.next + 1)) +
        2 * (s.owned ++ [done.transfer]).length + rest.length < _
      unfold Pipe.rank
      rw [List.length_append, List.length_singleton]
      omega
  · exact hpop

/-- A turn of a call that has something to do. -/
theorem rank_turn {accepted late : Bool}
    (hgo : (∃ k, s.phase = .prime k) ∨ s.phase = .reap ∧ late = true ∨
      (s.phase = .reap ∨ s.phase = .drain) ∧ (s.completions ≠ [] ∨ ¬ s.reaped < s.submitted)) :
    (s.turn chunks accepted late).rank chunks < s.rank chunks := by
  unfold Pipe.turn
  cases hphase : s.phase with
  | prime k =>
    dsimp only
    split_ifs with hmore haccepted
    · subst haccepted
      show depth chunks - (k + 1) + 3 + 3 * (chunks.length - (s.next + 1)) +
        2 * (s.owned ++ [k]).length + s.completions.length < _
      unfold Pipe.rank
      rw [hphase, List.length_append, List.length_singleton, Phase.rank]
      omega
    · rw [Bool.not_eq_true] at haccepted
      subst haccepted
      show 2 + 3 * (chunks.length - s.next) + 2 * s.owned.length + s.completions.length < _
      unfold Pipe.rank
      rw [hphase, Phase.rank]
      omega
    · show 2 + 3 * (chunks.length - s.next) + 2 * s.owned.length + s.completions.length < _
      unfold Pipe.rank
      rw [hphase, Phase.rank]
      omega
  | reap =>
    have hdrain : 1 + 3 * (chunks.length - s.next) + 2 * s.owned.length + s.completions.length <
        s.rank chunks := by
      unfold Pipe.rank
      rw [hphase, Phase.rank]
      omega
    dsimp only
    by_cases hmore : s.reaped < s.submitted
    · rw [if_pos hmore]
      cases hqueue : s.completions with
      | nil =>
        have hlate : late = true := by
          rcases hgo with ⟨k, hk⟩ | ⟨-, hlate⟩ | ⟨-, hne | hdone⟩
          · rw [hphase] at hk
            cases hk
          · exact hlate
          · exact absurd hqueue hne
          · exact absurd hmore hdone
        rw [hlate]
        exact hdrain
      | cons done rest => exact rank_reap hqueue accepted
    · rw [if_neg hmore]
      exact hdrain
  | drain =>
    dsimp only
    by_cases hmore : s.reaped < s.submitted
    · rw [if_pos hmore]
      cases hqueue : s.completions with
      | nil =>
        rcases hgo with ⟨k, hk⟩ | ⟨hreap, -⟩ | ⟨-, hne | hdone⟩
        · rw [hphase] at hk
          cases hk
        · rw [hphase] at hreap
          cases hreap
        · exact absurd hqueue hne
        · exact absurd hmore hdone
      | cons done rest =>
        show s.phase.rank chunks + 3 * (chunks.length - s.next) + 2 * s.owned.length +
          rest.length < _
        unfold Pipe.rank
        rw [hqueue, List.length_cons]
        omega
    · rw [if_neg hmore]
      show 0 + 3 * (chunks.length - s.next) + 2 * s.owned.length + s.completions.length < _
      unfold Pipe.rank
      rw [hphase, Phase.rank]
      omega
  | returned result =>
    rcases hgo with ⟨k, hk⟩ | ⟨hreap, -⟩ | ⟨hreap | hdrain, -⟩
    · rw [hphase] at hk
      cases hk
    · rw [hphase] at hreap
      cases hreap
    · rw [hphase] at hreap
      cases hreap
    · rw [hphase] at hdrain
      cases hdrain

/-- **A step changes nothing, or brings the end nearer.** -/
theorem rank_lt (s : Pipe) (event : Event) :
    s.step chunks event = s ∨ (s.step chunks event).rank chunks < s.rank chunks := by
  cases event with
  | complete c =>
    show s.deliver c = s ∨ (s.deliver c).rank chunks < s.rank chunks
    unfold Pipe.deliver
    split_ifs with howned
    · right
      show s.phase.rank chunks + 3 * (chunks.length - s.next) +
        2 * (s.owned.erase c.transfer).length + (s.completions ++ [c]).length < _
      have hpos := List.length_pos_of_mem howned
      unfold Pipe.rank
      rw [List.length_erase_of_mem howned, List.length_append, List.length_singleton]
      omega
    · exact Or.inl rfl
  | turn accepted late =>
    by_cases hgo : (∃ k, s.phase = .prime k) ∨ s.phase = .reap ∧ late = true ∨
        (s.phase = .reap ∨ s.phase = .drain) ∧ (s.completions ≠ [] ∨ ¬ s.reaped < s.submitted)
    · exact Or.inr (rank_turn hgo)
    · left
      obtain ⟨hprime, hreap, hqueue⟩ := not_or.1 hgo |>.imp id not_or.1
      show s.turn chunks accepted late = s
      unfold Pipe.turn
      cases hphase : s.phase with
      | prime k => exact absurd ⟨k, hphase⟩ hprime
      | reap =>
        obtain ⟨hnil, hmore⟩ := not_or.1 fun h => hqueue ⟨Or.inl hphase, h⟩
        have hlate : late = false := Bool.eq_false_iff.2 fun hlate => hreap ⟨hphase, hlate⟩
        dsimp only
        rw [if_pos (not_not.1 hmore), not_not.1 hnil, hlate]
        rfl
      | drain =>
        obtain ⟨hnil, hmore⟩ := not_or.1 fun h => hqueue ⟨Or.inr hphase, h⟩
        dsimp only
        rw [if_pos (not_not.1 hmore), not_not.1 hnil]
      | returned result => rfl

/-- The call behind the first `n` events of a schedule. -/
def stateAt (chunks : List (List UInt8)) (schedule : ℕ → Event) (n : ℕ) : Pipe :=
  run (Pipe.step chunks) (pipelineOut chunks) ((List.range n).map schedule)

theorem stateAt_succ (schedule : ℕ → Event) (n : ℕ) :
    stateAt chunks schedule (n + 1) = (stateAt chunks schedule n).step chunks (schedule n) := by
  rw [stateAt, List.range_succ, List.map_append, run_append]
  rfl

/-- The calling thread is scheduled again and again, its deadline passes, and every transfer that
is cancelled eventually completes. -/
structure Fair (chunks : List (List UInt8)) (schedule : ℕ → Event) : Prop where
  turns : ∀ n, ∃ m ≥ n, ∃ accepted late, schedule m = .turn accepted late
  deadline : ∃ n, ∀ m ≥ n, ∀ accepted late, schedule m = .turn accepted late → late = true
  cancelled : ∀ n, (stateAt chunks schedule n).phase = .drain →
    ∀ t ∈ (stateAt chunks schedule n).owned, ∃ m ≥ n, t ∉ (stateAt chunks schedule m).owned

theorem rank_le (schedule : ℕ → Event) {n m : ℕ} (hle : n ≤ m) :
    (stateAt chunks schedule m).rank chunks ≤ (stateAt chunks schedule n).rank chunks := by
  induction hle with
  | refl => exact le_rfl
  | @step m _ ih =>
    rw [stateAt_succ]
    rcases rank_lt (stateAt chunks schedule m) (schedule m) with hsame | hlt
    · rwa [hsame]
    · exact hlt.le.trans ih

/-- Between two different states the rank falls. -/
theorem exists_rank_lt (schedule : ℕ → Event) {n m : ℕ} (hle : n ≤ m)
    (hne : stateAt chunks schedule m ≠ stateAt chunks schedule n) :
    (stateAt chunks schedule m).rank chunks < (stateAt chunks schedule n).rank chunks := by
  induction hle with
  | refl => exact absurd rfl hne
  | @step m hle ih =>
    rw [stateAt_succ] at hne ⊢
    rcases rank_lt (stateAt chunks schedule m) (schedule m) with hsame | hlt
    · rw [hsame] at hne ⊢
      exact ih hne
    · exact hlt.trans_le (rank_le schedule hle)

/-- A call that does not come nearer to its end has returned. -/
theorem returned_of_still (hfit : ∀ chunk ∈ chunks, chunk.length < 2 ^ 31)
    {schedule : ℕ → Event} (hfair : Fair chunks schedule) {n : ℕ}
    (hstill : ∀ m ≥ n, stateAt chunks schedule m = stateAt chunks schedule n) :
    ∃ result, (stateAt chunks schedule n).phase = .returned result := by
  obtain ⟨late, hlate⟩ := hfair.deadline
  obtain ⟨m, hm, accepted, expired, hturn⟩ := hfair.turns (max n late)
  have hexpired := hlate m (le_of_max_le_right hm) accepted expired hturn
  have hn : n ≤ m := le_of_max_le_left hm
  -- The turn at `m` would bring the end nearer, if there were anything to do.
  have hidle : ¬ ((∃ k, (stateAt chunks schedule n).phase = .prime k) ∨
      (stateAt chunks schedule n).phase = .reap ∧ expired = true ∨
      ((stateAt chunks schedule n).phase = .reap ∨ (stateAt chunks schedule n).phase = .drain) ∧
        ((stateAt chunks schedule n).completions ≠ [] ∨
          ¬ (stateAt chunks schedule n).reaped < (stateAt chunks schedule n).submitted)) := by
    intro hgo
    have hlt : ((stateAt chunks schedule n).turn chunks accepted expired).rank chunks <
        (stateAt chunks schedule n).rank chunks := rank_turn hgo
    have hsucc := hstill (m + 1) (by omega)
    rw [stateAt_succ, hturn, hstill m hn] at hsucc
    exact (congrArg (Pipe.rank chunks) hsucc).not_lt hlt
  cases hphase : (stateAt chunks schedule n).phase with
  | prime k => exact absurd (Or.inl ⟨k, hphase⟩) hidle
  | reap => exact absurd (Or.inr (Or.inl ⟨hphase, hexpired⟩)) hidle
  | drain =>
    -- The queue is empty, so libusb still has a transfer, and does not give it back.
    have hledger := (ledger_run hfit ((List.range n).map schedule)).1
    change Ledger chunks (stateAt chunks schedule n) at hledger
    obtain ⟨hnil, hmore⟩ := not_or.1 fun h => hidle (Or.inr (Or.inr ⟨Or.inr hphase, h⟩))
    have hsum := hledger.sum
    have hsubmitted := hledger.submitted
    rw [Pipe.live, not_not.1 hnil, List.map_nil, List.nil_append] at hsum
    obtain ⟨t, ht⟩ := List.exists_mem_of_length_pos
      (l := (stateAt chunks schedule n).owned) (by omega)
    obtain ⟨k, hk, hgone⟩ := hfair.cancelled n hphase t ht
    rw [hstill k hk] at hgone
    exact absurd ht hgone
  | returned result => exact ⟨result, rfl⟩

/-- **The call returns.** -/
theorem pipelineOut_returns (hfit : ∀ chunk ∈ chunks, chunk.length < 2 ^ 31)
    {schedule : ℕ → Event} (hfair : Fair chunks schedule) :
    ∃ n result, (stateAt chunks schedule n).phase = .returned result := by
  suffices hrank : ∀ r n, (stateAt chunks schedule n).rank chunks = r →
      ∃ n result, (stateAt chunks schedule n).phase = .returned result from hrank _ 0 rfl
  intro r
  induction r using Nat.strong_induction_on with
  | _ r ih =>
    intro n hr
    by_cases hstill : ∀ m ≥ n, stateAt chunks schedule m = stateAt chunks schedule n
    · exact ⟨n, returned_of_still hfit hfair hstill⟩
    · -- The first change behind `n` lowers the rank.
      rw [not_forall] at hstill
      obtain ⟨m, hm⟩ := hstill
      obtain ⟨hn, hchanged⟩ := Classical.not_imp.1 hm
      exact ih _ (hr ▸ exists_rank_lt schedule hn hchanged) m rfl

/-- **Pipelined writes are all-or-error and in order**, for every order of the steps and every
outcome of a transfer, and they return.  The length of a chunk is a C `int`, which holds of what is
cut from a stream (`transfers_fit`). -/
theorem pipelineOut_allOrError (hfit : ∀ chunk ∈ chunks, chunk.length < 2 ^ 31) :
    (∀ events, AllOrError chunks (run (Pipe.step chunks) (pipelineOut chunks) events)) ∧
      ∀ schedule, Fair chunks schedule →
        ∃ n result, (stateAt chunks schedule n).phase = .returned result := by
  refine ⟨fun events => ?_, fun schedule hfair => pipelineOut_returns hfit hfair⟩
  obtain ⟨hledger, hplaced⟩ := ledger_run hfit events
  exact hledger.allOrError hplaced

/-- Two chunks that complete the other way round. -/
theorem two_chunks_written :
    (run (Pipe.step [[1, 2, 3], [4]]) (pipelineOut [[1, 2, 3], [4]])
      [.turn true false, .turn true false, .turn true false, .complete ⟨1, .completed, 1⟩,
       .complete ⟨0, .completed, 3⟩, .turn true false, .turn true false, .turn true false,
       .turn true false]).phase = .returned (.ok 4) ∧
    (∀ events, AllOrError [[1, 2, 3], [4]]
      (run (Pipe.step [[1, 2, 3], [4]]) (pipelineOut [[1, 2, 3], [4]]) events)) :=
  ⟨by decide, (pipelineOut_allOrError (by decide)).1⟩

end Machine

/-! ### The chunks of a stream -/

/-- The pieces a stream is cut into are far shorter than a C `int` can say. -/
theorem transfers_fit (c : Crypto) (key : Key) (nonce : Nonce) (pieces : List Piece) :
    ∀ chunk ∈ transfers c key nonce pieces, chunk.length < 2 ^ 31 := fun chunk hchunk =>
  (mem_toChunks_length (by norm_num) hchunk).trans_lt (by norm_num)

end Vino.Usb
