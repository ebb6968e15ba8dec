import Vino.Lib.Checked
import Vino.Lib.Run

/-!
# Pacing a Dock's Stream

A dock that shares its endpoint between pixels and control has a budget of bytes per second and a
burst.  One ledger for the whole dock holds the unspent credit.  The scanout worker of every
connector reads the clock, tops the ledger up under its lock and either waits out the debt or goes
on to a frame; the presentations of the frame are put on the pipe transfer by transfer, and one
charge is made behind the last of them.  A step of the machine is one of these actions of one
worker, or the passing of time.

* `Fits`: when a step stays clear of what the ledger does not see,
* `Booked`: the ledger against the pipe, kept by every step that fits,
* `Covered`: the credit that has been given out since some instant,
* `pacing_enforces_rate`: what holds of every run whose steps all fit.
-/

namespace Vino.Kms.Pacing

open Vino.Lib.Checked Vino.Lib.Run

/-! ### The ledger -/

/-- The nearest signed 64-bit value. -/
def saturate64 (x : ℤ) : ℤ := max (-9223372036854775808) (min x 9223372036854775807)

theorem saturate64_of_i64 {x : ℤ} (h : I64 x) : saturate64 x = x := by
  obtain ⟨hlow, hhigh⟩ := h
  unfold saturate64
  omega

/-- A `usize` cast to an `i64`. -/
def asI64 (n : ℕ) : ℤ := (n : ℤ).bmod (2 ^ 64)

/-- The saturating product of two `usize` values. -/
def saturatingMulUsize (a b : ℕ) : ℕ := min (a * b) (2 ^ 64 - 1)

/-- `Delta::as_micros_ceil`. -/
def asMicrosCeil (nanos : ℤ) : ℤ := (saturate64 (nanos + 999)).tdiv 1000

/-- The pacing figures of a profile. -/
structure StreamPacing where
  bytesPerSec : UInt32
  burstBytes : UInt32

/-- The figures as the driver keeps them: neither is zero. -/
structure Budget where
  bps : ℕ
  burst : ℕ
  bps_pos : 0 < bps
  bps_le : bps ≤ 4294967295
  burst_pos : 0 < burst
  burst_le : burst ≤ 4294967295

/-- The rate that stands for no limit. -/
def unmetered : ℕ := 4294967295

structure StreamCredit where
  bytes : ℤ
  toppedUp : Option ℕ
  deriving DecidableEq, Repr

def StreamCredit.new : StreamCredit := ⟨0, none⟩

def setStreamPacing (pacing : StreamPacing) : Budget × StreamCredit :=
  (⟨max pacing.bytesPerSec.toNat 1, max pacing.burstBytes.toNat 1, by omega,
    by have := pacing.bytesPerSec.toNat_lt; omega, by omega,
    by have := pacing.burstBytes.toNat_lt; omega⟩, .new)

def streamCreditAccrued (bps : ℕ) (elapsedUs : ℤ) : ℤ :=
  (saturate64 (max elapsedUs 0 * bps)).tdiv 1000000

def streamCreditWaitUs (bps : ℕ) (bytes : ℤ) : Option ℤ :=
  if 0 ≤ bytes then none
  else
    some (saturate64
      ((saturate64 (saturate64 (-bytes) * 1000000)).tdiv (max (bps : ℤ) 1) + 1))

/-- The microseconds that a top-up at `now` pays for. -/
def StreamCredit.elapsedUs (credit : StreamCredit) (now : ℕ) : ℤ :=
  match credit.toppedUp with
  | none => 1000000
  | some last => asMicrosCeil ((now : ℤ) - last)

variable (b : Budget)

/-- The ledger behind a query whose clock reading is `now`, and what the query returns. -/
def streamBudgetWaitUs (now : ℕ) (credit : StreamCredit) : Option ℤ × StreamCredit :=
  if b.bps = unmetered then (none, credit)
  else
    let bytes := min (saturate64 (credit.bytes + streamCreditAccrued b.bps (credit.elapsedUs now)))
      b.burst
    (streamCreditWaitUs b.bps bytes, ⟨bytes, some now⟩)

def chargeStreamBudget (bytes : ℕ) (credit : StreamCredit) : StreamCredit :=
  if b.bps = unmetered then credit
  else { credit with bytes := saturate64 (credit.bytes - asI64 bytes) }

/-! ### The same over the integers -/

/-- A query whose arithmetic is unbounded. -/
def idealWaitUs (now : ℕ) (credit : StreamCredit) : Option ℤ × StreamCredit :=
  let bytes := min (credit.bytes + max (credit.elapsedUs now) 0 * b.bps / 1000000) b.burst
  (if 0 ≤ bytes then none else some (-bytes * 1000000 / b.bps + 1), ⟨bytes, some now⟩)

/-- A charge whose arithmetic is unbounded. -/
def idealCharge (bytes : ℕ) (credit : StreamCredit) : StreamCredit :=
  { credit with bytes := credit.bytes - bytes }

/-- The debt whose wait is still counted exactly in 64 bits. -/
def debtLimit : ℤ := 9223372036854

/-- The ledger is neither above the burst nor too deep in debt. -/
def StreamCredit.InRange (credit : StreamCredit) : Prop :=
  b.burst - debtLimit ≤ credit.bytes ∧ credit.bytes ≤ b.burst

theorem streamCreditAccrued_eq (bps : ℕ) (elapsedUs : ℤ) :
    streamCreditAccrued bps elapsedUs = min (max elapsedUs 0 * bps / 1000000) debtLimit := by
  unfold streamCreditAccrued saturate64 debtLimit
  have hp : 0 ≤ max elapsedUs 0 * (bps : ℤ) := by positivity
  rw [Int.tdiv_eq_ediv_of_nonneg (by omega)]
  omega

variable {b}

theorem streamBudgetWaitUs_eq (hmetered : b.bps ≠ unmetered) {credit : StreamCredit}
    (h : credit.InRange b) (now : ℕ) :
    streamBudgetWaitUs b now credit = idealWaitUs b now credit := by
  obtain ⟨hlow, hhigh⟩ := h
  have hburst := b.burst_le
  have hp : 0 ≤ max (credit.elapsedUs now) 0 * (b.bps : ℤ) := by positivity
  unfold debtLimit at hlow
  have hbytes : min (saturate64
      (credit.bytes + streamCreditAccrued b.bps (credit.elapsedUs now))) (b.burst : ℤ) =
      min (credit.bytes + max (credit.elapsedUs now) 0 * b.bps / 1000000) b.burst := by
    rw [streamCreditAccrued_eq, saturate64_of_i64 (by unfold I64 debtLimit; omega)]
    unfold debtLimit
    omega
  unfold streamBudgetWaitUs idealWaitUs
  rw [if_neg hmetered]
  simp only [hbytes]
  generalize hx : min (credit.bytes + max (credit.elapsedUs now) 0 * b.bps / 1000000)
    (b.burst : ℤ) = bytes
  have hbound : -9223372036854 + 1 ≤ bytes := by
    have := b.burst_pos
    omega
  unfold streamCreditWaitUs
  split
  · rfl
  · next hneg =>
    have hbps : max (b.bps : ℤ) 1 = b.bps := by
      have := b.bps_pos
      omega
    have hneg64 : I64 (-bytes) := by unfold I64; omega
    have hmul64 : I64 (-bytes * 1000000) := by unfold I64; omega
    have hle : -bytes * 1000000 / (b.bps : ℤ) ≤ -bytes * 1000000 :=
      Int.ediv_le_self _ (by omega)
    have hdiv : 0 ≤ -bytes * 1000000 / (b.bps : ℤ) := Int.ediv_nonneg (by omega) (by omega)
    rw [saturate64_of_i64 hneg64, saturate64_of_i64 hmul64, hbps,
      Int.tdiv_eq_ediv_of_nonneg (by omega), saturate64_of_i64 (by unfold I64; omega)]

theorem chargeStreamBudget_eq (hmetered : b.bps ≠ unmetered) {credit : StreamCredit} {n : ℕ}
    (h : credit.InRange b) (hn : b.burst - debtLimit ≤ credit.bytes - n) :
    chargeStreamBudget b n credit = idealCharge n credit := by
  obtain ⟨hlow, hhigh⟩ := h
  have hburst := b.burst_le
  unfold debtLimit at hn hlow
  have hcast : asI64 n = n := Int.bmod_eq_of_le (by omega) (by omega)
  unfold chargeStreamBudget idealCharge
  rw [if_neg hmetered, hcast, saturate64_of_i64 (by unfold I64; omega)]

/-! ### The workers -/

/-- The lengths of the slices one presentation is made of.  They are live at once, so that their
sum is the length of an address range. -/
structure Presentation where
  arm : ℕ
  opener : ℕ
  report : ℕ
  params : ℕ
  image : ℕ
  trailer : ℕ
  live : arm + opener + report + params + image + trailer < 2 ^ 64

def Presentation.wireLen (p : Presentation) : ℕ :=
  p.arm + p.opener + p.report + p.params + p.image + p.trailer

/-- Where a scanout worker stands.  Behind `start` it knows how many presentations it is to make,
the wire lengths of those it has begun, and how much of the last one is not yet submitted. -/
inductive Phase where
  | idle
  | holding (now : ℕ)
  | chosen
  | presenting (repeatCount : ℕ) (wireLens : List ℕ) (left : ℕ)
  deriving DecidableEq, Repr

/-- `last_wire_len`. -/
def lastWireLen (wireLens : List ℕ) : ℕ := wireLens.getLastD 0

/-- A worker, and how much of its latest frame it has put on the pipe. -/
structure Worker where
  phase : Phase
  sent : ℕ
  deriving DecidableEq, Repr

/-- The dock as pacing sees it.  `pipe` counts the bytes of presentations that were put on the
pipe, `charged` those that the ledger was charged for, `queries` the top-ups, and `lost` the
millionths of a byte that the top-ups rounded away. -/
structure State (k : ℕ) where
  now : ℕ
  credit : StreamCredit
  workers : Fin k → Worker
  pipe : ℕ
  charged : ℕ
  queries : ℕ
  lost : ℕ

inductive Act (k : ℕ) where
  | advance (nanos : ℕ)
  | readClock (c : Fin k)
  | topUp (c : Fin k)
  | skip (c : Fin k)
  | start (c : Fin k) (repeatCount : ℕ)
  | present (c : Fin k) (p : Presentation)
  | transfer (c : Fin k) (n : ℕ)
  | stop (c : Fin k)
  | charge (c : Fin k)

variable {k : ℕ}

/-- The state behind `set_stream_pacing`. -/
def State.new : State k := ⟨0, .new, fun _ => ⟨.idle, 0⟩, 0, 0, 0, 0⟩

def State.setWorker (s : State k) (c : Fin k) (phase : Phase) (sent : ℕ) : State k :=
  { s with workers := Function.update s.workers c ⟨phase, sent⟩ }

/-- The phase a query leaves its worker in. -/
def Phase.ofWait : Option ℤ → Phase
  | some _ => .idle
  | none => .chosen

variable (b : Budget)

/-- The top-up of a worker that read `now` from the clock. -/
def State.topUp (s : State k) (c : Fin k) (now : ℕ) : State k :=
  let reply := streamBudgetWaitUs b now s.credit
  { s.setWorker c (.ofWait reply.1) (s.workers c).sent with
    credit := reply.2
    queries := s.queries + 1
    lost := s.lost + ((s.credit.elapsedUs now).toNat * b.bps) % 1000000 }

/-- The charge behind the presentation loop. -/
def State.charge (s : State k) (c : Fin k) (repeatCount : ℕ) (wireLens : List ℕ) : State k :=
  let bytes := saturatingMulUsize (lastWireLen wireLens) repeatCount
  { s.setWorker c .idle (s.workers c).sent with
    credit := chargeStreamBudget b bytes s.credit
    charged := s.charged + bytes }

/-- One action; it leaves the state alone where its worker stands elsewhere. -/
def step (s : State k) : Act k → State k
  | .advance nanos => if s.now + nanos < 2 ^ 63 then { s with now := s.now + nanos } else s
  | .readClock c =>
      match s.workers c with
      | ⟨.idle, sent⟩ => s.setWorker c (.holding s.now) sent
      | _ => s
  | .topUp c =>
      match s.workers c with
      | ⟨.holding now, _⟩ => s.topUp b c now
      | _ => s
  | .skip c =>
      match s.workers c with
      | ⟨.chosen, sent⟩ => s.setWorker c .idle sent
      | _ => s
  | .start c repeatCount =>
      match s.workers c with
      | ⟨.chosen, _⟩ => s.setWorker c (.presenting repeatCount [] 0) 0
      | _ => s
  | .present c p =>
      match s.workers c with
      | ⟨.presenting repeatCount wireLens 0, sent⟩ =>
          if wireLens.length < repeatCount then
            s.setWorker c (.presenting repeatCount (wireLens ++ [p.wireLen]) p.wireLen) sent
          else s
      | _ => s
  | .transfer c n =>
      match s.workers c with
      | ⟨.presenting repeatCount wireLens left, sent⟩ =>
          if n ≤ left then
            { s.setWorker c (.presenting repeatCount wireLens (left - n)) (sent + n) with
              pipe := s.pipe + n }
          else s
      | _ => s
  | .stop c =>
      match s.workers c with
      | ⟨.presenting repeatCount wireLens left, sent⟩ =>
          if wireLens.length < repeatCount ∨ 0 < left then s.setWorker c .idle sent else s
      | _ => s
  | .charge c =>
      match s.workers c with
      | ⟨.presenting repeatCount wireLens 0, _⟩ =>
          if wireLens.length = repeatCount then s.charge b c repeatCount wireLens else s
      | _ => s

/-! ### What a step can do -/

/-- The effect of a step, action by action. -/
inductive Step (s : State k) : Act k → State k → Prop where
  | none (a : Act k) : Step s a s
  | advance (nanos : ℕ) (h : s.now + nanos < 2 ^ 63) :
      Step s (.advance nanos) { s with now := s.now + nanos }
  | readClock (c : Fin k) (sent : ℕ) (h : s.workers c = ⟨.idle, sent⟩) :
      Step s (.readClock c) (s.setWorker c (.holding s.now) sent)
  | topUp (c : Fin k) (now sent : ℕ) (h : s.workers c = ⟨.holding now, sent⟩) :
      Step s (.topUp c) (s.topUp b c now)
  | skip (c : Fin k) (sent : ℕ) (h : s.workers c = ⟨.chosen, sent⟩) :
      Step s (.skip c) (s.setWorker c .idle sent)
  | start (c : Fin k) (repeatCount sent : ℕ) (h : s.workers c = ⟨.chosen, sent⟩) :
      Step s (.start c repeatCount) (s.setWorker c (.presenting repeatCount [] 0) 0)
  | present (c : Fin k) (p : Presentation) (repeatCount : ℕ) (wireLens : List ℕ) (sent : ℕ)
      (h : s.workers c = ⟨.presenting repeatCount wireLens 0, sent⟩) :
      Step s (.present c p)
        (s.setWorker c (.presenting repeatCount (wireLens ++ [p.wireLen]) p.wireLen) sent)
  | transfer (c : Fin k) (n repeatCount : ℕ) (wireLens : List ℕ) (left sent : ℕ)
      (h : s.workers c = ⟨.presenting repeatCount wireLens left, sent⟩) (hn : n ≤ left) :
      Step s (.transfer c n)
        { s.setWorker c (.presenting repeatCount wireLens (left - n)) (sent + n) with
          pipe := s.pipe + n }
  | stop (c : Fin k) (repeatCount : ℕ) (wireLens : List ℕ) (left sent : ℕ)
      (h : s.workers c = ⟨.presenting repeatCount wireLens left, sent⟩)
      (hcut : wireLens.length < repeatCount ∨ 0 < left) :
      Step s (.stop c) (s.setWorker c .idle sent)
  | charge (c : Fin k) (wireLens : List ℕ) (sent : ℕ)
      (h : s.workers c = ⟨.presenting wireLens.length wireLens 0, sent⟩) :
      Step s (.charge c) (s.charge b c wireLens.length wireLens)

theorem step_spec (s : State k) (a : Act k) : Step b s a (step b s a) := by
  cases a with
  | advance nanos =>
    simp only [step]
    split
    · next h => exact .advance nanos h
    · exact .none _
  | readClock c =>
    simp only [step]
    split
    · next sent h => exact .readClock c sent h
    · exact .none _
  | topUp c =>
    simp only [step]
    split
    · next now sent h => exact .topUp c now sent h
    · exact .none _
  | skip c =>
    simp only [step]
    split
    · next sent h => exact .skip c sent h
    · exact .none _
  | start c repeatCount =>
    simp only [step]
    split
    · next sent h => exact .start c repeatCount sent h
    · exact .none _
  | present c p =>
    simp only [step]
    split
    · next repeatCount wireLens sent h =>
      split
      · exact .present c p repeatCount wireLens sent h
      · exact .none _
    · exact .none _
  | transfer c n =>
    simp only [step]
    split
    · next repeatCount wireLens left sent h =>
      split
      · next hn => exact .transfer c n repeatCount wireLens left sent h hn
      · exact .none _
    · exact .none _
  | stop c =>
    simp only [step]
    split
    · next repeatCount wireLens left sent h =>
      split
      · next hcut => exact .stop c repeatCount wireLens left sent h hcut
      · exact .none _
    · exact .none _
  | charge c =>
    simp only [step]
    split
    · next repeatCount wireLens sent h =>
      split
      · next hlen =>
        subst hlen
        exact .charge c wireLens sent h
      · exact .none _
    · exact .none _

/-! ### The conditions -/

/-- A worker about to top the ledger up has read the clock since the last top-up. -/
def Worker.OnTime (toppedUp : Option ℕ) : Worker → Prop
  | ⟨.holding now, _⟩ => ∀ last ∈ toppedUp, last ≤ now
  | _ => True

/-- A frame that is given up has put nothing on the pipe. -/
def Worker.Unsent : Worker → Prop
  | ⟨.presenting .., sent⟩ => sent = 0
  | _ => True

/-- The presentations of a finished frame add up to so many times the last one, and the debt they
leave is still countable. -/
def Worker.Even (credit : StreamCredit) : Worker → Prop
  | ⟨.presenting repeatCount wireLens 0, _⟩ =>
      repeatCount = wireLens.length →
        wireLens.sum = repeatCount * lastWireLen wireLens ∧
          b.burst - debtLimit ≤ credit.bytes - (wireLens.sum : ℤ)
  | _ => True

/-- When a step stays clear of what the ledger does not see. -/
def Fits (s : State k) : Act k → Prop
  | .topUp c => (s.workers c).OnTime s.credit.toppedUp
  | .stop c => (s.workers c).Unsent
  | .charge c => (s.workers c).Even b s.credit
  | _ => True

instance (toppedUp : Option ℕ) : DecidablePred (Worker.OnTime toppedUp)
  | ⟨.idle, _⟩ => .isTrue trivial
  | ⟨.holding now, _⟩ => inferInstanceAs (Decidable (∀ last ∈ toppedUp, last ≤ now))
  | ⟨.chosen, _⟩ => .isTrue trivial
  | ⟨.presenting .., _⟩ => .isTrue trivial

instance : DecidablePred Worker.Unsent
  | ⟨.idle, _⟩ => .isTrue trivial
  | ⟨.holding _, _⟩ => .isTrue trivial
  | ⟨.chosen, _⟩ => .isTrue trivial
  | ⟨.presenting _ _ _, sent⟩ => inferInstanceAs (Decidable (sent = 0))

instance (credit : StreamCredit) : DecidablePred (Worker.Even b credit)
  | ⟨.idle, _⟩ => .isTrue trivial
  | ⟨.holding _, _⟩ => .isTrue trivial
  | ⟨.chosen, _⟩ => .isTrue trivial
  | ⟨.presenting repeatCount wireLens 0, _⟩ =>
      inferInstanceAs (Decidable (repeatCount = wireLens.length →
        wireLens.sum = repeatCount * lastWireLen wireLens ∧
          b.burst - debtLimit ≤ credit.bytes - (wireLens.sum : ℤ)))
  | ⟨.presenting _ _ (_ + 1), _⟩ => .isTrue trivial

instance (s : State k) : DecidablePred (Fits b s)
  | .advance _ => .isTrue trivial
  | .readClock _ => .isTrue trivial
  | .topUp c => inferInstanceAs (Decidable ((s.workers c).OnTime s.credit.toppedUp))
  | .skip _ => .isTrue trivial
  | .start _ _ => .isTrue trivial
  | .present _ _ => .isTrue trivial
  | .transfer _ _ => .isTrue trivial
  | .stop c => inferInstanceAs (Decidable (s.workers c).Unsent)
  | .charge c => inferInstanceAs (Decidable ((s.workers c).Even b s.credit))

/-- The arithmetic of a step is the one of the integers. -/
def Exact (s : State k) : Act k → Prop
  | .topUp c =>
      ∀ now sent, s.workers c = ⟨.holding now, sent⟩ →
        streamBudgetWaitUs b now s.credit = idealWaitUs b now s.credit
  | .charge c =>
      ∀ wireLens sent, s.workers c = ⟨.presenting wireLens.length wireLens 0, sent⟩ →
        saturatingMulUsize (lastWireLen wireLens) wireLens.length =
            lastWireLen wireLens * wireLens.length ∧
          chargeStreamBudget b (lastWireLen wireLens * wireLens.length) s.credit =
            idealCharge (lastWireLen wireLens * wireLens.length) s.credit
  | _ => True

/-- No worker is between its reading of the clock and the end of its frame. -/
def Settled (s : State k) : Prop := ∀ c, (s.workers c).phase = .idle

/-- The credit, with the time since the last top-up, is not above the burst. -/
def BelowBurst (s : State k) : Prop :=
  ∃ last, s.credit.toppedUp = some last ∧
    1000000000 * s.credit.bytes + b.bps * ((s.now : ℤ) - last) ≤ 1000000000 * b.burst

/-- The bytes that were put on the pipe between two states, in units of a billionth: the burst, the
rate over the time since the instant `τ`, a microsecond of it for each query, and the latest frame
of each connector. -/
def WithinRate (τ : ℕ) (s s' : State k) : Prop :=
  1000000000 * ((s'.pipe : ℤ) - s.pipe) ≤
    1000000000 * (b.burst + ((∑ c, (s'.workers c).sent : ℕ) : ℤ)) + b.bps * ((s'.now : ℤ) - τ) +
      1000 * b.bps * ((s'.queries : ℤ) - s.queries)

instance (τ : ℕ) (s s' : State k) : Decidable (WithinRate b τ s s') :=
  inferInstanceAs (Decidable (_ ≤ _))

/-- A worker that is refused and comes back when the returned time has passed is let through,
unless the ledger was charged meanwhile.  The top-ups of its siblings may round away what its wait
accrues beyond the debt, and no more. -/
def LetThroughAfterWait (s : State k) : Prop :=
  ∀ (c : Fin k) (now sent : ℕ) (us : ℤ) (es : List (Act k)) (now' sent' : ℕ),
    s.workers c = ⟨.holding now, sent⟩ →
    (streamBudgetWaitUs b now s.credit).1 = some us →
    Along (Fits b) (step b) s (.topUp c :: es ++ [.topUp c]) →
    (∀ d, Act.charge d ∉ es) →
    (run (step b) (step b s (.topUp c)) es).workers c = ⟨.holding now', sent'⟩ →
    now + 1000 * us ≤ now' →
    ((run (step b) (step b s (.topUp c)) es).lost : ℤ) - (step b s (.topUp c)).lost ≤
      b.bps * us + 1000000 * (step b s (.topUp c)).credit.bytes →
    (streamBudgetWaitUs b now' (run (step b) (step b s (.topUp c)) es).credit).1 = none

/-! ### The ledger against the pipe -/

/-- The bytes of a frame that is being presented. -/
def Worker.inflight : Worker → ℕ
  | ⟨.presenting .., sent⟩ => sent
  | _ => 0

/-- The bytes of the latest frame of a worker that is done with it. -/
def Worker.settled : Worker → ℕ
  | ⟨.idle, sent⟩ => sent
  | ⟨.holding _, sent⟩ => sent
  | _ => 0

theorem Worker.settled_add_inflight_le (w : Worker) : w.settled + w.inflight ≤ w.sent := by
  rcases w with ⟨_ | _ | _ | _, sent⟩ <;> simp [Worker.settled, Worker.inflight]

/-- What a phase says about the clock and about the bytes of the frame. -/
def Worker.Sound (now : ℕ) : Worker → Prop
  | ⟨.holding t, _⟩ => t ≤ now
  | ⟨.presenting _ wireLens left, sent⟩ => sent + left = wireLens.sum
  | _ => True

theorem Worker.Sound.mono {now now' : ℕ} (h : now ≤ now') {w : Worker} (hw : w.Sound now) :
    w.Sound now' := by
  rcases w with ⟨_ | t | _ | _, sent⟩
  · trivial
  · exact le_trans (show t ≤ now from hw) h
  · trivial
  · exact hw

theorem sum_setWorker (f : Worker → ℕ) (s : State k) (c : Fin k) (phase : Phase) (sent : ℕ) :
    ∑ i, f ((s.setWorker c phase sent).workers i) + f (s.workers c) =
      ∑ i, f (s.workers i) + f ⟨phase, sent⟩ := by
  have hcomp : (fun i => f ((s.setWorker c phase sent).workers i)) =
      Function.update (fun i => f (s.workers i)) c (f ⟨phase, sent⟩) :=
    Function.comp_update f s.workers c ⟨phase, sent⟩
  have hnew := Finset.sum_update_of_mem (Finset.mem_univ c) (fun i => f (s.workers i))
    (f ⟨phase, sent⟩)
  have hold := Finset.sum_eq_add_sum_sdiff_singleton_of_mem (Finset.mem_univ c)
    fun i => f (s.workers i)
  rw [hcomp, hnew, hold]
  omega

theorem forall_setWorker {P : Worker → Prop} {s : State k} (h : ∀ i, P (s.workers i)) (c : Fin k)
    {phase : Phase} {sent : ℕ} (hc : P ⟨phase, sent⟩) (i : Fin k) :
    P ((s.setWorker c phase sent).workers i) := by
  show P (Function.update s.workers c _ i)
  by_cases hi : i = c
  · subst hi
    rwa [Function.update_self]
  · rw [Function.update_of_ne hi]
    exact h i

/-- The books of a state that only steps that fit have led to. -/
structure Booked (s : State k) : Prop where
  clock : s.now < 2 ^ 63
  credit : s.credit.InRange b
  stamp : ∀ last, s.credit.toppedUp = some last → last ≤ s.now
  workers : ∀ c, (s.workers c).Sound s.now
  pipe : s.pipe = s.charged + ∑ c, (s.workers c).inflight

theorem booked_new : Booked b (.new : State k) where
  clock := by
    show 0 < 2 ^ 63
    norm_num
  credit := by
    have hpos := b.burst_pos
    have hle := b.burst_le
    constructor
    · show (b.burst : ℤ) - debtLimit ≤ 0
      unfold debtLimit
      omega
    · show (0 : ℤ) ≤ b.burst
      omega
  stamp := by
    intro last hlast
    exact absurd hlast (Option.some_ne_none last).symm
  workers := fun _ => trivial
  pipe := by
    show 0 = 0 + ∑ _c : Fin k, 0
    rw [Finset.sum_const_zero, Nat.add_zero]

variable {b} {s : State k}

theorem Booked.reading_le (hs : Booked b s) {c : Fin k} {now sent : ℕ}
    (h : s.workers c = ⟨.holding now, sent⟩) : now ≤ s.now := by
  have hsound := hs.workers c
  rwa [h] at hsound

theorem Fits.onTime {c : Fin k} {now sent last : ℕ} (h : s.workers c = ⟨.holding now, sent⟩)
    (hlast : s.credit.toppedUp = some last) (hfits : Fits b s (.topUp c)) : last ≤ now := by
  have hon : (s.workers c).OnTime s.credit.toppedUp := hfits
  rw [h] at hon
  exact hon last hlast

theorem Fits.unsent {c : Fin k} {repeatCount left sent : ℕ} {wireLens : List ℕ}
    (h : s.workers c = ⟨.presenting repeatCount wireLens left, sent⟩)
    (hfits : Fits b s (.stop c)) : sent = 0 := by
  have hunsent : (s.workers c).Unsent := hfits
  rwa [h] at hunsent

theorem Fits.even {c : Fin k} {wireLens : List ℕ} {sent : ℕ}
    (h : s.workers c = ⟨.presenting wireLens.length wireLens 0, sent⟩)
    (hfits : Fits b s (.charge c)) :
    wireLens.sum = wireLens.length * lastWireLen wireLens ∧
      b.burst - debtLimit ≤ s.credit.bytes - (wireLens.sum : ℤ) := by
  have heven : (s.workers c).Even b s.credit := hfits
  rw [h] at heven
  exact heven rfl

/-- What the ledger is behind a query. -/
theorem inRange_idealWaitUs {credit : StreamCredit} (h : credit.InRange b) (now : ℕ) :
    (idealWaitUs b now credit).2.InRange b := by
  obtain ⟨hlow, hhigh⟩ := h
  have hp : 0 ≤ max (credit.elapsedUs now) 0 * (b.bps : ℤ) / 1000000 := by positivity
  unfold StreamCredit.InRange idealWaitUs debtLimit at *
  constructor
  · simp only
    omega
  · simp only
    omega

/-- The charge of a frame that fits is the frame's length. -/
theorem Fits.charge_eq {c : Fin k} {wireLens : List ℕ} {sent : ℕ} (hs : Booked b s)
    (h : s.workers c = ⟨.presenting wireLens.length wireLens 0, sent⟩)
    (hfits : Fits b s (.charge c)) :
    saturatingMulUsize (lastWireLen wireLens) wireLens.length = sent ∧
      lastWireLen wireLens * wireLens.length = sent ∧
      b.burst - debtLimit ≤ s.credit.bytes - (sent : ℤ) := by
  have hsound : sent + 0 = wireLens.sum := by
    have := hs.workers c
    rwa [h] at this
  obtain ⟨hsum, hdebt⟩ := Fits.even h hfits
  have hhigh := hs.credit.2
  have hprod : lastWireLen wireLens * wireLens.length = sent := by
    rw [Nat.mul_comm]
    omega
  have hsent : wireLens.sum = sent := by omega
  rw [hsent] at hdebt
  refine ⟨?_, hprod, hdebt⟩
  unfold saturatingMulUsize
  rw [hprod]
  unfold debtLimit at hdebt
  omega

theorem Fits.charge_state (hmetered : b.bps ≠ unmetered) {c : Fin k} {wireLens : List ℕ} {sent : ℕ}
    (hs : Booked b s) (h : s.workers c = ⟨.presenting wireLens.length wireLens 0, sent⟩)
    (hfits : Fits b s (.charge c)) :
    s.charge b c wireLens.length wireLens =
      { s.setWorker c .idle sent with
        credit := idealCharge sent s.credit
        charged := s.charged + sent } := by
  obtain ⟨hcharge, -, hdebt⟩ := hfits.charge_eq hs h
  simp only [State.charge, hcharge, chargeStreamBudget_eq hmetered hs.credit hdebt, h]

theorem topUp_state (hmetered : b.bps ≠ unmetered) {c : Fin k} {now sent : ℕ} (hs : Booked b s)
    (h : s.workers c = ⟨.holding now, sent⟩) :
    s.topUp b c now =
      { s.setWorker c (.ofWait (idealWaitUs b now s.credit).1) sent with
        credit := (idealWaitUs b now s.credit).2
        queries := s.queries + 1
        lost := s.lost + ((s.credit.elapsedUs now).toNat * b.bps) % 1000000 } := by
  simp only [State.topUp, streamBudgetWaitUs_eq hmetered hs.credit now, h]

/-- **The arithmetic of a step that fits is exact.** -/
theorem Fits.exact (hmetered : b.bps ≠ unmetered) (hs : Booked b s) {a : Act k}
    (hfits : Fits b s a) : Exact b s a := by
  cases a with
  | topUp c =>
    intro now sent h
    exact streamBudgetWaitUs_eq hmetered hs.credit now
  | charge c =>
    intro wireLens sent h
    obtain ⟨hcharge, hprod, hdebt⟩ := hfits.charge_eq hs h
    constructor
    · rw [hcharge, hprod]
    · rw [hprod]
      exact chargeStreamBudget_eq hmetered hs.credit hdebt
  | _ => trivial

/-- **The books are kept by every step that fits.** -/
theorem Booked.step (hmetered : b.bps ≠ unmetered) (hs : Booked b s) {a : Act k}
    (hfits : Fits b s a) : Booked b (step b s a) := by
  have hcases := step_spec b s a
  generalize Pacing.step b s a = s' at hcases
  cases hcases with
  | none => exact hs
  | advance nanos h =>
    exact { hs with
      clock := h
      stamp := fun last hlast => le_trans (hs.stamp last hlast) (Nat.le_add_right _ _)
      workers := fun c => (hs.workers c).mono (Nat.le_add_right _ _) }
  | readClock c sent h =>
    have hsum := sum_setWorker Worker.inflight s c (.holding s.now) sent
    rw [h] at hsum
    exact { hs with
      workers := forall_setWorker hs.workers c (show s.now ≤ s.now from le_rfl)
      pipe := hs.pipe.trans (congrArg _ hsum.symm) }
  | topUp c now sent h =>
    have hsound := hs.workers c
    have hsum := sum_setWorker Worker.inflight s c (.ofWait (idealWaitUs b now s.credit).1) sent
    have hphase : Worker.inflight ⟨.ofWait (idealWaitUs b now s.credit).1, sent⟩ = 0 := by
      cases (idealWaitUs b now s.credit).1 <;> rfl
    rw [h] at hsound hsum
    rw [hphase] at hsum
    rw [topUp_state hmetered hs h]
    refine {
      clock := hs.clock
      credit := inRange_idealWaitUs hs.credit now
      stamp := ?_
      workers := forall_setWorker hs.workers c ?_
      pipe := hs.pipe.trans (congrArg _ hsum.symm) }
    · rintro last ⟨⟩
      exact hsound
    · cases (idealWaitUs b now s.credit).1 <;> trivial
  | skip c sent h =>
    have hsum := sum_setWorker Worker.inflight s c .idle sent
    rw [h] at hsum
    exact { hs with
      workers := forall_setWorker hs.workers c trivial
      pipe := hs.pipe.trans (congrArg _ hsum.symm) }
  | start c repeatCount sent h =>
    have hsum := sum_setWorker Worker.inflight s c (.presenting repeatCount [] 0) 0
    rw [h] at hsum
    exact { hs with
      workers := forall_setWorker hs.workers c rfl
      pipe := hs.pipe.trans (congrArg _ hsum.symm) }
  | present c p repeatCount wireLens sent h =>
    have hsound := hs.workers c
    have hsum := sum_setWorker Worker.inflight s c
      (.presenting repeatCount (wireLens ++ [p.wireLen]) p.wireLen) sent
    rw [h] at hsound hsum
    refine { hs with
      workers := forall_setWorker hs.workers c ?_
      pipe := ?_ }
    · show sent + p.wireLen = (wireLens ++ [p.wireLen]).sum
      have hold : sent + 0 = wireLens.sum := hsound
      rw [List.sum_append, List.sum_singleton]
      omega
    · exact hs.pipe.trans (congrArg _ (Nat.add_right_cancel hsum).symm)
  | transfer c n repeatCount wireLens left sent h hn =>
    have hsound := hs.workers c
    have hsum : ∑ i, Worker.inflight ((s.setWorker c
        (.presenting repeatCount wireLens (left - n)) (sent + n)).workers i) + sent =
        ∑ i, (s.workers i).inflight + (sent + n) := by
      have := sum_setWorker Worker.inflight s c
        (.presenting repeatCount wireLens (left - n)) (sent + n)
      rwa [h] at this
    rw [h] at hsound
    refine { hs with
      workers := forall_setWorker hs.workers c ?_
      pipe := ?_ }
    · have hold : sent + left = wireLens.sum := hsound
      show sent + n + (left - n) = wireLens.sum
      omega
    · have hold := hs.pipe
      show s.pipe + n = s.charged + ∑ i, Worker.inflight ((s.setWorker c _ _).workers i)
      omega
  | stop c repeatCount wireLens left sent h hcut =>
    obtain rfl := Fits.unsent h hfits
    have hsum := sum_setWorker Worker.inflight s c .idle 0
    rw [h] at hsum
    exact { hs with
      workers := forall_setWorker hs.workers c trivial
      pipe := hs.pipe.trans (congrArg _ hsum.symm) }
  | charge c wireLens sent h =>
    obtain ⟨-, -, hdebt⟩ := hfits.charge_eq hs h
    have hsum : ∑ i, Worker.inflight ((s.setWorker c .idle sent).workers i) + sent =
        ∑ i, (s.workers i).inflight := by
      have := sum_setWorker Worker.inflight s c .idle sent
      rwa [h] at this
    rw [hfits.charge_state hmetered hs h]
    refine {
      clock := hs.clock
      credit := ⟨hdebt, ?_⟩
      stamp := hs.stamp
      workers := forall_setWorker hs.workers c trivial
      pipe := ?_ }
    · have hhigh := hs.credit.2
      show s.credit.bytes - (sent : ℤ) ≤ b.burst
      omega
    · have hold := hs.pipe
      show s.pipe = s.charged + sent + ∑ i, Worker.inflight ((s.setWorker c .idle sent).workers i)
      omega

/-! ### The credit that is given out -/

theorem asMicrosCeil_bounds {n : ℤ} (h₀ : 0 ≤ n) (h : n < 2 ^ 63) :
    0 ≤ asMicrosCeil n ∧ 1000 * asMicrosCeil n ≤ n + 999 ∧
      min n 9223372036854775000 ≤ 1000 * asMicrosCeil n := by
  unfold asMicrosCeil saturate64
  rw [Int.tdiv_eq_ediv_of_nonneg (by omega)]
  omega

/-- A top-up gives no more than the rate allows, but for a microsecond. -/
theorem idealWaitUs_bytes_le {credit : StreamCredit} {last now : ℕ}
    (hlast : credit.toppedUp = some last) (hle : last ≤ now) (hnow : now < 2 ^ 63) :
    1000000000 * (idealWaitUs b now credit).2.bytes ≤
      1000000000 * credit.bytes + b.bps * ((now : ℤ) - last) + 1000 * b.bps := by
  have hus : credit.elapsedUs now = asMicrosCeil ((now : ℤ) - last) := by
    unfold StreamCredit.elapsedUs
    rw [hlast]
  obtain ⟨hpos, hceil, -⟩ := asMicrosCeil_bounds (n := (now : ℤ) - last) (by omega) (by omega)
  have hmax : max (credit.elapsedUs now) 0 = asMicrosCeil ((now : ℤ) - last) := by omega
  have hbps : (0 : ℤ) ≤ b.bps := by positivity
  have hprod : 1000 * asMicrosCeil ((now : ℤ) - last) * b.bps ≤ ((now : ℤ) - last + 999) * b.bps :=
    mul_le_mul_of_nonneg_right hceil hbps
  unfold idealWaitUs
  simp only [hmax]
  generalize asMicrosCeil ((now : ℤ) - last) = us at *
  have hfloor : 1000000 * (us * b.bps / 1000000) ≤ us * b.bps := Int.mul_ediv_self_le (by norm_num)
  have hmin : min (credit.bytes + us * b.bps / 1000000) (b.burst : ℤ) ≤
      credit.bytes + us * b.bps / 1000000 := min_le_left _ _
  linarith

theorem idealWaitUs_bytes_le_burst (credit : StreamCredit) (now : ℕ) :
    (idealWaitUs b now credit).2.bytes ≤ b.burst :=
  min_le_right _ _

theorem idealWaitUs_reply (credit : StreamCredit) (now : ℕ) :
    (idealWaitUs b now credit).1 =
      if 0 ≤ (idealWaitUs b now credit).2.bytes then none
      else some (-(idealWaitUs b now credit).2.bytes * 1000000 / b.bps + 1) :=
  rfl

/-- A query lets its worker through when it leaves no debt. -/
theorem idealWaitUs_eq_none_iff (credit : StreamCredit) (now : ℕ) :
    (idealWaitUs b now credit).1 = none ↔ 0 ≤ (idealWaitUs b now credit).2.bytes := by
  rw [idealWaitUs_reply]
  split
  · next h => exact ⟨fun _ => h, fun _ => rfl⟩
  · next h => exact ⟨fun hnone => absurd hnone (Option.some_ne_none _), fun hle => absurd hle h⟩

variable (b)

/-- What has been given out since a state: the ledger and what was charged, and what was charged
for frames that are not the latest of their connector. -/
structure Covered (τ : ℕ) (s₀ s : State k) : Prop where
  ledger : ∃ last, s.credit.toppedUp = some last ∧
    1000000000 * (s.credit.bytes + ((s.charged : ℤ) - s₀.charged)) ≤
      1000000000 * b.burst + b.bps * ((last : ℤ) - τ) +
        1000 * b.bps * ((s.queries : ℤ) - s₀.queries)
  charged : 1000000000 * ((s.charged : ℤ) - s₀.charged) ≤
    1000000000 * (b.burst + ((∑ c, (s.workers c).settled : ℕ) : ℤ)) +
      b.bps * ((s.now : ℤ) - τ) + 1000 * b.bps * ((s.queries : ℤ) - s₀.queries)

/-- A worker that has read the clock, if at all, since an instant. -/
def Worker.Fresh (τ : ℕ) : Worker → Prop
  | ⟨.idle, _⟩ => True
  | ⟨.holding now, _⟩ => τ ≤ now
  | _ => False

/-- Nothing has been chosen since a state, nor is anything under way. -/
structure Quiet (τ : ℕ) (s₀ s : State k) : Prop where
  charged : s.charged = s₀.charged
  queries : s.queries = s₀.queries
  workers : ∀ c, (s.workers c).Fresh τ
  since : τ ≤ s.now

variable {b} {τ : ℕ} {s₀ : State k}

/-- Steps that touch neither the ledger nor what was charged. -/
theorem Covered.frame {s' : State k} (h : Covered b τ s₀ s) (hcredit : s'.credit = s.credit)
    (hcharged : s'.charged = s.charged) (hqueries : s'.queries = s.queries) (hnow : s.now ≤ s'.now)
    (hsettled : ∑ c, (s.workers c).settled ≤ ∑ c, (s'.workers c).settled) :
    Covered b τ s₀ s' := by
  constructor
  · rw [hcredit, hcharged, hqueries]
    exact h.ledger
  · have hold := h.charged
    have hbps : (b.bps : ℤ) * ((s.now : ℤ) - τ) ≤ b.bps * ((s'.now : ℤ) - τ) :=
      mul_le_mul_of_nonneg_left (by omega) (by positivity)
    rw [hcharged, hqueries]
    omega

/-- A top-up that leaves the ledger covered. -/
theorem covered_topUp (hmetered : b.bps ≠ unmetered) (hs : Booked b s) {c : Fin k} {now sent : ℕ}
    (hc : s.workers c = ⟨.holding now, sent⟩)
    (hledger : 1000000000 * ((idealWaitUs b now s.credit).2.bytes +
        ((s.charged : ℤ) - s₀.charged)) ≤
      1000000000 * b.burst + b.bps * ((now : ℤ) - τ) +
        1000 * b.bps * ((s.queries : ℤ) + 1 - s₀.queries))
    (hcharged : 1000000000 * ((s.charged : ℤ) - s₀.charged) ≤
      1000000000 * (b.burst + ((∑ c, (s.workers c).settled : ℕ) : ℤ)) +
        b.bps * ((s.now : ℤ) - τ) + 1000 * b.bps * ((s.queries : ℤ) - s₀.queries)) :
    Covered b τ s₀ (s.topUp b c now) := by
  have hbps : (0 : ℤ) ≤ b.bps := by positivity
  have hnow := hs.reading_le hc
  have hsum := sum_setWorker Worker.settled s c (.ofWait (idealWaitUs b now s.credit).1) sent
  rw [hc] at hsum
  rw [topUp_state hmetered hs hc]
  constructor
  · refine ⟨now, rfl, ?_⟩
    push_cast
    exact hledger
  · push_cast
    show 1000000000 * ((s.charged : ℤ) - s₀.charged) ≤
      1000000000 * (b.burst + _) + b.bps * ((s.now : ℤ) - τ) +
        1000 * b.bps * ((s.queries : ℤ) + 1 - s₀.queries)
    cases hwait : (idealWaitUs b now s.credit).1 with
    | some w =>
      rw [hwait] at hsum
      have hsame : ∑ i, Worker.settled ((s.setWorker c (.ofWait (some w)) sent).workers i) =
          ∑ i, (s.workers i).settled := Nat.add_right_cancel hsum
      have hcast := congrArg (Nat.cast (R := ℤ)) hsame
      push_cast at hcast hcharged
      linarith
    | none =>
      have hbytes := (idealWaitUs_eq_none_iff _ _).mp hwait
      have hlate : (b.bps : ℤ) * ((now : ℤ) - τ) ≤ b.bps * ((s.now : ℤ) - τ) :=
        mul_le_mul_of_nonneg_left (by omega) hbps
      have hsettled : (0 : ℤ) ≤
          (∑ i, Worker.settled ((s.setWorker c (.ofWait none) sent).workers i) : ℤ) := by
        positivity
      linarith

/-- **What has been given out stays covered.** -/
theorem Covered.step (hmetered : b.bps ≠ unmetered) (hs : Booked b s) (h : Covered b τ s₀ s)
    {a : Act k} (hfits : Fits b s a) : Covered b τ s₀ (step b s a) := by
  have hcases := step_spec b s a
  generalize Pacing.step b s a = s' at hcases
  -- a step of one worker moves only its own term of the sum
  have hframe : ∀ (c : Fin k) (phase : Phase) (sent : ℕ),
      (s.workers c).settled ≤ Worker.settled ⟨phase, sent⟩ →
        ∑ i, (s.workers i).settled ≤
          ∑ i, Worker.settled ((s.setWorker c phase sent).workers i) := by
    intro c phase sent hle
    have hsum := sum_setWorker Worker.settled s c phase sent
    omega
  cases hcases with
  | none => exact h
  | advance nanos _ => exact h.frame rfl rfl rfl (Nat.le_add_right _ _) le_rfl
  | readClock c sent hc =>
    exact h.frame rfl rfl rfl le_rfl (hframe c _ _ (by rw [hc]; exact le_rfl))
  | topUp c now sent hc =>
    obtain ⟨last, hlast, hledger⟩ := h.ledger
    have hstamp : last ≤ now := Fits.onTime hc hlast hfits
    have hnow := hs.reading_le hc
    have hgrow := idealWaitUs_bytes_le (b := b) hlast hstamp (lt_of_le_of_lt hnow hs.clock)
    refine covered_topUp hmetered hs hc ?_ h.charged
    linarith
  | skip c sent hc =>
    exact h.frame rfl rfl rfl le_rfl (hframe c _ _ (by rw [hc]; exact Nat.zero_le _))
  | start c repeatCount sent hc =>
    exact h.frame rfl rfl rfl le_rfl (hframe c _ _ (by rw [hc]; exact Nat.zero_le _))
  | present c p repeatCount wireLens sent hc =>
    exact h.frame rfl rfl rfl le_rfl (hframe c _ _ (by rw [hc]; exact Nat.zero_le _))
  | transfer c n repeatCount wireLens left sent hc _ =>
    exact h.frame rfl rfl rfl le_rfl (hframe c _ _ (by rw [hc]; exact Nat.zero_le _))
  | stop c repeatCount wireLens left sent hc _ =>
    exact h.frame rfl rfl rfl le_rfl (hframe c _ _ (by rw [hc]; exact Nat.zero_le _))
  | charge c wireLens sent hc =>
    have hsum : ∑ i, Worker.settled ((s.setWorker c .idle sent).workers i) =
        ∑ i, (s.workers i).settled + sent := by
      have := sum_setWorker Worker.settled s c .idle sent
      rwa [hc] at this
    rw [hfits.charge_state hmetered hs hc]
    constructor
    · obtain ⟨last, hlast, hledger⟩ := h.ledger
      refine ⟨last, hlast, ?_⟩
      show 1000000000 * (s.credit.bytes - (sent : ℤ) +
          (((s.charged + sent : ℕ) : ℤ) - s₀.charged)) ≤
        _ + _ + 1000 * b.bps * ((s.queries : ℤ) - s₀.queries)
      push_cast
      linarith
    · have hold := h.charged
      show 1000000000 * (((s.charged + sent : ℕ) : ℤ) - s₀.charged) ≤
        1000000000 * (b.burst +
            ((∑ i, Worker.settled ((s.setWorker c .idle sent).workers i) : ℕ) : ℤ)) +
          b.bps * ((s.now : ℤ) - τ) + 1000 * b.bps * ((s.queries : ℤ) - s₀.queries)
      rw [hsum]
      push_cast at hold ⊢
      linarith

/-- Where nothing is under way, the first effect on the ledger is a top-up. -/
theorem Quiet.step (hmetered : b.bps ≠ unmetered) (hs : Booked b s) (h : Quiet τ s₀ s)
    (a : Act k) : Quiet τ s₀ (step b s a) ∨ Covered b τ s₀ (step b s a) := by
  have hcases := step_spec b s a
  generalize Pacing.step b s a = s' at hcases
  -- the worker of any other action would be under way
  have hfresh : ∀ {c : Fin k} {w : Worker}, s.workers c = w → w.Fresh τ :=
    fun {c} _ hc => hc ▸ h.workers c
  cases hcases with
  | none => exact .inl h
  | advance nanos _ => exact .inl { h with since := le_trans h.since (Nat.le_add_right _ _) }
  | readClock c sent hc =>
    exact .inl { h with workers := forall_setWorker h.workers c h.since }
  | topUp c now sent hc =>
    have hsince : τ ≤ now := hfresh hc
    have hburst := idealWaitUs_bytes_le_burst (b := b) s.credit now
    have hcharged := h.charged
    have hqueries := h.queries
    have hτ := h.since
    have hbps : (0 : ℤ) ≤ b.bps := by positivity
    have hpaid : (0 : ℤ) ≤ b.bps * ((now : ℤ) - τ) := mul_nonneg hbps (by omega)
    have hspent : (0 : ℤ) ≤ b.bps * ((s.now : ℤ) - τ) := mul_nonneg hbps (by omega)
    have hsettled : (0 : ℤ) ≤ (∑ i, (s.workers i).settled : ℕ) := by positivity
    refine .inr (covered_topUp hmetered hs hc ?_ ?_)
    · rw [hcharged, hqueries]
      linarith
    · rw [hcharged, hqueries]
      linarith
  | skip c sent hc => exact (hfresh hc).elim
  | start c repeatCount sent hc => exact (hfresh hc).elim
  | present c p repeatCount wireLens sent hc => exact (hfresh hc).elim
  | transfer c n repeatCount wireLens left sent hc _ => exact (hfresh hc).elim
  | stop c repeatCount wireLens left sent hc _ => exact (hfresh hc).elim
  | charge c wireLens sent hc => exact (hfresh hc).elim

/-- What is covered is within the rate. -/
theorem Covered.withinRate (hs₀ : Booked b s₀) (hs : Booked b s) (h : Covered b τ s₀ s) :
    WithinRate b τ s₀ s := by
  have hcharged := h.charged
  have hpipe₀ := hs₀.pipe
  have hpipe := hs.pipe
  have hsplit : ∑ c, (s.workers c).settled + ∑ c, (s.workers c).inflight ≤
      ∑ c, (s.workers c).sent := by
    rw [← Finset.sum_add_distrib]
    exact Finset.sum_le_sum fun c _ => (s.workers c).settled_add_inflight_le
  unfold WithinRate
  omega

theorem Quiet.withinRate (hs₀ : Booked b s₀) (hs : Booked b s) (h : Quiet τ s₀ s) :
    WithinRate b τ s₀ s := by
  have hpipe₀ := hs₀.pipe
  have hpipe := hs.pipe
  have hidle : ∑ c, (s.workers c).inflight = 0 := by
    refine Finset.sum_eq_zero fun c _ => ?_
    have hfresh := h.workers c
    generalize s.workers c = w at hfresh ⊢
    rcases w with ⟨_ | _ | _ | _, sent⟩
    · rfl
    · rfl
    · exact hfresh.elim
    · exact hfresh.elim
  have hcharged := h.charged
  have htime : (0 : ℤ) ≤ b.bps * ((s.now : ℤ) - τ) :=
    mul_nonneg (by positivity) (by have := h.since; omega)
  unfold WithinRate
  rw [h.queries]
  omega

/-! ### The end of a wait -/

/-- What a top-up leaves is no debt, or it is what the time since the last one pays for. -/
theorem idealWaitUs_le_bytes {credit : StreamCredit} {last now : ℕ}
    (hlast : credit.toppedUp = some last) (hle : last ≤ now) (hnow : now < 2 ^ 63) :
    0 ≤ (idealWaitUs b now credit).2.bytes ∨
      b.bps * min ((now : ℤ) - last) 9223372036854775000 ≤
        1000 * (1000000 * ((idealWaitUs b now credit).2.bytes - credit.bytes) +
          (((credit.elapsedUs now).toNat * b.bps % 1000000 : ℕ) : ℤ)) := by
  have hus : credit.elapsedUs now = asMicrosCeil ((now : ℤ) - last) := by
    unfold StreamCredit.elapsedUs
    rw [hlast]
  obtain ⟨hpos, -, hceil⟩ := asMicrosCeil_bounds (n := (now : ℤ) - last) (by omega) (by omega)
  have hburst := b.burst_pos
  have hprod : min ((now : ℤ) - last) 9223372036854775000 * b.bps ≤
      1000 * asMicrosCeil ((now : ℤ) - last) * b.bps :=
    mul_le_mul_of_nonneg_right hceil (by positivity)
  unfold idealWaitUs
  simp only [hus]
  generalize asMicrosCeil ((now : ℤ) - last) = us at *
  obtain ⟨n, rfl⟩ := Int.eq_ofNat_of_zero_le hpos
  have hmax : max (n : ℤ) 0 = n := by omega
  rw [hmax, Int.toNat_natCast]
  have hdiv : (1000000 : ℤ) * ((n : ℤ) * b.bps / 1000000) + ((n * b.bps % 1000000 : ℕ) : ℤ) =
      n * b.bps := by
    push_cast
    exact Int.mul_ediv_add_emod _ _
  by_cases hclip : credit.bytes + (n : ℤ) * b.bps / 1000000 ≤ b.burst
  · right
    rw [min_eq_left hclip]
    linarith
  · left
    rw [min_eq_right (by omega)]
    omega

variable (b)

/-- How far the ledger has come back since a state in which a worker was refused at `start`. -/
def Recovering (start : ℕ) (s₁ s : State k) : Prop :=
  ∃ last, s.credit.toppedUp = some last ∧ start ≤ last ∧
    (0 ≤ s.credit.bytes ∨
      b.bps * min ((last : ℤ) - start) 9223372036854775000 ≤
        1000 * (1000000 * (s.credit.bytes - s₁.credit.bytes) + ((s.lost : ℤ) - s₁.lost)))

variable {b} {start : ℕ} {s₁ : State k}

theorem Recovering.topUp (hmetered : b.bps ≠ unmetered) (hs : Booked b s)
    (h : Recovering b start s₁ s) {c : Fin k} {now sent : ℕ}
    (hc : s.workers c = ⟨.holding now, sent⟩) (hfits : Fits b s (.topUp c)) :
    Recovering b start s₁ (s.topUp b c now) := by
  obtain ⟨last, hlast, hstart, hback⟩ := h
  have hstamp : last ≤ now := Fits.onTime hc hlast hfits
  have hnow := hs.reading_le hc
  have hgrow := idealWaitUs_le_bytes (b := b) hlast hstamp (lt_of_le_of_lt hnow hs.clock)
  rw [topUp_state hmetered hs hc]
  refine ⟨now, rfl, le_trans hstart hstamp, ?_⟩
  have hbps : (0 : ℤ) ≤ b.bps := by positivity
  have hp : 0 ≤ max (s.credit.elapsedUs now) 0 * (b.bps : ℤ) / 1000000 := by positivity
  rcases hback with hcredit | hdebt
  · left
    show 0 ≤ min (s.credit.bytes + max (s.credit.elapsedUs now) 0 * b.bps / 1000000)
      (b.burst : ℤ)
    omega
  rcases hgrow with hcredit | hgrow
  · exact .inl hcredit
  · right
    have hsplit : (b.bps : ℤ) * min ((now : ℤ) - start) 9223372036854775000 ≤
        b.bps * (min ((last : ℤ) - start) 9223372036854775000 +
          min ((now : ℤ) - last) 9223372036854775000) :=
      mul_le_mul_of_nonneg_left (by omega) hbps
    push_cast at hgrow ⊢
    linarith

theorem Recovering.step (hmetered : b.bps ≠ unmetered) (hs : Booked b s)
    (h : Recovering b start s₁ s) {a : Act k} (hfits : Fits b s a) (hcharge : ∀ d, a ≠ .charge d) :
    Recovering b start s₁ (step b s a) := by
  have hcases := step_spec b s a
  generalize Pacing.step b s a = s' at hcases
  cases hcases with
  | topUp c now sent hc => exact h.topUp hmetered hs hc hfits
  | charge c _ _ _ => exact absurd rfl (hcharge c)
  | _ => exact h

/-- **A wait is long enough.** -/
theorem Booked.letThroughAfterWait (hmetered : b.bps ≠ unmetered) (hs : Booked b s) :
    LetThroughAfterWait b s := by
  intro c now sent us es now' sent' hc hus hfits hcharge hc' hwait hlost
  have hfirst : Pacing.step b s (.topUp c) = s.topUp b c now := by
    simp only [Pacing.step, hc]
  obtain ⟨hfits₀, hfits⟩ := hfits
  obtain ⟨hfits, hfits', -⟩ := (along_append es [.topUp c] _).mp hfits
  have hs₁ := hs.step hmetered hfits₀
  have hstart : Recovering b now (Pacing.step b s (.topUp c)) (Pacing.step b s (.topUp c)) := by
    have hstamp : (Pacing.step b s (.topUp c)).credit.toppedUp = some now := by
      rw [hfirst, topUp_state hmetered hs hc]
      rfl
    exact ⟨now, hstamp, le_rfl, .inr (by simp)⟩
  generalize Pacing.step b s (.topUp c) = s₁ at *
  obtain ⟨hs', hback⟩ := run_invariant (P := fun s => Booked b s ∧ Recovering b now s₁ s)
    (C := fun s a => Fits b s a ∧ ∀ d, a ≠ .charge d)
    (fun s a hs hC => ⟨hs.1.step hmetered hC.1, hs.2.step hmetered hs.1 hC.1 hC.2⟩) es s₁
    ⟨hs₁, hstart⟩ (Along.and es s₁ hfits fun a ha d => fun had => hcharge d (had ▸ ha))
  generalize run (Pacing.step b) s₁ es = s' at *
  have hnow' : now' < 2 ^ 63 := lt_of_le_of_lt (hs'.reading_le hc') hs'.clock
  rw [streamBudgetWaitUs_eq hmetered hs'.credit, idealWaitUs_eq_none_iff]
  obtain ⟨last, hlast, -, hdone⟩ := hback.topUp hmetered hs' hc' hfits'
  rw [topUp_state hmetered hs' hc'] at hlast hdone
  obtain rfl : now' = last := Option.some.inj hlast
  rcases hdone with hcredit | hdone
  · exact hcredit
  · have hmin : 1000 * us ≤ min ((now' : ℤ) - now) 9223372036854775000 := by omega
    have hrate : (b.bps : ℤ) * (1000 * us) ≤
        b.bps * min ((now' : ℤ) - now) 9223372036854775000 :=
      mul_le_mul_of_nonneg_left hmin (by positivity)
    have hround : ((s'.credit.elapsedUs now').toNat * b.bps) % 1000000 < 1000000 :=
      Nat.mod_lt _ (by norm_num)
    simp only at hdone
    push_cast at hdone hround
    have hround' : (((s'.credit.elapsedUs now').toNat : ℤ) * b.bps) % 1000000 < 1000000 :=
      Int.emod_lt_of_pos _ (by norm_num)
    by_contra hneg
    have hlow : (idealWaitUs b now' s'.credit).2.bytes ≤ -1 := by omega
    linarith

/-! ### Runs -/

theorem booked_run (hmetered : b.bps ≠ unmetered) (es : List (Act k)) (hs : Booked b s)
    (h : Along (Fits b) (step b) s es) : Booked b (run (step b) s es) :=
  run_invariant (fun _ _ hs hfits => hs.step hmetered hfits) es s hs h

theorem covered_run (hmetered : b.bps ≠ unmetered) (es : List (Act k)) (hs : Booked b s)
    (hcov : Covered b τ s₀ s) (h : Along (Fits b) (step b) s es) :
    Covered b τ s₀ (run (step b) s es) :=
  (run_invariant (P := fun s => Booked b s ∧ Covered b τ s₀ s)
    (fun _ _ hs hfits => ⟨hs.1.step hmetered hfits, hs.2.step hmetered hs.1 hfits⟩) es s
    ⟨hs, hcov⟩ h).2

theorem quiet_run (hmetered : b.bps ≠ unmetered) (es : List (Act k)) (hs : Booked b s)
    (hquiet : Quiet τ s₀ s) (h : Along (Fits b) (step b) s es) :
    Quiet τ s₀ (run (step b) s es) ∨ Covered b τ s₀ (run (step b) s es) := by
  refine (run_invariant (P := fun s => Booked b s ∧ (Quiet τ s₀ s ∨ Covered b τ s₀ s))
    ?_ es s ⟨hs, .inl hquiet⟩ h).2
  rintro s a ⟨hs, hq | hc⟩ hfits
  · exact ⟨hs.step hmetered hfits, hq.step hmetered hs a⟩
  · exact ⟨hs.step hmetered hfits, .inr (hc.step hmetered hs hfits)⟩

theorem BelowBurst.covered (h : BelowBurst b s) : Covered b s.now s s := by
  obtain ⟨last, hlast, hbelow⟩ := h
  constructor
  · exact ⟨last, hlast, by linarith⟩
  · simp only [sub_self, mul_zero, add_zero]
    positivity

theorem Settled.quiet (h : Settled s) : Quiet s.now s s := by
  refine ⟨rfl, rfl, fun c => ?_, le_rfl⟩
  have hidle := h c
  generalize s.workers c = w at hidle ⊢
  obtain ⟨phase, sent⟩ := w
  cases hidle
  trivial

/-- **The rate since the last top-up.**  Whatever is under way at the first of two states, the
bound holds with the time counted from the top-up before it. -/
theorem withinRate_since_topUp (hmetered : b.bps ≠ unmetered) (hs : Booked b s) {last : ℕ}
    (hlast : s.credit.toppedUp = some last) (es : List (Act k))
    (h : Along (Fits b) (step b) s es) : WithinRate b last s (run (step b) s es) := by
  have hstamp := hs.stamp last hlast
  have htime : (0 : ℤ) ≤ b.bps * ((s.now : ℤ) - last) :=
    mul_nonneg (by positivity) (by omega)
  have hcov : Covered b last s s := by
    constructor
    · refine ⟨last, hlast, ?_⟩
      have hhigh := hs.credit.2
      simp only [sub_self, mul_zero, add_zero]
      omega
    · simp only [sub_self, mul_zero, add_zero]
      positivity
  exact (covered_run hmetered es hs hcov h).withinRate hs (booked_run hmetered es hs h)

/-- **What pacing guarantees.**  In a run whose steps all fit, the arithmetic is exact; what was
charged is what is on the pipe, but for the frames still under way; between two states of which
the first is settled, or has a ledger below the burst, the pipe takes no more than the budget, one
frame for each connector and a microsecond for each query; and a wait is long enough. -/
theorem pacing_enforces_rate (hmetered : b.bps ≠ unmetered) (es es' : List (Act k))
    (h : Along (Fits b) (step b) .new (es ++ es')) :
    Along (Exact b) (step b) .new (es ++ es') ∧
      (run (step b) .new es).pipe = (run (step b) .new es).charged +
        ∑ c, ((run (step b) .new es).workers c).inflight ∧
      (Settled (run (step b) .new es) ∨ BelowBurst b (run (step b) .new es) →
        WithinRate b (run (step b) .new es).now (run (step b) .new es)
          (run (step b) (run (step b) .new es) es')) ∧
      LetThroughAfterWait b (run (step b) .new es) := by
  obtain ⟨hes, hes'⟩ := (along_append es es' _).mp h
  have hs := booked_run hmetered es (booked_new b) hes
  have hs' := booked_run hmetered es' hs hes'
  refine ⟨?_, hs.pipe, ?_, hs.letThroughAfterWait hmetered⟩
  · exact Along.imp (fun _ _ hs hfits => Booked.step hmetered hs hfits)
      (fun _ _ hs hfits => Fits.exact hmetered hs hfits) (es ++ es') _ (booked_new b) h
  · rintro (hsettled | hbelow)
    · rcases quiet_run hmetered es' hs hsettled.quiet hes' with hquiet | hcov
      · exact hquiet.withinRate hs hs'
      · exact hcov.withinRate hs hs'
    · exact (covered_run hmetered es' hs hbelow.covered hes').withinRate hs hs'

/-! ### Runs of one dock -/

/-- The budget of the dock that shares its endpoint. -/
def ella : Budget := (setStreamPacing ⟨8000000, 24000000⟩).1

/-- A presentation of image records alone. -/
def records (n : ℕ) (h : n < 2 ^ 64) : Presentation := ⟨0, 0, 0, 0, n, 0, by omega⟩

/-- The query of a worker. -/
def query (c : Fin k) : List (Act k) := [.readClock c, .topUp c]

/-- A frame of one presentation, from the choice to the charge. -/
def frame (c : Fin k) (n : ℕ) (h : n < 2 ^ 64) : List (Act k) :=
  [.start c 1, .present c (records n h), .transfer c n, .charge c]

local instance neZero_one : NeZero 1 := ⟨by decide⟩

local instance neZero_two : NeZero 2 := ⟨by decide⟩

/-- An activation keyframe, and the query behind it. -/
def keyframe : List (Act 1) := query 0 ++ frame 0 9560000 (by decide) ++ query 0

theorem keyframe_paced :
    Along (Fits ella) (step ella) .new keyframe ∧
      WithinRate ella 0 .new (run (step ella) .new keyframe) := by
  have hfits : Along (Fits ella) (step ella) .new keyframe := by decide +kernel
  exact ⟨hfits, (pacing_enforces_rate (by decide) [] keyframe hfits).2.2.1 (.inl fun _ => rfl)⟩

/-- A keyframe of three presentations that a mode change cuts short behind the second. -/
def superseded : List (Act 1) :=
  query 0 ++ ([.start 0 3, .present 0 (records 1880000 (by decide)), .transfer 0 1880000,
    .advance 16000000, .present 0 (records 1880000 (by decide)), .transfer 0 1880000, .stop 0] :
      List (Act 1))

/-- A keyframe of three presentations, of which only the first carries the stream's opening. -/
def unequal : List (Act 1) :=
  query 0 ++ ([.start 0 3, .present 0 (records 2000 (by decide)), .transfer 0 2000,
    .present 0 (records 1000 (by decide)), .transfer 0 1000,
    .present 0 (records 1000 (by decide)), .transfer 0 1000, .charge 0] : List (Act 1))

/-- A frame that is under way while three seconds pass. -/
def underWay : List (Act 1) :=
  query 0 ++ ([.skip 0, .advance 3000000000] : List (Act 1)) ++ query 0 ++
    ([.start 0 1, .advance 3000000000] : List (Act 1))

/-- What follows it at once. -/
def atOnce : List (Act 1) :=
  ([.present 0 (records 20000000 (by decide)), .transfer 0 20000000, .charge 0] : List (Act 1)) ++
    query 0 ++ frame 0 24000000 (by decide) ++ query 0 ++ frame 0 24000000 (by decide)

/-- Two connectors of which the first tops the ledger up with a reading from before the second's
frame. -/
def overtaken : List (Act 2) :=
  query 1 ++ frame 1 40000000 (by decide) ++
    ([.readClock 0, .advance 4000000000] : List (Act 2)) ++
    query 1 ++ frame 1 32000000 (by decide) ++ ([.topUp 0] : List (Act 2)) ++
    query 1 ++ frame 1 32000000 (by decide)

/-- A budget that is no whole number of bytes a microsecond. -/
def uneven : Budget := (setStreamPacing ⟨1500000, 1500000⟩).1

/-- A debt of fifteen bytes. -/
def owing : List (Act 2) :=
  query 0 ++ frame 0 1500015 (by decide) ++ ([.readClock 0] : List (Act 2))

/-- Eleven microseconds, in each of which the sibling queries. -/
def polled : List (Act 2) :=
  (List.replicate 11 (.advance 1000 :: query 1)).flatten ++ ([.readClock 0] : List (Act 2))

/-- **The promise is broken.**  Keyframes cut short put 3 760 000 bytes each on the pipe and are
charged nothing, eight of them exceed the rate; presentations of unequal lengths are charged as
the last one; and a frame under way, an overtaken reading and the rounding of a sibling's top-ups
each break the bound, or the wait. -/
theorem superseded_uncharged :
    ((run (step ella) .new superseded).pipe = 3760000 ∧
      (run (step ella) .new superseded).charged = 0 ∧
      ¬ WithinRate ella 0 .new
        (run (step ella) .new (List.replicate 8 superseded).flatten)) ∧
    ((run (step ella) .new unequal).pipe = 4000 ∧
      (run (step ella) .new unequal).charged = 3000) ∧
    ¬ WithinRate ella (run (step ella) .new underWay).now (run (step ella) .new underWay)
      (run (step ella) (run (step ella) .new underWay) atOnce) ∧
    ¬ WithinRate ella 0 .new (run (step ella) .new overtaken) ∧
    ((streamBudgetWaitUs uneven 0 (run (step uneven) .new owing).credit).1 = some 11 ∧
      (streamBudgetWaitUs uneven 11000
        (run (step uneven) (run (step uneven) .new owing) (.topUp 0 :: polled)).credit).1 =
        some 3) := by
  decide +kernel

end Vino.Kms.Pacing
