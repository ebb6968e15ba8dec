import Vino.Lib.Run
import Vino.Lib.Spans

/-!
# The Control Link

Every control message of a session is sealed over the next blocks of one keystream and carries a
counter.  `send_cp_locked` and `send_presence_probe` advance both behind a transfer that succeeded;
the cold activation of a dock-wide dock draws its counters ahead and sends on them in another order.
The `cp_link` mutex makes each transaction one step, so a run is a list of transactions by whichever
threads, and an error of `ctrl_send` says nothing about what was delivered.

* `frames_fresh`: in every run in which a frame that met an error is followed by nothing but itself,
  and neither counter goes round, two frames that share a block are equal in plaintext, and so are
  two that carry one counter,
* `error_reuses_keystream`: behind an error the next message is sealed over the same blocks and
  carries the same counter.
-/

namespace Vino.Kms.ControlLink

open Vino.Lib.Run Vino.Lib.Spans

/-! ### The session -/

/-- A frame handed to `ctrl_send`: its blocks, the counter it carries, and its plaintext. -/
structure Frame where
  span : Span
  counter : UInt16
  content : List UInt8
  deriving DecidableEq

/-- The part of `CpLink` that sealing uses. -/
structure CpLink where
  wireSeq : UInt32
  counter : UInt16
  deriving DecidableEq

/-- The mode sets, markers and polls of a cold Navarro activation, in that order, by the counter
each of them is sent on. -/
def counterSlots : List ℕ :=
  [0, 3] ++ [1, 2, 4, 6, 8, 7, 10, 12, 11, 14, 16, 17, 20, 21, 26, 27] ++
    [5, 9, 13, 15, 18, 19, 22, 23, 24, 25]

def navarroColdCounters : ℕ := 28

/-- Counters drawn ahead, and the messages already sent on them. -/
structure Reservation where
  counters : List UInt16
  spent : List ℕ
  deriving DecidableEq

/-- How a transaction ends: answered, in an error of `ctrl_send`, and whether the silence of the
dock ends the session with it. -/
structure Outcome where
  sent : Bool
  abandoned : Bool
  deriving DecidableEq

structure State where
  cpLink : Option CpLink
  reservation : Option Reservation
  /-- The frames handed to `ctrl_send`. -/
  sealed : List Frame
  /-- The frame whose `ctrl_send` has returned an error, if it was the last. -/
  failed : Option Frame
  /-- Blocks and counters used up since the session was published. -/
  laid : ℕ
  drawn : ℕ
  deriving DecidableEq

/-- `publish_session`. -/
def State.publishSession (wireSeq : UInt32) (counter : UInt16) : State where
  cpLink := some ⟨wireSeq, counter⟩
  reservation := none
  sealed := []
  failed := none
  laid := 0
  drawn := 0

/-- A transaction; `build` makes the plaintext for the counter a message carries. -/
inductive Event where
  /-- `send_cp`, or `send_presence_probe` with the message it builds. -/
  | send (build : UInt16 → List UInt8) (r : Outcome)
  /-- `reserve_cp_counters`. -/
  | reserve
  /-- `send_cp_reserved`, for one message of the activation. -/
  | sendReserved (i : ℕ) (build : UInt16 → List UInt8) (r : Outcome)

/-! ### One transaction -/

def blocks (len : ℕ) : ℕ := (len + 15) / 16

/-- The frame of a message, sealed at the next free block. -/
def CpLink.frame (link : CpLink) (counter : UInt16) (build : UInt16 → List UInt8) : Frame :=
  ⟨⟨link.wireSeq, blocks (build counter).length⟩, counter, build counter⟩

/-- The message `i` of a reservation still has its counter. -/
def Reservation.token (r : Reservation) (i : ℕ) : Option UInt16 :=
  if i ∈ r.spent then none else counterSlots[i]?.bind fun slot => r.counters[slot]?

/-- The frame a transaction seals. -/
def State.frame (s : State) : Event → Option Frame
  | .send build _ => s.cpLink.map fun link => link.frame link.counter build
  | .sendReserved i build _ =>
      s.cpLink.bind fun link => (s.reservation.bind fun r => r.token i).map fun counter =>
        link.frame counter build
  | .reserve => none

/-- `send_cp_locked` behind the seal: the link advances with a transfer that succeeded. -/
def State.transact (s : State) (f : Frame) (draws : ℕ) (r : Outcome) : State :=
  if r.sent then
    { s with
      cpLink := if r.abandoned then none else s.cpLink.map fun link =>
        ⟨link.wireSeq + UInt32.ofNat f.span.len, link.counter + UInt16.ofNat draws⟩
      sealed := s.sealed ++ [f]
      failed := none
      laid := s.laid + f.span.len
      drawn := s.drawn + draws }
  else
    { s with
      cpLink := if r.abandoned then none else s.cpLink
      sealed := s.sealed ++ [f]
      failed := some f }

/-- `reserve_cp_counters`: consecutive counters, from the one that is next. -/
def CpLink.reserve (link : CpLink) (n : ℕ) : List UInt16 :=
  (List.range n).map fun k => link.counter + UInt16.ofNat k

/-- One transaction; without a link or a counter it is refused. -/
def step (s : State) (e : Event) : State :=
  match e with
  | .send _ r =>
      match s.frame e with
      | some f => s.transact f 1 r
      | none => s
  | .sendReserved i _ r =>
      match s.frame e with
      | some f =>
          { s.transact f 0 r with
            reservation := s.reservation.map fun t => { t with spent := i :: t.spent } }
      | none => s
  | .reserve =>
      match s.cpLink with
      | some link =>
          { s with
            cpLink := some { link with counter := link.counter + UInt16.ofNat navarroColdCounters }
            reservation := some ⟨link.reserve navarroColdCounters, []⟩
            drawn := s.drawn + navarroColdCounters }
      | none => s

/-! ### The condition -/

/-- The counters a transaction draws. -/
def Event.draws : Event → ℕ
  | .send .. => 1
  | .sendReserved .. => 0
  | .reserve => navarroColdCounters

def Event.isReserve : Event → Bool
  | .reserve => true
  | _ => false

/-- A frame that met an error is followed by the same frame, and neither the keystream nor the
counters go round. -/
def Settled (s : State) (e : Event) : Prop :=
  s.drawn + e.draws ≤ 2 ^ 16 ∧
    (∀ f ∈ s.frame e, s.laid + f.span.len ≤ 2 ^ 32 ∧ ∀ g ∈ s.failed, f = g) ∧
    (e.isReserve → s.cpLink ≠ none → s.failed = none)

/-! ### What the frames so far have used -/

/-- Two frames do not share a block unless they are equal in plaintext, and do not share a counter
unless they are. -/
def Fresh (f g : Frame) : Prop :=
  (f.content ≠ g.content → f.span.Disjoint g.span) ∧ (f.counter = g.counter → f.content = g.content)

variable {start : UInt32} {first : UInt16} {s : State}

/-- The frame lies among the blocks used up. -/
def Placed (start : UInt32) (s : State) (f : Frame) : Prop :=
  ∃ pos, f.span.seq = start + UInt32.ofNat pos ∧ pos + f.span.len ≤ s.laid

/-- A counter that was drawn and does not wait in the reservation. -/
def Used (first : UInt16) (s : State) (counter : UInt16) : Prop :=
  ∃ k < s.drawn, counter = first + UInt16.ofNat k ∧
    ∀ r ∈ s.reservation, ∀ i, r.token i ≠ some counter

structure Inv (start : UInt32) (first : UInt16) (s : State) : Prop where
  link : ∀ link ∈ s.cpLink, link.wireSeq = start + UInt32.ofNat s.laid ∧
    link.counter = first + UInt16.ofNat s.drawn
  drawn : s.drawn ≤ 2 ^ 16
  reservation : ∀ r ∈ s.reservation, ∃ base, base + navarroColdCounters ≤ s.drawn ∧
    r.counters = (List.range navarroColdCounters).map fun k => first + UInt16.ofNat (base + k)
  /-- A frame is settled, or it is the one that failed. -/
  settled : ∀ f ∈ s.sealed, s.failed = some f ∨ Placed start s f ∧ Used first s f.counter
  fresh : s.sealed.Pairwise Fresh

theorem inv_publishSession (wireSeq : UInt32) (counter : UInt16) :
    Inv wireSeq counter (.publishSession wireSeq counter) where
  link := by
    rintro link ⟨⟩
    exact ⟨by simp [State.publishSession], by simp [State.publishSession]⟩
  drawn := Nat.zero_le _
  reservation := nofun
  settled := nofun
  fresh := List.Pairwise.nil

/-! ### Counters and blocks -/

theorem counter_inj {a b : ℕ} (ha : a < 2 ^ 16) (hb : b < 2 ^ 16)
    (h : first + UInt16.ofNat a = first + UInt16.ofNat b) : a = b := by
  rw [UInt16.add_right_inj] at h
  have hmod : a % 2 ^ 16 = b % 2 ^ 16 := by
    simpa [UInt16.toNat_ofNat'] using congrArg UInt16.toNat h
  omega

/-- A span behind another. -/
theorem disjoint_of_le {a b : Span} {p q : ℕ} (ha : a.seq = start + UInt32.ofNat p)
    (hb : b.seq = start + UInt32.ofNat q) (hle : p + a.len ≤ q) (hfit : q + b.len ≤ 2 ^ 32) :
    a.Disjoint b := by
  have hlaid : Laid start 0 (q + b.len) [a, b] :=
    ⟨p, Nat.zero_le p, ha, q, hle, hb, Nat.le_refl _⟩
  have hpair := hlaid.pairwise_disjoint (by omega)
  exact (List.pairwise_cons.1 hpair).1 b List.mem_cons_self

theorem counterSlots_nodup : counterSlots.Nodup := by decide

/-- The counter of a message of the activation. -/
theorem token_eq {r : Reservation} {base i : ℕ} {c : UInt16}
    (hr : r.counters = (List.range navarroColdCounters).map fun k => first + UInt16.ofNat (base + k))
    (h : r.token i = some c) : i ∉ r.spent ∧ ∃ slot < navarroColdCounters,
      counterSlots[i]? = some slot ∧ c = first + UInt16.ofNat (base + slot) := by
  unfold Reservation.token at h
  split_ifs at h with hspent
  obtain ⟨slot, hslot, hc⟩ := Option.bind_eq_some_iff.1 h
  rw [hr, List.getElem?_map, Option.map_eq_some_iff] at hc
  obtain ⟨k, hk, rfl⟩ := hc
  obtain ⟨hlt, rfl⟩ := List.getElem?_eq_some_iff.1 hk
  rw [List.length_range] at hlt
  rw [List.getElem_range]
  exact ⟨hspent, slot, hlt, hslot, rfl⟩

/-- Two messages of an activation have different counters. -/
theorem token_inj {r : Reservation} {base i j : ℕ} {c : UInt16}
    (hr : r.counters = (List.range navarroColdCounters).map fun k => first + UInt16.ofNat (base + k))
    (hbase : base + navarroColdCounters ≤ 2 ^ 16) (hi : r.token i = some c)
    (hj : r.token j = some c) : i = j := by
  obtain ⟨-, a, ha, hia, rfl⟩ := token_eq hr hi
  obtain ⟨-, b, hb, hjb, heq⟩ := token_eq hr hj
  have hab : a = b := by
    have h := counter_inj (by omega) (by omega) heq
    omega
  subst hab
  obtain ⟨hlti, hgi⟩ := List.getElem?_eq_some_iff.1 hia
  obtain ⟨hltj, hgj⟩ := List.getElem?_eq_some_iff.1 hjb
  exact (List.Nodup.getElem_inj_iff counterSlots_nodup).1 (hgi.trans hgj.symm)

/-! ### One transaction -/

/-- What a frame must satisfy to be sealed next. -/
structure Next (start : UInt32) (first : UInt16) (s : State) (f : Frame) : Prop where
  seq : f.span.seq = start + UInt32.ofNat s.laid
  fits : s.laid + f.span.len ≤ 2 ^ 32
  again : ∀ g ∈ s.failed, f = g
  counter : ∀ c, Used first s c → f.counter ≠ c

/-- **The next frame is fresh.** -/
theorem Next.fresh {f : Frame} (hf : Next start first s f) (hs : Inv start first s) :
    (s.sealed ++ [f]).Pairwise Fresh := by
  refine List.pairwise_append.2 ⟨hs.fresh, List.pairwise_singleton _ _, fun g hg f' hf' => ?_⟩
  obtain rfl := List.mem_singleton.1 hf'
  rcases hs.settled g hg with hfailed | ⟨⟨pos, hpos, hle⟩, hused⟩
  · obtain rfl := hf.again g hfailed
    exact ⟨fun hne => absurd rfl hne, fun _ => rfl⟩
  · exact ⟨fun _ => disjoint_of_le hpos hf.seq hle hf.fits,
      fun heq => absurd heq.symm (hf.counter _ hused)⟩

/-- The tokens of a later reservation were there before. -/
def Shrinks (s s' : State) : Prop :=
  ∀ r' ∈ s'.reservation, ∀ i c, r'.token i = some c → ∃ r ∈ s.reservation, r.token i = some c

theorem Used.mono {s' : State} {c : UInt16} (h : Used first s c) (hdrawn : s.drawn ≤ s'.drawn)
    (hres : Shrinks s s') : Used first s' c := by
  obtain ⟨k, hk, hc, hfree⟩ := h
  refine ⟨k, by omega, hc, fun r' hr' i hi => ?_⟩
  obtain ⟨r, hr, htoken⟩ := hres r' hr' i c hi
  exact hfree r hr i htoken

theorem Placed.mono {s' : State} {f : Frame} (h : Placed start s f) (hlaid : s.laid ≤ s'.laid) :
    Placed start s' f := by
  obtain ⟨pos, hpos, hle⟩ := h
  exact ⟨pos, hpos, by omega⟩

/-- The frames behind a transaction: settled ones stay so, and the new one is settled or failed. -/
theorem settled_behind {s' : State} {f : Frame} (hs : Inv start first s)
    (hf : Next start first s f) (hlaid : s.laid ≤ s'.laid) (hdrawn : s.drawn ≤ s'.drawn)
    (hres : Shrinks s s')
    (hnew : s'.failed = some f ∨ Placed start s' f ∧ Used first s' f.counter) :
    ∀ g ∈ s.sealed ++ [f], s'.failed = some g ∨ Placed start s' g ∧ Used first s' g.counter := by
  intro g hg
  rcases List.mem_append.1 hg with hold | hlast
  · rcases hs.settled g hold with hfailed | ⟨hplaced, hused⟩
    · obtain rfl := hf.again g hfailed
      exact hnew
    · exact .inr ⟨hplaced.mono hlaid, hused.mono hdrawn hres⟩
  · obtain rfl := List.mem_singleton.1 hlast
    exact hnew

/-- The link keeps in step with what is used up. -/
theorem link_behind (hs : Inv start first s) (f : Frame) (draws : ℕ) (r : Outcome) :
    ∀ link ∈ (s.transact f draws r).cpLink,
      link.wireSeq = start + UInt32.ofNat (s.transact f draws r).laid ∧
        link.counter = first + UInt16.ofNat (s.transact f draws r).drawn := by
  intro link' hlink'
  obtain ⟨sent, abandoned⟩ := r
  cases abandoned with
  | true => cases sent <;> cases hlink'
  | false =>
      cases sent with
      | false => exact hs.link link' hlink'
      | true =>
          obtain ⟨link, hlink, rfl⟩ := Option.map_eq_some_iff.1 hlink'
          obtain ⟨hseq, hcounter⟩ := hs.link link hlink
          constructor
          · rw [hseq, UInt32.add_assoc, ← UInt32.ofNat_add]
            rfl
          · rw [hcounter, UInt16.add_assoc, ← UInt16.ofNat_add]
            rfl

theorem inv_send {build : UInt16 → List UInt8} {r : Outcome} (hs : Inv start first s)
    (hc : Settled s (.send build r)) : Inv start first (step s (.send build r)) := by
  simp only [step]
  split
  case h_2 => exact hs
  case h_1 f hframe =>
    obtain ⟨hdraw, hok, -⟩ := hc
    replace hdraw : s.drawn + 1 ≤ 2 ^ 16 := hdraw
    obtain ⟨hfit, hagain⟩ := hok f hframe
    obtain ⟨link, hlink, rfl⟩ := Option.map_eq_some_iff.1 hframe
    obtain ⟨hseq, hcounter⟩ := hs.link link hlink
    have hnext : Next start first s (link.frame link.counter build) := by
      refine ⟨hseq, hfit, hagain, fun c hused heq => ?_⟩
      obtain ⟨k, hk, rfl, -⟩ := hused
      have h := counter_inj (by omega) (by omega) (hcounter.symm.trans heq)
      omega
    have hshrink : ∀ s' : State, s'.reservation = s.reservation → Shrinks s s' :=
      fun s' h r' hr' i c hi => ⟨r', h ▸ hr', hi⟩
    have hlinks := link_behind hs (link.frame link.counter build) 1 r
    cases hsent : r.sent with
    | true =>
        simp only [State.transact, hsent, if_true] at hlinks ⊢
        refine ⟨hlinks, hdraw, ?_, ?_, hnext.fresh hs⟩
        · intro r' hr'
          obtain ⟨base, hbase, hcounters⟩ := hs.reservation r' hr'
          exact ⟨base, by dsimp only; omega, hcounters⟩
        · refine settled_behind hs hnext (Nat.le_add_right _ _) (Nat.le_add_right _ _)
            (hshrink _ rfl) (.inr ⟨⟨s.laid, hseq, Nat.le_refl _⟩, s.drawn, Nat.lt_succ_self _,
              hcounter, fun r' hr' i hi => ?_⟩)
          obtain ⟨base, hbase, hcounters⟩ := hs.reservation r' hr'
          obtain ⟨-, slot, hslot, -, heq⟩ := token_eq hcounters hi
          have h := counter_inj (by omega) (by omega) (hcounter.symm.trans heq)
          omega
    | false =>
        simp only [State.transact, hsent, Bool.false_eq_true, if_false] at hlinks ⊢
        exact ⟨hlinks, hs.drawn, hs.reservation, settled_behind hs hnext (Nat.le_refl _)
          (Nat.le_refl _) (hshrink _ rfl) (.inl rfl), hnext.fresh hs⟩

theorem inv_sendReserved {i : ℕ} {build : UInt16 → List UInt8} {r : Outcome}
    (hs : Inv start first s) (hc : Settled s (.sendReserved i build r)) :
    Inv start first (step s (.sendReserved i build r)) := by
  simp only [step]
  split
  case h_2 => exact hs
  case h_1 f hframe =>
    obtain ⟨-, hok, -⟩ := hc
    obtain ⟨hfit, hagain⟩ := hok f hframe
    obtain ⟨link, hlink, hsome⟩ := Option.bind_eq_some_iff.1 hframe
    obtain ⟨c, htoken, rfl⟩ := Option.map_eq_some_iff.1 hsome
    obtain ⟨t, ht, htoken⟩ := Option.bind_eq_some_iff.1 htoken
    obtain ⟨hseq, -⟩ := hs.link link hlink
    obtain ⟨base, hbase, hcounters⟩ := hs.reservation t ht
    obtain ⟨hfree, slot, hslot, hi, hc⟩ := token_eq hcounters htoken
    have hdrawn := hs.drawn
    have hnext : Next start first s (link.frame c build) :=
      ⟨hseq, hfit, hagain, fun c' ⟨_, _, _, hused⟩ heq => hused t ht i (htoken.trans (by rw [← heq]; rfl))⟩
    -- The message takes its counter out of the reservation.
    have hspent : ∀ r' ∈ s.reservation.map fun t => { t with spent := i :: t.spent },
        r' = { t with spent := i :: t.spent } := by
      rintro r' hr'
      rw [ht] at hr'
      exact (Option.mem_some.1 hr').symm
    have hless : ∀ j c', Reservation.token { t with spent := i :: t.spent } j = some c' →
        j ≠ i ∧ t.token j = some c' := by
      intro j c' hj
      unfold Reservation.token at hj ⊢
      split_ifs at hj with hmem
      have hne : j ≠ i ∧ j ∉ t.spent := by simpa using hmem
      exact ⟨hne.1, by rw [if_neg hne.2]; exact hj⟩
    have hused : Used first { s with
        reservation := s.reservation.map fun t => { t with spent := i :: t.spent } } c := by
      refine ⟨base + slot, by dsimp only; omega, hc, fun r' hr' j hj => ?_⟩
      rw [hspent r' hr'] at hj
      obtain ⟨hne, hj⟩ := hless j c hj
      exact hne (token_inj hcounters (by omega) hj htoken)
    have hshrink : ∀ s' : State,
        s'.reservation = (s.reservation.map fun t => { t with spent := i :: t.spent }) →
        Shrinks s s' := by
      intro s' h r' hr' j c' hj
      rw [h] at hr'
      rw [hspent r' hr'] at hj
      exact ⟨t, ht, (hless j c' hj).2⟩
    have hreserved : ∀ r' ∈ s.reservation.map fun t => { t with spent := i :: t.spent },
        ∃ base, base + navarroColdCounters ≤ s.drawn ∧ r'.counters =
          (List.range navarroColdCounters).map fun k => first + UInt16.ofNat (base + k) := by
      intro r' hr'
      rw [hspent r' hr']
      exact ⟨base, hbase, hcounters⟩
    have hlinks := link_behind hs (link.frame c build) 0 r
    cases hsent : r.sent with
    | true =>
        simp only [State.transact, hsent, if_true] at hlinks ⊢
        exact ⟨hlinks, hdrawn, hreserved, settled_behind hs hnext (Nat.le_add_right _ _)
          (Nat.le_refl _) (hshrink _ rfl) (.inr ⟨⟨s.laid, hseq, Nat.le_refl _⟩, hused⟩),
          hnext.fresh hs⟩
    | false =>
        simp only [State.transact, hsent, Bool.false_eq_true, if_false] at hlinks ⊢
        exact ⟨hlinks, hdrawn, hreserved, settled_behind hs hnext (Nat.le_refl _) (Nat.le_refl _)
          (hshrink _ rfl) (.inl rfl), hnext.fresh hs⟩

theorem inv_reserve (hs : Inv start first s) (hc : Settled s .reserve) :
    Inv start first (step s .reserve) := by
  simp only [step]
  split
  case h_2 => exact hs
  case h_1 link hlink =>
    obtain ⟨hdraw, -, hnone⟩ := hc
    replace hdraw : s.drawn + navarroColdCounters ≤ 2 ^ 16 := hdraw
    have hfailed : s.failed = none := hnone rfl (by rw [hlink]; nofun)
    obtain ⟨hseq, hcounter⟩ := hs.link link hlink
    have hcounters : link.reserve navarroColdCounters =
        (List.range navarroColdCounters).map fun k => first + UInt16.ofNat (s.drawn + k) := by
      refine List.map_congr_left fun k _ => ?_
      rw [hcounter, UInt16.add_assoc, ← UInt16.ofNat_add]
    refine ⟨?_, hdraw, ?_, fun f hf => ?_, hs.fresh⟩
    · rintro link' ⟨⟩
      dsimp only
      rw [hcounter, UInt16.add_assoc, ← UInt16.ofNat_add]
      exact ⟨hseq, rfl⟩
    · rintro r' ⟨⟩
      exact ⟨s.drawn, Nat.le_refl _, hcounters⟩
    · rcases hs.settled f hf with hf' | ⟨hplaced, k, hk, hc, -⟩
      · rw [hfailed] at hf'
        cases hf'
      · refine .inr ⟨hplaced, k, by dsimp only; omega, hc, ?_⟩
        rintro r' ⟨⟩ i hi
        obtain ⟨-, slot, hslot, -, heq⟩ := token_eq hcounters hi
        have h := counter_inj (by omega) (by omega) (hc.symm.trans heq)
        omega

theorem inv_step (s : State) (e : Event) (hs : Inv start first s) (hc : Settled s e) :
    Inv start first (step s e) := by
  cases e with
  | send build r => exact inv_send hs hc
  | sendReserved i build r => exact inv_sendReserved hs hc
  | reserve => exact inv_reserve hs hc

/-! ### Runs -/

/-- **No block and no counter serves two messages** in every run in which a frame that met an error
is followed by nothing but itself, and neither counter goes round. -/
theorem frames_fresh (wireSeq : UInt32) (counter : UInt16) (es : List Event)
    (hrun : Along Settled step (.publishSession wireSeq counter) es) :
    (run step (.publishSession wireSeq counter) es).sealed.Pairwise Fresh :=
  (run_invariant (P := Inv wireSeq counter) inv_step es _ (inv_publishSession wireSeq counter)
    hrun).fresh

/-- A message of two bytes that carries its counter. -/
def message (tag : UInt8) (counter : UInt16) : List UInt8 := [tag, counter.toUInt8]

/-- A poll, an activation with a mode set on a reserved counter, a probe that meets an error and is
repeated, and a marker of the activation. -/
def repeated : List Event :=
  [.send (message 1) ⟨true, false⟩, .reserve, .sendReserved 0 (message 2) ⟨true, false⟩,
    .send (message 3) ⟨false, false⟩, .send (message 3) ⟨true, false⟩,
    .sendReserved 2 (message 4) ⟨true, false⟩]

theorem settled_repeated : Along Settled step (.publishSession 7 9) repeated := by
  refine ⟨?_, ?_, ?_, ?_, ?_, ?_, trivial⟩ <;> refine ⟨by decide, ?_, by decide⟩ <;>
    rintro f hf <;> cases hf <;> exact ⟨by decide, by decide⟩

theorem frames_fresh_repeated : Along Settled step (.publishSession 7 9) repeated ∧
    (run step (.publishSession 7 9) repeated).sealed.length = 5 ∧
    (run step (.publishSession 7 9) repeated).sealed.Pairwise Fresh :=
  ⟨settled_repeated, by decide, frames_fresh 7 9 repeated settled_repeated⟩

/-- **Behind an error of `ctrl_send`** the next message is sealed over the blocks of the one that
may have been delivered, and carries its counter. -/
theorem error_reuses_keystream : ¬ (run step (.publishSession 7 9)
    [.send (message 3) ⟨false, false⟩, .send (message 1) ⟨true, false⟩]).sealed.Pairwise Fresh := by
  have hsealed : (run step (.publishSession 7 9)
      [.send (message 3) ⟨false, false⟩, .send (message 1) ⟨true, false⟩]).sealed =
        [⟨⟨7, 1⟩, 9, [3, 9]⟩, ⟨⟨7, 1⟩, 9, [1, 9]⟩] := by decide
  rw [hsealed]
  intro hfresh
  have hpair := (List.pairwise_cons.1 hfresh).1 _ List.mem_cons_self
  exact hpair.1 (by decide) 0 Nat.one_pos 0 Nat.one_pos rfl

end Vino.Kms.ControlLink
