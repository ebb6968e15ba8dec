import Vino.Session.Calls
import Vino.Cp.EdidBlocks

/-!
# Which EDID the Readiness Gate Lets Through

A dock that reports when its downstream read is complete has every EDID dropped that was offered
before the report.  The transaction looks at the report only at three gates, and what it has drained
between two of them it judges as a whole.  Here the transaction is run with a log of what it drains
and of its gates, and the log decides what is returned.

* `fetchEdid_eq`: the log is only added,
* `Logged.honest_iff`: between an EDID and the first report behind it there must be a gate,
* `fetch_gated_iff`: the same of every call.
-/

namespace Vino.Session.Readiness

open Vino.Cp.Messages Vino.Cp.Replies Vino.Cp.Seal Vino.Cp.EdidBlocks Vino.Lib.Effect Vino.Profile

/-! ### The transaction with a log -/

/-- What the transaction did: it drained a reply, drained one in the final fetches, whose readiness
nobody looks at, or passed a gate. -/
inductive Entry where
  | drained (reply : List UInt8)
  | fetched (reply : List UInt8)
  | gate
  deriving DecidableEq

def Entry.reply? : Entry → Option (List UInt8)
  | .drained reply => some reply
  | .fetched reply => some reply
  | .gate => none

/-- How the replies of a call are read: its EDID, whether it reports readiness to the transaction,
and whether its presence status has the readiness bit. -/
structure Decoders where
  edid : List UInt8 → Option (List UInt8)
  poll : List UInt8 → Bool
  status : List UInt8 → Bool

def decoders (c : Crypto) (key : Key) (nonce : Nonce) : Decoders where
  edid := parseEdidFromReply c key nonce
  poll reply := edidPollReady c key nonce reply == some true
  status reply := ((probeReplyStatus c key nonce reply).map fun s => s.2.2) == some true

/-- What the transaction has learned, the log, and the log up to the reply its EDID is from. -/
structure Logged extends Fetch where
  log : List Entry
  taken : Option (List Entry)

namespace Logged

/-- A reply is drained: its EDID is taken if none was. -/
def see (D : Decoders) (l : Logged) (e : Entry) (reply : List UInt8) (ready : Bool) : Logged where
  edid := l.edid.or (D.edid reply)
  ready := ready
  log := l.log ++ [e]
  taken := if l.edid.isSome then l.taken else if (D.edid reply).isSome then some (l.log ++ [e]) else none

def drained (D : Decoders) (l : Logged) (reply : List UInt8) : Logged :=
  l.see D (.drained reply) reply (l.ready || D.poll reply)

def fetched (D : Decoders) (l : Logged) (reply : List UInt8) : Logged :=
  l.see D (.fetched reply) reply l.ready

/-- A gate is passed. -/
def settle (gate : Bool) (l : Logged) : Logged where
  toFetch := Session.settle gate l.toFetch
  log := l.log ++ [.gate]
  taken := if gate ∧ ¬l.ready then none else l.taken

def start : Logged := ⟨⟨none, false⟩, [], none⟩

end Logged

section Program

variable (c : Crypto) (head : UInt8) (gate : Bool)

/-- Drain a reply; `see` says what becomes of it. -/
def drainWith (see : Decoders → Logged → List UInt8 → Logged) (l : Logged) : SessionM Logged := do
  let w ← get
  let a ← ask
  match a.reply with
  | .error .timeout => return l
  | .error e => throw (.transport e)
  | .ok reply => return see (decoders c w.controlKey w.controlNonce) l reply

def exchangeLogged (id : UInt16) (build : UInt16 → Rng → List UInt8) (l : Logged) :
    SessionM Logged := do
  sendMessage id build
  drainWith c Logged.drained l

def awaitLogged : ℕ → Logged → SessionM Logged
  | 0, l => pure l
  | n + 1, l =>
      if l.edid.isSome then pure l
      else do
        let l ← drainWith c Logged.drained l
        awaitLogged n l

def earlyLogged : ℕ → Logged → SessionM Logged
  | 0, l => pure l
  | n + 1, l =>
      if (l.settle gate).edid.isSome then pure (l.settle gate)
      else do
        let l ← exchangeLogged c 0x15 (fun counter => getEdidReqSub counter 0x20 head)
          (l.settle gate)
        let l ← exchangeLogged c 0x15 (fun counter => getEdidReqSub counter 0x20 head) l
        let l ← exchangeLogged c 0x16 (fun counter => edidReadinessKick counter head) l
        let l ← exchangeLogged c 0x15 (fun counter => getEdidReq counter head) l
        if (l.settle gate).edid.isSome then pure (l.settle gate)
        else do
          let a ← ask
          let l ← awaitLogged c a.rounds (l.settle gate)
          earlyLogged n l

def probeLogged (i : ℕ) (l : Logged) : SessionM Logged :=
  if i % pollProbeEvery = pollProbeEvery - 1 then
    exchangeLogged c 0x15 (fun counter => getEdidReqSub counter 0x20 head) l
  else pure l

def pollLogged : ℕ → ℕ → Logged → SessionM Logged
  | 0, _, l => pure l
  | n + 1, i, l => do
      let a ← ask
      if l.edid.isSome ∨ l.ready ∨ a.expired then pure l
      else do
        let l ← exchangeLogged c 0x14 (fun counter => deviceQueryReq counter 0x000c) l
        let l ← probeLogged c head i l
        pollLogged n (i + 1) l

def finalLogged : ℕ → Logged → SessionM Logged
  | 0, l => pure l
  | n + 1, l =>
      if l.edid.isSome then pure l
      else do
        sendMessage 0x15 fun counter => getEdidReq counter head
        let l ← drainWith c Logged.fetched l
        finalLogged n l

def lateLogged (l : Logged) : SessionM Logged :=
  if l.edid.isSome then pure l
  else do
    let l ← pollLogged c head pollIters 0 l
    finalLogged c head finalFetchRounds l

/-- The transaction up to its last gate, with the log of what it drained. -/
def fetchLogged : SessionM Logged := do
  let w ← get
  let gate := w.dock.profile.quirks.edidReadyReported
  let l ← earlyLogged c head gate earlyRounds .start
  let l ← exchangeLogged c 0x16 (fun counter => edidEngageReq counter head) l
  let l ← exchangeLogged c 0x16 (fun counter => edidEngageReq counter head) l
  let l ← lateLogged c head (l.settle gate)
  let l ← exchangeLogged c 0x15 (fun counter => postEdidQuery counter head) l
  return l.settle gate

end Program

/-! ### The log is only added -/

section Erase

variable (c : Crypto) (head : UInt8) (gate : Bool)

theorem drainWith_run (see : Decoders → Logged → List UInt8 → Logged) (l : Logged) (w : World) :
    drainWith c see l w =
      match (w.answers w.time).reply with
      | .error .timeout => .ok l w.tick
      | .error e => .error (.transport e) w.tick
      | .ok reply => .ok (see (decoders c w.controlKey w.controlNonce) l reply) w.tick := by
  show (match (w.answers w.time).reply with
    | .error .timeout => pure l
    | .error e => throw (.transport e)
    | .ok reply => pure (see (decoders c w.controlKey w.controlNonce) l reply) : SessionM Logged)
      w.tick = _
  rcases (w.answers w.time).reply with e | reply
  · cases e <;> rfl
  · rfl

theorem drainOnce_run (edid : Option (List UInt8)) (w : World) :
    drainOnce c edid w =
      match (w.answers w.time).reply with
      | .error .timeout => .ok (edid, false) w.tick
      | .error e => .error (.transport e) w.tick
      | .ok reply => .ok (edid.or ((decoders c w.controlKey w.controlNonce).edid reply),
          (decoders c w.controlKey w.controlNonce).poll reply) w.tick := by
  show (match (w.answers w.time).reply with
    | .error .timeout => pure (edid, false)
    | .error e => throw (.transport e)
    | .ok reply => pure (edid.or ((decoders c w.controlKey w.controlNonce).edid reply),
        (decoders c w.controlKey w.controlNonce).poll reply) :
          SessionM (Option (List UInt8) × Bool)) w.tick = _
  rcases (w.answers w.time).reply with e | reply
  · cases e <;> rfl
  · rfl

theorem map_run {α β : Type} (f : α → β) (m : SessionM α) (w : World) :
    (f <$> m) w = match m w with
      | .ok a w' => .ok (f a) w'
      | .error e w' => .error e w' := by
  show EStateM.map f m w = _
  unfold EStateM.map
  cases m w <;> rfl

theorem drain_eq (l : Logged) :
    drain c l.toFetch = Logged.toFetch <$> drainWith c Logged.drained l := by
  have hdrain : drain c l.toFetch = (fun d => Fetch.mk d.1 (l.ready || d.2)) <$>
      drainOnce c l.edid := map_eq_pure_bind _ _ |>.symm
  rw [hdrain]
  funext w
  rw [map_run, map_run, drainWith_run, drainOnce_run]
  rcases (w.answers w.time).reply with e | reply
  · cases e
    · simp
    all_goals rfl
  · rfl

theorem drainFetched_eq (l : Logged) :
    (fun d => { l.toFetch with edid := d.1 }) <$> drainOnce c l.edid =
      Logged.toFetch <$> drainWith c Logged.fetched l := by
  funext w
  rw [map_run, map_run, drainWith_run, drainOnce_run]
  rcases (w.answers w.time).reply with e | reply
  · cases e
    all_goals rfl
  · rfl

theorem exchange_eq (id : UInt16) (build : UInt16 → Rng → List UInt8) (l : Logged) :
    exchange c id build l.toFetch = Logged.toFetch <$> exchangeLogged c id build l := by
  unfold exchange exchangeLogged
  rw [map_bind]
  exact bind_congr fun _ => drain_eq c l

theorem awaitEdid_eq : ∀ (n : ℕ) (l : Logged),
    awaitEdid c n l.toFetch = Logged.toFetch <$> awaitLogged c n l
  | 0, l => rfl
  | n + 1, l => by
      unfold awaitEdid awaitLogged
      split_ifs
      · rfl
      · rw [drain_eq, map_bind, bind_map_left]
        exact bind_congr fun l => awaitEdid_eq n l

theorem early_eq : ∀ (n : ℕ) (l : Logged),
    early c head gate n l.toFetch = Logged.toFetch <$> earlyLogged c head gate n l
  | 0, l => rfl
  | n + 1, l => by
      have hsettle : ∀ l : Logged, settle gate l.toFetch = (l.settle gate).toFetch := fun _ => rfl
      unfold early earlyLogged
      rw [hsettle]
      split_ifs
      · rfl
      · simp only [exchange_eq, map_bind, bind_map_left]
        refine bind_congr fun l => bind_congr fun l => bind_congr fun l => bind_congr fun l => ?_
        rw [hsettle]
        split_ifs
        · rfl
        · rw [map_bind]
          refine bind_congr fun a => ?_
          rw [awaitEdid_eq, map_bind, bind_map_left]
          exact bind_congr fun l => early_eq n l

theorem probeEvery_eq (i : ℕ) (l : Logged) :
    probeEvery c head i l.toFetch = Logged.toFetch <$> probeLogged c head i l := by
  unfold probeEvery probeLogged
  split_ifs
  · exact exchange_eq c _ _ l
  · rfl

theorem pollReady_eq : ∀ (n i : ℕ) (l : Logged),
    pollReady c head n i l.toFetch = Logged.toFetch <$> pollLogged c head n i l
  | 0, _, l => rfl
  | n + 1, i, l => by
      unfold pollReady pollLogged
      rw [map_bind]
      refine bind_congr fun a => ?_
      split_ifs
      · rfl
      · rw [exchange_eq, map_bind, bind_map_left]
        refine bind_congr fun l => ?_
        rw [probeEvery_eq, map_bind, bind_map_left]
        exact bind_congr fun l => pollReady_eq n (i + 1) l

theorem finalFetches_eq : ∀ (n : ℕ) (l : Logged),
    finalFetches c head n l.toFetch = Logged.toFetch <$> finalLogged c head n l
  | 0, l => rfl
  | n + 1, l => by
      unfold finalFetches finalLogged
      split_ifs
      · rfl
      · rw [map_bind]
        refine bind_congr fun _ => ?_
        have hdrop : (drainOnce c l.edid >>= fun d =>
            finalFetches c head n { l.toFetch with edid := d.1 }) =
            (fun d => { l.toFetch with edid := d.1 }) <$> drainOnce c l.edid >>=
              finalFetches c head n := (bind_map_left _ _ _).symm
        rw [hdrop, drainFetched_eq, map_bind, bind_map_left]
        exact bind_congr fun l => finalFetches_eq n l

theorem fetchLate_eq (l : Logged) :
    fetchLate c head l.toFetch = Logged.toFetch <$> lateLogged c head l := by
  unfold fetchLate lateLogged
  split_ifs
  · rfl
  · rw [pollReady_eq, map_bind, bind_map_left]
    exact bind_congr fun l => finalFetches_eq c head _ l

/-- **The transaction is the one with a log**, and what it returns is what was held at the end. -/
theorem fetchEdid_eq :
    fetchEdid c head = fetchLogged c head >>= fun l => Session.fetched head l.toFetch := by
  have hsettle : ∀ (gate : Bool) (l : Logged),
      settle gate l.toFetch = (l.settle gate).toFetch := fun _ _ => rfl
  have hstart : (⟨none, false⟩ : Fetch) = Logged.start.toFetch := rfl
  unfold fetchEdid fetchLogged
  rw [bind_assoc]
  refine bind_congr fun w => ?_
  dsimp only
  simp only [hstart, early_eq, exchange_eq, fetchLate_eq, hsettle, bind_assoc, bind_map_left,
    pure_bind]

end Erase

/-! ### What the log decides -/

/-- One entry more. -/
def Logged.step (D : Decoders) (l : Logged) : Entry → Logged
  | .drained reply => l.drained D reply
  | .fetched reply => l.fetched D reply
  | .gate => l.settle true

/-- The states a gated transaction goes through. -/
inductive Traced (D : Decoders) : Logged → Prop
  | start : Traced D .start
  | step {l : Logged} (e : Entry) : Traced D l → Traced D (l.step D e)

/-- The entry is a reply with an EDID. -/
def Offers (D : Decoders) (e : Entry) : Prop :=
  ∃ reply, e.reply? = some reply ∧ (D.edid reply).isSome = true

/-- The entry is a reply whose presence status has the readiness bit. -/
def Reports (D : Decoders) (e : Entry) : Prop :=
  ∃ reply, e.reply? = some reply ∧ D.status reply = true

/-- Readiness was reported. -/
def ReadyIn (D : Decoders) (log : List Entry) : Prop := ∃ e ∈ log, Reports D e

/-- Both decoders of readiness say the same of every reply. -/
def Agree (D : Decoders) (log : List Entry) : Prop :=
  ∀ e ∈ log, ∀ reply, e.reply? = some reply → D.poll reply = D.status reply

/-- The first report of readiness is not one of the replies to the final fetches. -/
def Heard (D : Decoders) (log : List Entry) : Prop :=
  ∀ before reply after, log = before ++ .fetched reply :: after → D.status reply = true →
    ReadyIn D before

/-- Between a reply with an EDID and the first report behind it there is a gate. -/
def Gated (D : Decoders) (log : List Entry) : Prop :=
  ∀ before e between r after, log = before ++ e :: between ++ r :: after → Offers D e →
    Reports D r → ¬ReadyIn D (before ++ e :: between) → Entry.gate ∈ between

/-- **The EDID is from behind the report of readiness**, and one that came behind it was not
discarded. -/
structure Honest (D : Decoders) (l : Logged) : Prop where
  fresh : ∀ p, l.taken = some p → ReadyIn D p
  kept : ∀ before e after, l.log = before ++ e :: after → Offers D e → ReadyIn D before →
    l.edid.isSome = true

theorem snoc_split {α : Type} {l before after : List α} {x e : α}
    (h : l ++ [x] = before ++ e :: after) :
    (after = [] ∧ before = l ∧ e = x) ∨ ∃ rest, after = rest ++ [x] ∧ l = before ++ e :: rest := by
  rcases List.eq_nil_or_concat after with rfl | ⟨rest, y, rfl⟩
  · obtain ⟨hl, hx⟩ := List.append_inj' h rfl
    exact .inl ⟨rfl, hl.symm, (List.cons.inj hx).1.symm⟩
  · rw [List.concat_eq_append] at h ⊢
    rw [← List.cons_append, ← List.append_assoc] at h
    obtain ⟨hl, hx⟩ := List.append_inj' h rfl
    exact .inr ⟨rest, by rw [(List.cons.inj hx).1], hl⟩

section Log

variable {D : Decoders} {l : Logged}

theorem log_step (l : Logged) (e : Entry) : (l.step D e).log = l.log ++ [e] := by
  cases e <;> rfl

theorem readyIn_snoc {log : List Entry} {e : Entry} :
    ReadyIn D (log ++ [e]) ↔ ReadyIn D log ∨ Reports D e := by
  constructor
  · rintro ⟨x, hx, hr⟩
    rcases List.mem_append.1 hx with h | h
    · exact .inl ⟨x, h, hr⟩
    · exact .inr (List.mem_singleton.1 h ▸ hr)
  · rintro (⟨x, hx, hr⟩ | hr)
    · exact ⟨x, List.mem_append_left _ hx, hr⟩
    · exact ⟨e, List.mem_append_right _ List.mem_cons_self, hr⟩

theorem not_reports_gate : ¬Reports D .gate := nofun

theorem Agree.init {log : List Entry} {e : Entry} (h : Agree D (log ++ [e])) : Agree D log :=
  fun x hx => h x (List.mem_append_left _ hx)

theorem Heard.init {log : List Entry} {e : Entry} (h : Heard D (log ++ [e])) : Heard D log :=
  fun before reply after heq => h before reply (after ++ [e]) (by rw [heq]; simp)

theorem Gated.init {log : List Entry} {e : Entry} (h : Gated D (log ++ [e])) : Gated D log :=
  fun before x between r after heq => h before x between r (after ++ [e]) (by rw [heq]; simp)

/-- A reply is seen; readiness once reported stays. -/
theorem step_of_reply {e : Entry} {reply : List UInt8} (h : e.reply? = some reply) :
    ∃ ready, l.step D e = l.see D e reply ready ∧ (l.ready = true → ready = true) := by
  cases e with
  | drained r =>
      obtain rfl : r = reply := Option.some.inj h
      exact ⟨_, rfl, fun hready => by rw [hready]; rfl⟩
  | fetched r =>
      obtain rfl : r = reply := Option.some.inj h
      exact ⟨_, rfl, fun hready => hready⟩
  | gate => cases h

theorem gate_or_reply (e : Entry) : e = .gate ∨ ∃ reply, e.reply? = some reply := by
  cases e with
  | drained reply => exact .inr ⟨reply, rfl⟩
  | fetched reply => exact .inr ⟨reply, rfl⟩
  | gate => exact .inl rfl

theorem taken_see (e : Entry) (reply : List UInt8) (ready : Bool) :
    (l.see D e reply ready).taken = if l.edid.isSome then l.taken
      else if (D.edid reply).isSome then some (l.log ++ [e]) else none := rfl

theorem edid_see (e : Entry) (reply : List UInt8) (ready : Bool) :
    (l.see D e reply ready).edid = l.edid.or (D.edid reply) := rfl

theorem ready_settle (gate : Bool) (l : Logged) : (l.settle gate).ready = l.ready := by
  show (settle gate l.toFetch).ready = l.ready
  unfold settle
  split_ifs <;> rfl

theorem settle_of_ready (h : l.ready = true) :
    (l.settle true).edid = l.edid ∧ (l.settle true).taken = l.taken := by
  refine ⟨?_, if_neg fun hn => hn.2 h⟩
  show (settle true l.toFetch).edid = l.edid
  rw [settle, if_neg fun hn => hn.2.1 h]

theorem settle_of_not_ready (h : l.ready = false) :
    (l.settle true).edid = none ∧ (l.settle true).taken = none := by
  have hn : ¬l.ready = true := by simp [h]
  refine ⟨?_, if_pos ⟨rfl, hn⟩⟩
  show (settle true l.toFetch).edid = none
  unfold settle
  cases hedid : l.edid with
  | none => simp [hedid]
  | some b => simp [h]

/-- An EDID is held exactly when it is known where it is from. -/
theorem Traced.isSome_taken (h : Traced D l) : l.taken.isSome = l.edid.isSome := by
  induction h with
  | start => rfl
  | @step l e _ ih =>
      rcases gate_or_reply e with rfl | ⟨reply, hreply⟩
      · show (l.settle true).taken.isSome = (l.settle true).edid.isSome
        cases hready : l.ready with
        | true => rw [(settle_of_ready hready).1, (settle_of_ready hready).2, ih]
        | false => rw [(settle_of_not_ready hready).1, (settle_of_not_ready hready).2]; rfl
      · obtain ⟨ready, hstep, -⟩ := step_of_reply (D := D) (l := l) hreply
        rw [hstep, taken_see, edid_see]
        cases hedid : l.edid with
        | some b => simpa [hedid] using ih
        | none => cases D.edid reply <;> simp

/-- What is held once readiness was reported stays. -/
theorem Traced.taken_step (h : Traced D l) (hready : l.ready = true) {p : List Entry}
    (hp : l.taken = some p) (e : Entry) : (l.step D e).taken = some p := by
  have hedid : l.edid.isSome = true := by rw [← h.isSome_taken, hp]; rfl
  rcases gate_or_reply e with rfl | ⟨reply, hreply⟩
  · exact (settle_of_ready hready).2.trans hp
  · obtain ⟨ready, hstep, -⟩ := step_of_reply (D := D) (l := l) hreply
    rw [hstep, taken_see, if_pos hedid, hp]

/-- The EDID held is from a reply of the log; while readiness is not reported, from one behind the
last gate. -/
theorem Traced.taken_spec (h : Traced D l) : ∀ p, l.taken = some p →
    ∃ before e rest, p = before ++ [e] ∧ Offers D e ∧ l.log = p ++ rest ∧
      (l.ready = false → Entry.gate ∉ rest) := by
  induction h with
  | start => nofun
  | @step l e h ih =>
      intro p hp
      rw [log_step]
      -- What was held before is from further back; what is taken now, from the last entry.
      have hold : l.taken = some p → (l.ready = false → e ≠ .gate) → (l.ready = true →
          (l.step D e).ready = true) → ∃ before x rest, p = before ++ [x] ∧ Offers D x ∧
            l.log ++ [e] = p ++ rest ∧ ((l.step D e).ready = false → Entry.gate ∉ rest) := by
        intro hp hgate hready
        obtain ⟨before, x, rest, hx, hoffers, hlog, hrest⟩ := ih p hp
        refine ⟨before, x, rest ++ [e], hx, hoffers, by rw [hlog, List.append_assoc], ?_⟩
        intro hnot hmem
        have hl : l.ready = false := by
          by_contra hl
          rw [hready (by simpa using hl)] at hnot
          cases hnot
        rcases List.mem_append.1 hmem with hm | hm
        · exact hrest hl hm
        · exact hgate hl (List.mem_singleton.1 hm).symm
      rcases gate_or_reply e with rfl | ⟨reply, hreply⟩
      · cases hready : l.ready with
        | true =>
            refine hold ((settle_of_ready hready).2.symm.trans hp) ?_ fun _ => ?_
            · rw [hready]
              nofun
            · exact (ready_settle true l).trans hready
        | false =>
            have hnone := (settle_of_not_ready hready).2
            have : (l.settle true).taken = some p := hp
            rw [hnone] at this
            cases this
      · obtain ⟨ready, hstep, hkeep⟩ := step_of_reply (D := D) (l := l) hreply
        rw [hstep, taken_see] at hp
        split_ifs at hp with hedid hnew
        · refine hold hp (fun _ hgate => ?_) fun hl => ?_
          · rw [hgate] at hreply
            cases hreply
          · rw [hstep]
            exact hkeep hl
        · obtain rfl : l.log ++ [e] = p := Option.some.inj hp
          exact ⟨l.log, e, [], rfl, ⟨reply, hreply, hnew⟩, by rw [List.append_nil], fun _ => nofun⟩

/-- An EDID offered behind the last gate is held, or one from before it. -/
theorem Traced.isSome_of_offers (h : Traced D l) : ∀ before e between,
    l.log = before ++ e :: between → Offers D e → Entry.gate ∉ between →
      l.taken.isSome = true := by
  induction h with
  | start =>
      intro before e between hlog
      have hnil : ([] : List Entry) = before ++ e :: between := hlog
      simp at hnil
  | @step l x h ih =>
      intro before e between hlog hoffers hgate
      rw [log_step] at hlog
      rcases snoc_split hlog with ⟨-, -, rfl⟩ | ⟨rest, rfl, hl⟩
      · obtain ⟨reply, hreply, hsome⟩ := hoffers
        obtain ⟨ready, hstep, -⟩ := step_of_reply (D := D) (l := l) hreply
        rw [hstep, taken_see]
        split_ifs with hedid
        · rw [h.isSome_taken, hedid]
        · rfl
      · have hheld := ih before e rest hl hoffers fun hm => hgate (List.mem_append_left _ hm)
        have hx : x ≠ .gate := fun hx => hgate (hx ▸ List.mem_append_right _ List.mem_cons_self)
        rcases gate_or_reply x with rfl | ⟨reply, hreply⟩
        · exact absurd rfl hx
        · obtain ⟨ready, hstep, -⟩ := step_of_reply (D := D) (l := l) hreply
          rw [hstep, taken_see, if_pos (h.isSome_taken ▸ hheld), hheld]

/-- The transaction knows of the reports of readiness. -/
theorem Traced.ready_iff (h : Traced D l) (hagree : Agree D l.log) (hheard : Heard D l.log) :
    l.ready = true ↔ ReadyIn D l.log := by
  induction h with
  | start =>
      constructor
      · nofun
      · rintro ⟨e, he, -⟩
        cases he
  | @step l e h ih =>
      rw [log_step] at hagree hheard ⊢
      have hold := ih hagree.init hheard.init
      rw [readyIn_snoc]
      cases e with
      | drained reply =>
          have hpoll := hagree (.drained reply) (List.mem_append_right _ List.mem_cons_self) reply rfl
          show (l.ready || D.poll reply) = true ↔ _
          rw [Bool.or_eq_true, hold, hpoll]
          refine or_congr_right ⟨fun hs => ⟨reply, rfl, hs⟩, ?_⟩
          rintro ⟨r, hr, hs⟩
          obtain rfl : reply = r := Option.some.inj hr
          exact hs
      | fetched reply =>
          show l.ready = true ↔ _
          rw [hold]
          refine ⟨.inl, ?_⟩
          rintro (hr | ⟨r, hr, hs⟩)
          · exact hr
          · obtain rfl : reply = r := Option.some.inj hr
            exact hheard l.log reply [] rfl hs
      | gate =>
          have hsame : (l.step D .gate).ready = l.ready := ready_settle true l
          rw [hsame, hold]
          exact ⟨.inl, fun hr => hr.resolve_right not_reports_gate⟩

/-- An EDID behind a report of readiness is not discarded. -/
theorem Traced.kept (h : Traced D l) (hagree : Agree D l.log) (hheard : Heard D l.log) :
    ∀ before e after, l.log = before ++ e :: after → Offers D e → ReadyIn D before →
      l.taken.isSome = true := by
  induction h with
  | start =>
      intro before e after hlog
      have hnil : ([] : List Entry) = before ++ e :: after := hlog
      simp at hnil
  | @step l x h ih =>
      intro before e after hlog hoffers hready
      rw [log_step] at hlog hagree hheard
      have hknown := h.ready_iff hagree.init hheard.init
      rcases snoc_split hlog with ⟨-, rfl, rfl⟩ | ⟨rest, -, hl⟩
      · obtain ⟨reply, hreply, hsome⟩ := hoffers
        obtain ⟨ready, hstep, -⟩ := step_of_reply (D := D) (l := l) hreply
        rw [hstep, taken_see]
        split_ifs with hedid
        · rw [h.isSome_taken, hedid]
        · rfl
      · have hheld := ih hagree.init hheard.init before e rest hl hoffers hready
        obtain ⟨p, hp⟩ := Option.isSome_iff_exists.1 hheld
        have hl' : l.ready = true := by
          obtain ⟨y, hy, hr⟩ := hready
          exact hknown.2 ⟨y, hl ▸ List.mem_append_left _ hy, hr⟩
        rw [h.taken_step hl' hp x]
        rfl

/-- **Gated, what is held behind the report is from behind it.** -/
theorem Traced.fresh (h : Traced D l) (hagree : Agree D l.log) (hheard : Heard D l.log)
    (hgated : Gated D l.log) (hready : l.ready = true) : ∀ p, l.taken = some p → ReadyIn D p := by
  induction h with
  | start => nofun
  | @step l e h ih =>
      intro p hp
      have hnow := (Traced.step e h).ready_iff hagree hheard
      rw [log_step] at hagree hheard hgated hnow
      have hknown := h.ready_iff hagree.init hheard.init
      rcases gate_or_reply e with rfl | ⟨reply, hreply⟩
      · have hl : l.ready = true := by
          by_contra hl
          rw [readyIn_snoc] at hnow
          exact hl (hknown.2 ((hnow.1 hready).resolve_right not_reports_gate))
        refine ih hagree.init hheard.init hgated.init hl p ?_
        exact (settle_of_ready hl).2.symm.trans hp
      · obtain ⟨ready, hstep, -⟩ := step_of_reply (D := D) (l := l) hreply
        rw [hstep, taken_see] at hp
        split_ifs at hp with hedid
        · by_cases hl : l.ready = true
          · exact ih hagree.init hheard.init hgated.init hl p hp
          · -- The report comes with this reply, and no gate has judged what is held.
            have hreports : Reports D e :=
              (readyIn_snoc.1 (hnow.1 hready)).resolve_left fun hr => hl (hknown.2 hr)
            obtain ⟨before, x, rest, rfl, hoffers, hlog, hrest⟩ := h.taken_spec p hp
            have hlog' : l.log = before ++ x :: rest := by rw [hlog, List.append_assoc]; rfl
            have hnot : ¬ReadyIn D (before ++ x :: rest) := fun hr => hl (hknown.2 (hlog'.symm ▸ hr))
            have hgate := hgated before x rest e [] (by rw [hlog']) hoffers hreports hnot
            exact absurd hgate (hrest (by simpa using hl))
        · obtain rfl : l.log ++ [e] = p := Option.some.inj hp
          exact hnow.1 hready

/-- Without a gate between an EDID and the first report behind it, the EDID held is from before the
report. -/
theorem Traced.stale (h : Traced D l) (hagree : Agree D l.log) (hheard : Heard D l.log) :
    ∀ before e between r after, l.log = before ++ e :: between ++ r :: after → Offers D e →
      Reports D r → Entry.gate ∉ between →
      ∃ p, l.taken = some p ∧ p <+: before ++ e :: between := by
  induction h with
  | start =>
      intro before e between r after hlog
      have hnil : ([] : List Entry) = before ++ e :: between ++ r :: after := hlog
      simp at hnil
  | @step l x h ih =>
      intro before e between r after hlog hoffers hreports hgate
      rw [log_step] at hlog hagree hheard
      rcases snoc_split hlog with ⟨-, hl, rfl⟩ | ⟨rest, -, hl⟩
      · obtain ⟨reply, hreply, -⟩ := hreports
        have hheld := h.isSome_of_offers before e between hl.symm hoffers hgate
        obtain ⟨p, hp⟩ := Option.isSome_iff_exists.1 hheld
        obtain ⟨-, -, rest, -, -, hlog, -⟩ := h.taken_spec p hp
        obtain ⟨ready, hstep, -⟩ := step_of_reply (D := D) (l := l) hreply
        refine ⟨p, ?_, ⟨rest, by rw [hl, hlog]⟩⟩
        rw [hstep, taken_see, if_pos (h.isSome_taken ▸ hheld), hp]
      · obtain ⟨p, hp, hinit⟩ := ih hagree.init hheard.init before e between r rest hl hoffers
          hreports hgate
        have hready : l.ready = true := (h.ready_iff hagree.init hheard.init).2
          ⟨r, hl ▸ List.mem_append_right _ List.mem_cons_self, hreports⟩
        exact ⟨p, h.taken_step hready hp x, hinit⟩

/-- **When the gate lets through the right EDID.** -/
theorem Traced.honest_iff (h : Traced D l) (hagree : Agree D l.log) (hheard : Heard D l.log)
    (hsettled : l.ready = false → l.taken = none) : Honest D l ↔ Gated D l.log := by
  constructor
  · intro hhonest before e between r after hlog hoffers hreports hnot
    by_contra hgate
    obtain ⟨p, hp, hinit⟩ := h.stale hagree hheard before e between r after hlog hoffers hreports
      hgate
    obtain ⟨x, hx, hr⟩ := hhonest.fresh p hp
    exact hnot ⟨x, hinit.subset hx, hr⟩
  · intro hgated
    refine ⟨fun p hp => ?_, fun before e after hlog hoffers hready => ?_⟩
    · cases hready : l.ready with
      | true => exact h.fresh hagree hheard hgated hready p hp
      | false =>
          rw [hsettled hready] at hp
          cases hp
    · rw [← h.isSome_taken]
      exact h.kept hagree hheard before e after hlog hoffers hready

/-- The reply that the EDID held is from. -/
theorem Traced.taken_edid (h : Traced D l) : ∀ p, l.taken = some p →
    p <+: l.log ∧ ∃ before e reply, p = before ++ [e] ∧ e.reply? = some reply ∧
      l.edid = D.edid reply := by
  induction h with
  | start => nofun
  | @step l e h ih =>
      intro p hp
      rw [log_step]
      have hold : l.taken = some p → (l.step D e).edid = l.edid → p <+: l.log ++ [e] ∧
          ∃ before x reply, p = before ++ [x] ∧ x.reply? = some reply ∧
            (l.step D e).edid = D.edid reply := by
        intro hp hedid
        obtain ⟨hinit, before, x, reply, hx, hreply, heq⟩ := ih p hp
        exact ⟨hinit.trans (List.prefix_append _ _), before, x, reply, hx, hreply, hedid.trans heq⟩
      rcases gate_or_reply e with rfl | ⟨reply, hreply⟩
      · cases hready : l.ready with
        | true => exact hold ((settle_of_ready hready).2.symm.trans hp) (settle_of_ready hready).1
        | false =>
            have hnone : (l.settle true).taken = some p := hp
            rw [(settle_of_not_ready hready).2] at hnone
            cases hnone
      · obtain ⟨ready, hstep, -⟩ := step_of_reply (D := D) (l := l) hreply
        rw [hstep, taken_see] at hp
        split_ifs at hp with hedid hnew
        · refine hold hp ?_
          obtain ⟨b, hb⟩ := Option.isSome_iff_exists.1 hedid
          rw [hstep, edid_see, hb]
          rfl
        · obtain rfl : l.log ++ [e] = p := Option.some.inj hp
          refine ⟨List.prefix_rfl, l.log, e, reply, rfl, hreply, ?_⟩
          have hnone : l.edid = none := by simpa using hedid
          rw [hstep, edid_see, hnone]
          rfl

end Log

/-! ### Runs -/

section Runs

variable {key : Key} {nonce : Nonce} {c : Crypto} {head : UInt8}

/-- The keys do not change, and the dock reports readiness. -/
structure Keyed (key : Key) (nonce : Nonce) (w : World) : Prop where
  key : w.controlKey = key
  nonce : w.controlNonce = nonce
  gate : w.dock.profile.quirks.edidReadyReported = true

theorem stable_keyed : Stable (Keyed key nonce) fun _ => True where
  tick := fun _ h => ⟨h.key, h.nonce, h.gate⟩
  transmit := fun _ _ _ => triple_transmit (fun _ hw _ => ⟨hw.1.key, hw.1.nonce, hw.1.gate⟩)
    fun _ _ _ _ => trivial
  receive := keeps_receiveOptional (fun _ h => ⟨h.key, h.nonce, h.gate⟩) fun _ _ => trivial
  weaken := fun _ _ => trivial
  cursor := fun _ _ h => ⟨h.key, h.nonce, h.gate⟩

/-- A part of the transaction, with the log it leaves. -/
def Traces (key : Key) (nonce : Nonce) (c : Crypto) (m : SessionM Logged) : Prop :=
  Triple (Keyed key nonce) m
    (fun l w => Traced (decoders c key nonce) l ∧ Keyed key nonce w) fun _ => True

theorem traces_pure {l : Logged} (h : Traced (decoders c key nonce) l) :
    Traces key nonce c (pure l) :=
  Triple.pure fun _ hw => ⟨h, hw⟩

theorem Traces.bind {m : SessionM Logged} {f : Logged → SessionM Logged}
    (hm : Traces key nonce c m)
    (hf : ∀ l, Traced (decoders c key nonce) l → Traces key nonce c (f l)) :
    Traces key nonce c (m >>= f) :=
  Triple.bind hm fun l => Triple.given fun h => hf l h

theorem traces_drainWith {see : Decoders → Logged → List UInt8 → Logged} {l : Logged}
    (h : Traced (decoders c key nonce) l)
    (hsee : ∀ reply, Traced (decoders c key nonce) (see (decoders c key nonce) l reply)) :
    Traces key nonce c (drainWith c see l) := by
  intro w hw
  have htick := stable_keyed.tick w hw
  rw [drainWith_run, hw.key, hw.nonce]
  rcases (w.answers w.time).reply with e | reply
  · cases e
    · exact ⟨h, htick⟩
    all_goals trivial
  · exact ⟨hsee reply, htick⟩

theorem traces_drained {l : Logged} (h : Traced (decoders c key nonce) l) :
    Traces key nonce c (drainWith c Logged.drained l) :=
  traces_drainWith h fun reply => h.step (.drained reply)

theorem traces_sent {id : UInt16} {build : UInt16 → Rng → List UInt8} {m : SessionM Logged}
    (hbuild : ∀ counter rng, counterOf (build counter rng) = counter) (hm : Traces key nonce c m) :
    Traces key nonce c (sendMessage id build >>= fun _ => m) :=
  Triple.bind (stable_keyed.sendMessage id hbuild) fun _ => hm

theorem traces_exchange {id : UInt16} {build : UInt16 → Rng → List UInt8}
    (hbuild : ∀ counter rng, counterOf (build counter rng) = counter) {l : Logged}
    (h : Traced (decoders c key nonce) l) : Traces key nonce c (exchangeLogged c id build l) :=
  traces_sent hbuild (traces_drained h)

theorem traces_ask {f : Answer → SessionM Logged} (hf : ∀ a, Traces key nonce c (f a)) :
    Traces key nonce c (ask >>= f) :=
  Triple.bind stable_keyed.ask hf

theorem traces_await : ∀ (n : ℕ) {l : Logged}, Traced (decoders c key nonce) l →
    Traces key nonce c (awaitLogged c n l)
  | 0, l, h => traces_pure h
  | n + 1, l, h => by
      unfold awaitLogged
      split_ifs
      · exact traces_pure h
      · exact (traces_drained h).bind fun l hl => traces_await n hl

theorem traces_early : ∀ (n : ℕ) {l : Logged}, Traced (decoders c key nonce) l →
    Traces key nonce c (earlyLogged c head true n l)
  | 0, l, h => traces_pure h
  | n + 1, l, h => by
      unfold earlyLogged
      split_ifs
      · exact traces_pure (h.step .gate)
      · refine (traces_exchange (fun _ _ => counterOf_message' _) (h.step .gate)).bind fun l h => ?_
        refine (traces_exchange (fun _ _ => counterOf_message' _) h).bind fun l h => ?_
        refine (traces_exchange (fun _ _ => counterOf_message' _) h).bind fun l h => ?_
        refine (traces_exchange (fun _ _ => counterOf_message' _) h).bind fun l h => ?_
        split_ifs
        · exact traces_pure (h.step .gate)
        · refine traces_ask fun a => ?_
          exact (traces_await a.rounds (h.step .gate)).bind fun l h => traces_early n h

theorem traces_poll : ∀ (n i : ℕ) {l : Logged}, Traced (decoders c key nonce) l →
    Traces key nonce c (pollLogged c head n i l)
  | 0, _, l, h => traces_pure h
  | n + 1, i, l, h => by
      refine traces_ask fun a => ?_
      split_ifs
      · exact traces_pure h
      · refine (traces_exchange (fun _ _ => counterOf_message' _) h).bind fun l h => ?_
        refine Traces.bind ?_ fun l h => traces_poll n (i + 1) h
        unfold probeLogged
        split_ifs
        · exact traces_exchange (fun _ _ => counterOf_message' _) h
        · exact traces_pure h

theorem traces_final : ∀ (n : ℕ) {l : Logged}, Traced (decoders c key nonce) l →
    Traces key nonce c (finalLogged c head n l)
  | 0, l, h => traces_pure h
  | n + 1, l, h => by
      unfold finalLogged
      split_ifs
      · exact traces_pure h
      · refine traces_sent (fun _ _ => counterOf_message' _) ?_
        exact (traces_drainWith h fun reply => h.step (.fetched reply)).bind fun l h =>
          traces_final n h

theorem traces_late {l : Logged} (h : Traced (decoders c key nonce) l) :
    Traces key nonce c (lateLogged c head l) := by
  unfold lateLogged
  split_ifs
  · exact traces_pure h
  · exact (traces_poll _ _ h).bind fun l h => traces_final _ h

/-- **Every call leaves a log of gates and replies**, and ends behind a gate. -/
theorem triple_fetchLogged :
    Triple (Keyed key nonce) (fetchLogged c head)
      (fun l _ => Traced (decoders c key nonce) l ∧ (l.ready = false → l.taken = none))
      fun _ => True := by
  refine Triple.bind (Q := fun w w' => w.dock.profile.quirks.edidReadyReported = true ∧
    Keyed key nonce w') (Triple.get fun w hw => ⟨hw.gate, hw⟩) fun w => Triple.given fun hgate => ?_
  dsimp only
  rw [hgate]
  have hrun : Traces key nonce c (do
      let l ← earlyLogged c head true earlyRounds .start
      let l ← exchangeLogged c 0x16 (fun counter => edidEngageReq counter head) l
      let l ← exchangeLogged c 0x16 (fun counter => edidEngageReq counter head) l
      let l ← lateLogged c head (l.settle true)
      exchangeLogged c 0x15 (fun counter => postEdidQuery counter head) l) := by
    refine (traces_early _ Traced.start).bind fun l h => ?_
    refine (traces_exchange (fun _ _ => counterOf_message' _) h).bind fun l h => ?_
    refine (traces_exchange (fun _ _ => counterOf_message' _) h).bind fun l h => ?_
    refine (traces_late (h.step .gate)).bind fun l h => ?_
    exact traces_exchange (fun _ _ => counterOf_message' _) h
  have hlast := Triple.bind hrun fun l => Triple.pure (a := l.settle true)
    (Q := fun l _ => Traced (decoders c key nonce) l ∧ (l.ready = false → l.taken = none))
    fun w hw => ⟨hw.1.step .gate, fun hready => ?_⟩
  · simpa only [bind_assoc] using hlast
  · rw [ready_settle] at hready
    exact (settle_of_not_ready hready).2

/-- **Which EDID a call returns.**  When both decoders of readiness agree on what was drained and
the first report was not left to the final fetches, the EDID is from behind the report, and none
from behind it is lost, exactly when no EDID stood between the last gate and the report. -/
theorem fetch_gated_iff (c : Crypto) (head : UInt8) (w w' : World) (l : Logged)
    (hgate : w.dock.profile.quirks.edidReadyReported = true)
    (hrun : fetchLogged c head w = .ok l w')
    (hagree : Agree (decoders c w.controlKey w.controlNonce) l.log)
    (hheard : Heard (decoders c w.controlKey w.controlNonce) l.log) :
    fetchEdid c head w = Session.fetched head l.toFetch w' ∧
      l.taken.isSome = l.edid.isSome ∧
      (∀ p, l.taken = some p → p <+: l.log ∧ ∃ before e reply, p = before ++ [e] ∧
        e.reply? = some reply ∧ l.edid = parseEdidFromReply c w.controlKey w.controlNonce reply) ∧
      (Honest (decoders c w.controlKey w.controlNonce) l ↔
        Gated (decoders c w.controlKey w.controlNonce) l.log) := by
  have hkeyed : Keyed w.controlKey w.controlNonce w := ⟨rfl, rfl, hgate⟩
  have htriple : Triple (Keyed w.controlKey w.controlNonce) (fetchLogged c head) _ _ :=
    triple_fetchLogged
  replace htriple := htriple w hkeyed
  rw [hrun] at htriple
  obtain ⟨htraced, hsettled⟩ := htriple
  refine ⟨?_, htraced.isSome_taken, htraced.taken_edid,
    htraced.honest_iff hagree hheard hsettled⟩
  rw [fetchEdid_eq]
  show EStateM.bind (fetchLogged c head) _ w = _
  unfold EStateM.bind
  rw [hrun]

-- The decoders do not agree on every reply: only one of them takes an id other than 0x44.
example : readPollReady ([0x54, 0x00, 0x20, 0x00] ++ List.replicate 22 0 ++ [0x80]) = none ∧
    (readProbeStatus ([0x54, 0x00, 0x20, 0x00] ++ List.replicate 22 0 ++ [0x80])).map
      (fun s => s.2.2) = some true := by
  decide +kernel

end Runs

/-! ### A stale block -/

section Sample

variable {c : Crypto} {l : Logged} {answers : ℕ → Answer} {start : ControlSession} {t : ℕ}

/-- A session with other counters. -/
def recounted (s : ControlSession) (wireSeq : UInt32) (innerCounter : UInt16) : ControlSession :=
  { s with wireSeq := wireSeq, innerCounter := innerCounter }

/-- A session at a time of its surroundings, with nothing changed but its counters. -/
structure Faces (start : ControlSession) (answers : ℕ → Answer) (t : ℕ) (w : World) : Prop where
  session : recounted w.toControlSession start.wireSeq start.innerCounter = start
  answers : w.answers = answers
  time : w.time = t

theorem Faces.key {w : World} (h : Faces start answers t w) :
    w.controlKey = start.controlKey ∧ w.controlNonce = start.controlNonce := by
  have hkey := congrArg ControlSession.controlKey h.session
  have hnonce := congrArg ControlSession.controlNonce h.session
  exact ⟨hkey, hnonce⟩

theorem bind_ok {ε σ α β : Type} {m : EStateM ε σ α} {f : α → EStateM ε σ β} {a : α} {s s' : σ}
    (h : m s = .ok a s') : (m >>= f) s = f a s' := by
  show EStateM.bind m f s = _
  unfold EStateM.bind
  rw [h]

theorem Faces.tick {w : World} (h : Faces start answers t w) :
    Faces start answers (t + 1) w.tick :=
  ⟨h.session, h.answers, congrArg (· + 1) h.time⟩

/-- A message goes out. -/
theorem Faces.sendMessage {w : World} (h : Faces start answers t w)
    (hwrite : (answers (t + 1)).write = none) (id : UInt16)
    (build : UInt16 → Rng → List UInt8) :
    ∃ w', Session.sendMessage id build w = .ok () w' ∧ Faces start answers (t + 2) w' := by
  have hsend : Session.sendMessage id build w =
      transmit id (build w.innerCounter (w.answers w.time).random) .transport w.tick := rfl
  have hok : (w.tick.answers w.tick.time).write = none := by
    rw [h.tick.answers, h.tick.time]
    exact hwrite
  have hnext := h.tick.tick
  rw [hsend, transmit_run, hok]
  exact ⟨_, rfl, hnext.session, hnext.answers, hnext.time⟩

theorem Faces.exchange {w : World} (h : Faces start answers t w)
    (hwrite : (answers (t + 1)).write = none) (id : UInt16) (build : UInt16 → Rng → List UInt8) :
    ∃ w', exchangeLogged c id build l w = drainWith c Logged.drained l w' ∧
      Faces start answers (t + 2) w' := by
  obtain ⟨w', hsend, hw'⟩ := h.sendMessage hwrite id build
  exact ⟨w', bind_ok hsend, hw'⟩

/-- A message and a reply to it. -/
theorem Faces.exchange_reply {w : World} {reply : List UInt8} (h : Faces start answers t w)
    (hwrite : (answers (t + 1)).write = none) (hreply : (answers (t + 2)).reply = .ok reply)
    (id : UInt16) (build : UInt16 → Rng → List UInt8) :
    ∃ w', exchangeLogged c id build l w =
        .ok (l.drained (decoders c start.controlKey start.controlNonce) reply) w' ∧
      Faces start answers (t + 3) w' := by
  obtain ⟨w', hrun, hw'⟩ := h.exchange (c := c) (l := l) hwrite id build
  refine ⟨w'.tick, ?_, hw'.tick⟩
  rw [hrun, drainWith_run, hw'.answers, hw'.time, hreply, hw'.key.1, hw'.key.2]

/-- A message and nothing behind it. -/
theorem Faces.exchange_timeout {w : World} (h : Faces start answers t w)
    (hwrite : (answers (t + 1)).write = none)
    (hreply : (answers (t + 2)).reply = .error .timeout) (id : UInt16)
    (build : UInt16 → Rng → List UInt8) :
    ∃ w', exchangeLogged c id build l w = .ok l w' ∧ Faces start answers (t + 3) w' := by
  obtain ⟨w', hrun, hw'⟩ := h.exchange (c := c) (l := l) hwrite id build
  refine ⟨w'.tick, ?_, hw'.tick⟩
  rw [hrun, drainWith_run, hw'.answers, hw'.time, hreply]

/-- Two replies behind the first two probes, and nothing else. -/
def twoReplies (first second : List UInt8) (t : ℕ) : Answer where
  write := none
  reply := if t = 2 then .ok first else if t = 5 then .ok second else .error .timeout
  expired := false
  rounds := 0
  random := fun _ => 0
  fault := none

/-- What a call learns from two replies. -/
def learned (D : Decoders) (first second : List UInt8) : Logged :=
  (((Logged.start.settle true).drained D first).drained D second).settle true

theorem fetchLogged_two (c : Crypto) (head : UInt8) {first second : List UInt8} {w : World}
    (h : Faces start (twoReplies first second) 0 w)
    (hgate : start.dock.profile.quirks.edidReadyReported = true)
    (hedid : (learned (decoders c start.controlKey start.controlNonce) first second).edid.isSome =
      true)
    (hready : (learned (decoders c start.controlKey start.controlNonce) first second).ready =
      true) :
    ∃ w' t, fetchLogged c head w =
        .ok (((learned (decoders c start.controlKey start.controlNonce) first second).settle
          true).settle true) w' ∧ Faces start (twoReplies first second) t w' := by
  set D := decoders c start.controlKey start.controlNonce with hD
  have hquiet : ∀ t, 5 < t → (twoReplies first second t).reply = .error .timeout := by
    intro t ht
    show (if t = 2 then _ else if t = 5 then _ else _) = _
    rw [if_neg (by omega), if_neg (by omega)]
  obtain ⟨w1, h1, hw1⟩ := h.exchange_reply (c := c) (l := Logged.start.settle true) rfl rfl 0x15
    fun counter => getEdidReqSub counter 0x20 head
  obtain ⟨w2, h2, hw2⟩ := hw1.exchange_reply (c := c)
    (l := (Logged.start.settle true).drained D first) rfl rfl 0x15
    fun counter => getEdidReqSub counter 0x20 head
  obtain ⟨w3, h3, hw3⟩ := hw2.exchange_timeout (c := c)
    (l := ((Logged.start.settle true).drained D first).drained D second) rfl
    (hquiet _ (by omega)) 0x16 fun counter => edidReadinessKick counter head
  obtain ⟨w4, h4, hw4⟩ := hw3.exchange_timeout (c := c)
    (l := ((Logged.start.settle true).drained D first).drained D second) rfl
    (hquiet _ (by omega)) 0x15 fun counter => getEdidReq counter head
  obtain ⟨w5, h5, hw5⟩ := hw4.exchange_timeout (c := c) (l := learned D first second) rfl
    (hquiet _ (by omega)) 0x16 fun counter => edidEngageReq counter head
  obtain ⟨w6, h6, hw6⟩ := hw5.exchange_timeout (c := c) (l := learned D first second) rfl
    (hquiet _ (by omega)) 0x16 fun counter => edidEngageReq counter head
  obtain ⟨w7, h7, hw7⟩ := hw6.exchange_timeout (c := c) (l := (learned D first second).settle true)
    rfl (hquiet _ (by omega)) 0x15 fun counter => postEdidQuery counter head
  have hearly : earlyLogged c head true earlyRounds .start w = .ok (learned D first second) w4 := by
    have hnone : ¬(Logged.start.settle true).edid.isSome = true := by decide
    unfold earlyLogged earlyRounds
    dsimp only
    rw [if_neg hnone, bind_ok h1, bind_ok h2, bind_ok h3, bind_ok h4]
    exact congrFun (if_pos hedid) w4
  have hkept : ((learned D first second).settle true).edid.isSome = true := by
    rw [(settle_of_ready hready).1]
    exact hedid
  have hlate : lateLogged c head ((learned D first second).settle true) w6 =
      .ok ((learned D first second).settle true) w6 := congrFun (if_pos hkept) w6
  have hget : (get : SessionM World) w = .ok w w := rfl
  have hdock := congrArg ControlSession.dock h.session
  change w.dock = start.dock at hdock
  refine ⟨w7, _, ?_, hw7⟩
  rw [fetchLogged, bind_ok hget, hdock, hgate, bind_ok hearly, bind_ok h5, bind_ok h6, bind_ok hlate,
    bind_ok h7]
  rfl

end Sample

theorem aesCtr_openCrypto (key : Key) (riv : Nonce) (seq : UInt32) (content : List UInt8) :
    aesCtr openCrypto key riv seq content = content := by
  have hzero : ∀ k, keystream openCrypto key riv seq k = 0 := by
    intro k
    have hall : ∀ m < 16, (Vector.replicate 16 (0 : UInt8)).toList.getD m 0 = 0 := by decide
    exact hall (k % 16) (Nat.mod_lt _ (by omega))
  unfold aesCtr
  refine List.ext_getElem? fun i => ?_
  simp [hzero]

/-- In the open every nonce gives the same plaintext. -/
theorem readReply_open {α : Type} {read : List UInt8 → Option α} (key : Key) (outRiv : Nonce)
    (content : List UInt8) :
    readReply openCrypto key outRiv
      (sealLivemac openCrypto key (inRiv outRiv) (wireHeader content.length 0x45 0 9) content) read =
        read content := by
  cases hread : read content with
  | some a => exact readReply_seal _ _ hread
  | none =>
      by_contra hne
      obtain ⟨a, ha⟩ := Option.ne_none_iff_exists'.1 hne
      unfold readReply at ha
      split_ifs at ha
      obtain ⟨riv, -, inner, hopen, hinner⟩ := mem_of_firstOpened ha
      have hbody : (sealLivemac openCrypto key (inRiv outRiv)
          (wireHeader content.length 0x45 0 9) content).drop 16 =
          content ++ List.replicate 16 7 := by
        unfold sealLivemac
        dsimp only
        rw [List.take_of_length_le (by simp), List.append_assoc, List.drop_left' (by simp),
          aesCtr_openCrypto]
        rfl
      rw [hbody] at hopen
      unfold openIn at hopen
      rw [List.length_append, List.length_replicate, Nat.add_sub_cancel, List.take_left] at hopen
      dsimp only at hopen
      split_ifs at hopen
      rw [aesCtr_openCrypto, Except.ok.injEq] at hopen
      rw [← hopen, hread] at hinner
      cases hinner

/-- The base block of a display. -/
def blockPlaintext : List UInt8 :=
  [0x94, 0x00, 0x21, 0x00] ++ List.replicate 18 0 ++ edidMagic ++ List.replicate 118 0 ++ [0, 6]

/-- A probe reply with the readiness bit. -/
def readyPlaintext : List UInt8 := [0x44, 0x00, 0x20, 0x00] ++ List.replicate 22 0 ++ [0x80]

/-- A reply sealed in the open. -/
def replyOf (content : List UInt8) : List UInt8 :=
  sealLivemac openCrypto (Vector.replicate 16 0) (inRiv (Vector.replicate 8 0))
    (wireHeader content.length 0x45 0 9) content

/-- The decoders of a session with zero keys. -/
def openDecoders : Decoders := decoders openCrypto (Vector.replicate 16 0) (Vector.replicate 8 0)

theorem edid_replyOf (content : List UInt8) :
    openDecoders.edid (replyOf content) = readEdid content := by
  simp only [openDecoders, decoders, parseEdidFromReply, replyOf]
  exact readReply_open _ _ content

theorem poll_replyOf (content : List UInt8) :
    openDecoders.poll (replyOf content) = (readPollReady content == some true) := by
  simp only [openDecoders, decoders, edidPollReady, replyOf]
  exact congrArg (· == some true) (readReply_open _ _ content)

theorem status_replyOf (content : List UInt8) : openDecoders.status (replyOf content) =
    (((readProbeStatus content).map fun s => s.2.2) == some true) := by
  simp only [openDecoders, decoders, probeReplyStatus, replyOf]
  exact congrArg (fun o : Option (UInt16 × UInt32 × Bool) => (o.map fun s => s.2.2) == some true)
    (readReply_open _ _ content)

/-- A gated session that gets two replies. -/
def offered (first second : List UInt8) : World :=
  (start (freshSession ⟨profileRidge, false, false⟩ 2)).facing (twoReplies first second)

theorem faces_offered (first second : List UInt8) :
    Faces (freshSession ⟨profileRidge, false, false⟩ 2) (twoReplies first second) 0
      (offered first second) :=
  ⟨rfl, rfl, rfl⟩

theorem learned_stale {D : Decoders} {first second edid : List UInt8}
    (hedid : D.edid first = some edid) (hfirst : D.poll first = false)
    (hsecond : D.poll second = true) : learned D first second =
      ⟨⟨some edid, true⟩, [.gate, .drained first, .drained second, .gate],
        some [.gate, .drained first]⟩ := by
  simp [learned, Logged.drained, Logged.see, Logged.settle, settle, Logged.start, hedid, hfirst,
    hsecond]

theorem learned_fresh {D : Decoders} {first second edid : List UInt8}
    (hnone : D.edid first = none) (hfirst : D.poll first = true)
    (hedid : D.edid second = some edid) : learned D first second =
      ⟨⟨some edid, true⟩, [.gate, .drained first, .drained second, .gate],
        some [.gate, .drained first, .drained second]⟩ := by
  simp [learned, Logged.drained, Logged.see, Logged.settle, settle, Logged.start, hedid, hfirst,
    hnone]

theorem block_read : openDecoders.edid (replyOf blockPlaintext) =
    some (edidMagic ++ List.replicate 118 0 ++ [0, 6]) ∧
    openDecoders.poll (replyOf blockPlaintext) = false ∧
    openDecoders.status (replyOf blockPlaintext) = false := by
  rw [edid_replyOf, poll_replyOf, status_replyOf]
  decide +kernel

theorem ready_read : openDecoders.edid (replyOf readyPlaintext) = none ∧
    openDecoders.poll (replyOf readyPlaintext) = true ∧
    openDecoders.status (replyOf readyPlaintext) = true := by
  rw [edid_replyOf, poll_replyOf, status_replyOf]
  decide +kernel

/-- A block, then the report: the block from before the report is returned. -/
theorem stale_block_returned :
    ∃ l w', fetchLogged openCrypto 0
        (offered (replyOf blockPlaintext) (replyOf readyPlaintext)) = .ok l w' ∧
      fetchEdid openCrypto 0 (offered (replyOf blockPlaintext) (replyOf readyPlaintext)) =
        .ok (edidMagic ++ List.replicate 118 0 ++ [0, 6]) w' ∧
      l.taken = some [.gate, .drained (replyOf blockPlaintext)] ∧ ¬Honest openDecoders l := by
  obtain ⟨hedid, hpoll, hstatus⟩ := block_read
  have hlearned := learned_stale hedid hpoll ready_read.2.1
  obtain ⟨w', -, hrun, -⟩ := fetchLogged_two openCrypto 0
    (faces_offered (replyOf blockPlaintext) (replyOf readyPlaintext)) rfl
    (congrArg (fun l : Logged => l.edid.isSome) hlearned)
    (congrArg (fun l : Logged => l.ready) hlearned)
  change fetchLogged openCrypto 0 _ = .ok (((learned openDecoders _ _).settle true).settle true) w'
    at hrun
  rw [hlearned] at hrun
  refine ⟨_, w', hrun, ?_, rfl, fun h => ?_⟩
  · rw [fetchEdid_eq, bind_ok hrun]
    rfl
  · obtain ⟨e, he, reply, hreply, hs⟩ := h.fresh [.gate, .drained (replyOf blockPlaintext)] rfl
    rcases List.mem_cons.1 he with rfl | he
    · cases hreply
    · rw [List.mem_singleton.1 he] at hreply
      rw [← Option.some.inj hreply, hstatus] at hs
      cases hs

/-- The report, then a block. -/
theorem fetch_gated_ready_first :
    ∃ l w', fetchLogged openCrypto 0
        (offered (replyOf readyPlaintext) (replyOf blockPlaintext)) = .ok l w' ∧
      (Honest openDecoders l ↔ Gated openDecoders l.log) := by
  obtain ⟨hedid, hpoll, hstatus⟩ := block_read
  obtain ⟨hnone, hpoll', hstatus'⟩ := ready_read
  have hlearned := learned_fresh hnone hpoll' hedid
  obtain ⟨w', -, hrun, -⟩ := fetchLogged_two openCrypto 0
    (faces_offered (replyOf readyPlaintext) (replyOf blockPlaintext)) rfl
    (congrArg (fun l : Logged => l.edid.isSome) hlearned)
    (congrArg (fun l : Logged => l.ready) hlearned)
  change fetchLogged openCrypto 0 _ = .ok (((learned openDecoders _ _).settle true).settle true) w'
    at hrun
  rw [hlearned] at hrun
  refine ⟨_, w', hrun, ?_⟩
  refine (fetch_gated_iff openCrypto 0 _ w' _ rfl hrun ?_ ?_).2.2.2
  · intro e he reply hreply
    have hcases : e = .gate ∨ e = .drained (replyOf readyPlaintext) ∨
        e = .drained (replyOf blockPlaintext) := by
      simpa [Logged.settle, or_assoc, or_comm, or_left_comm] using he
    rcases hcases with rfl | rfl | rfl
    · cases hreply
    · rw [← Option.some.inj hreply]
      exact hpoll'.trans hstatus'.symm
    · rw [← Option.some.inj hreply]
      exact hpoll.trans hstatus.symm
  · intro before reply after hlog
    have hmem : Entry.fetched reply ∈ before ++ .fetched reply :: after :=
      List.mem_append_right _ List.mem_cons_self
    rw [← hlog] at hmem
    simp [Logged.settle] at hmem

end Vino.Session.Readiness
