import Vino.Session.Control

/-!
# Fetching an EDID

The EDID transaction of one head: probes, a readiness kick, engages, a readiness poll and the final
fetches, with one reply drained behind every message.  A dock that reports when its downstream read
is complete has every block dropped that arrives before that report.
-/

namespace Vino.Session

open Vino.Cp.Messages Vino.Cp.Replies Vino.Cp.Seal Vino.Lib.Effect Vino.Profile

/-- What the transaction has learned so far. -/
structure Fetch where
  edid : Option (List UInt8)
  ready : Bool
  deriving DecidableEq, Repr

def earlyRounds : ℕ := 1

def pollIters : ℕ := 250

def pollProbeEvery : ℕ := 8

def finalFetchRounds : ℕ := 24

/-! ### Steps -/

/-- Build and send one message of the transaction. -/
def sendMessage (id : UInt16) (build : UInt16 → Rng → List UInt8) : SessionM Unit :=
  withMessage "EDID" (fun counter rng => .ok (build counter rng))
    fun content => transmit id content .transport

/-- Drain one pending reply: the EDID, if none was found before and the reply carries one, and
whether the reply reports readiness. -/
def drainOnce (c : Crypto) (edid : Option (List UInt8)) :
    SessionM (Option (List UInt8) × Bool) := do
  let w ← get
  let a ← ask
  match a.reply with
  | .error .timeout => return (edid, false)
  | .error e => throw (.transport e)
  | .ok reply =>
      return (edid.or (parseEdidFromReply c w.controlKey w.controlNonce reply),
        edidPollReady c w.controlKey w.controlNonce reply == some true)

/-- Drain a reply and keep what it reports. -/
def drain (c : Crypto) (f : Fetch) : SessionM Fetch := do
  let drained ← drainOnce c f.edid
  return { edid := drained.1, ready := f.ready || drained.2 }

/-- One message and the reply behind it. -/
def exchange (c : Crypto) (id : UInt16) (build : UInt16 → Rng → List UInt8) (f : Fetch) :
    SessionM Fetch := do
  sendMessage id build
  drain c f

/-- Drop a block offered before the downstream read completed. -/
def settle (gateOnReady : Bool) (f : Fetch) : Fetch :=
  if gateOnReady ∧ ¬f.ready ∧ f.edid.isSome then { f with edid := none } else f

/-- Drain until an EDID arrives or the wait is over, `n` reads later. -/
def awaitEdid (c : Crypto) : ℕ → Fetch → SessionM Fetch
  | 0, f => pure f
  | n + 1, f =>
      if f.edid.isSome then pure f
      else do
        let f ← drain c f
        awaitEdid c n f

/-- The early rounds: two probes, a kick, a fetch, and a wait for the asynchronous block. -/
def early (c : Crypto) (head : UInt8) (gate : Bool) : ℕ → Fetch → SessionM Fetch
  | 0, f => pure f
  | n + 1, f =>
      if (settle gate f).edid.isSome then pure (settle gate f)
      else do
        let f ← exchange c 0x15 (fun counter => getEdidReqSub counter 0x20 head) (settle gate f)
        let f ← exchange c 0x15 (fun counter => getEdidReqSub counter 0x20 head) f
        let f ← exchange c 0x16 (fun counter => edidReadinessKick counter head) f
        let f ← exchange c 0x15 (fun counter => getEdidReq counter head) f
        if (settle gate f).edid.isSome then pure (settle gate f)
        else do
          let a ← ask
          let f ← awaitEdid c a.rounds (settle gate f)
          early c head gate n f

/-- Probe in every eighth round of the poll. -/
def probeEvery (c : Crypto) (head : UInt8) (i : ℕ) (f : Fetch) : SessionM Fetch :=
  if i % pollProbeEvery = pollProbeEvery - 1 then
    exchange c 0x15 (fun counter => getEdidReqSub counter 0x20 head) f
  else pure f

/-- Poll until the dock is ready, an EDID arrives, or the time is up. -/
def pollReady (c : Crypto) (head : UInt8) : ℕ → ℕ → Fetch → SessionM Fetch
  | 0, _, f => pure f
  | n + 1, i, f => do
      let a ← ask
      if f.edid.isSome ∨ f.ready ∨ a.expired then pure f
      else do
        let f ← exchange c 0x14 (fun counter => deviceQueryReq counter 0x000c) f
        let f ← probeEvery c head i f
        pollReady c head n (i + 1) f

/-- The final fetches.  They do not look at the readiness of what they drain. -/
def finalFetches (c : Crypto) (head : UInt8) : ℕ → Fetch → SessionM Fetch
  | 0, f => pure f
  | n + 1, f =>
      if f.edid.isSome then pure f
      else do
        sendMessage 0x15 fun counter => getEdidReq counter head
        let drained ← drainOnce c f.edid
        finalFetches c head n { f with edid := drained.1 }

/-- Poll and fetch again if the early rounds left nothing. -/
def fetchLate (c : Crypto) (head : UInt8) (f : Fetch) : SessionM Fetch :=
  if f.edid.isSome then pure f
  else do
    let f ← pollReady c head pollIters 0 f
    finalFetches c head finalFetchRounds f

/-- What the transaction returns. -/
def fetched (head : UInt8) (f : Fetch) : SessionM (List UInt8) :=
  match f.edid with
  | some edid => pure edid
  | none => throw (.noEdid head)

/-- Discover a head's EDID. -/
def fetchEdid (c : Crypto) (head : UInt8) : SessionM (List UInt8) := do
  let w ← get
  let gate := w.dock.profile.quirks.edidReadyReported
  let f ← early c head gate earlyRounds { edid := none, ready := false }
  -- Two engages are required even when the block has already arrived.
  let f ← exchange c 0x16 (fun counter => edidEngageReq counter head) f
  let f ← exchange c 0x16 (fun counter => edidEngageReq counter head) f
  let f ← fetchLate c head (settle gate f)
  let f ← exchange c 0x15 (fun counter => postEdidQuery counter head) f
  fetched head (settle gate f)

/-! ### What the transaction keeps -/

section Keep

variable {I R : World → Prop} (h : Stable I R) (c : Crypto) (head : UInt8)

include h

theorem Stable.sendMessage (id : UInt16) {build : UInt16 → Rng → List UInt8}
    (hbuild : ∀ counter rng, counterOf (build counter rng) = counter) :
    Keeps I R (sendMessage id build) :=
  h.withMessage (carries_ok hbuild) nofun fun content => h.transmit id content _

theorem Stable.drainOnce (edid : Option (List UInt8)) : Keeps I R (drainOnce c edid) := by
  refine Keeps.get.bind fun w => h.ask.bind fun a => ?_
  split
  · exact Keeps.pure _
  · exact h.throw _
  · exact Keeps.pure _

theorem Stable.drain (f : Fetch) : Keeps I R (drain c f) :=
  (h.drainOnce c f.edid).bind fun _ => Keeps.pure _

theorem Stable.exchange (id : UInt16) {build : UInt16 → Rng → List UInt8}
    (hbuild : ∀ counter rng, counterOf (build counter rng) = counter) (f : Fetch) :
    Keeps I R (exchange c id build f) :=
  (h.sendMessage id hbuild).bind fun _ => h.drain c f

theorem Stable.awaitEdid : ∀ (n : ℕ) (f : Fetch), Keeps I R (awaitEdid c n f)
  | 0, f => Keeps.pure _
  | n + 1, f => by
      unfold Session.awaitEdid
      split_ifs
      · exact Keeps.pure _
      · exact (h.drain c f).bind fun f => Stable.awaitEdid n f

theorem Stable.early (gate : Bool) : ∀ (n : ℕ) (f : Fetch), Keeps I R (early c head gate n f)
  | 0, f => Keeps.pure _
  | n + 1, f => by
      unfold Session.early
      split_ifs
      · exact Keeps.pure _
      · refine (h.exchange c _ (fun _ _ => counterOf_message' _) _).bind fun f => ?_
        refine (h.exchange c _ (fun _ _ => counterOf_message' _) _).bind fun f => ?_
        refine (h.exchange c _ (fun _ _ => counterOf_message' _) _).bind fun f => ?_
        refine (h.exchange c _ (fun _ _ => counterOf_message' _) _).bind fun f => ?_
        split_ifs
        · exact Keeps.pure _
        · exact h.ask.bind fun a => (h.awaitEdid c _ _).bind fun f => Stable.early gate n f

theorem Stable.probeEvery (i : ℕ) (f : Fetch) : Keeps I R (probeEvery c head i f) := by
  unfold Session.probeEvery
  split_ifs
  · exact h.exchange c _ (fun _ _ => counterOf_message' _) f
  · exact Keeps.pure _

theorem Stable.pollReady : ∀ (n i : ℕ) (f : Fetch), Keeps I R (pollReady c head n i f)
  | 0, _, f => Keeps.pure _
  | n + 1, i, f => by
      refine h.ask.bind fun a => ?_
      split_ifs
      · exact Keeps.pure _
      · refine (h.exchange c _ (fun _ _ => counterOf_message' _) f).bind fun f => ?_
        exact (h.probeEvery c head i f).bind fun f => Stable.pollReady n (i + 1) f

theorem Stable.finalFetches : ∀ (n : ℕ) (f : Fetch), Keeps I R (finalFetches c head n f)
  | 0, f => Keeps.pure _
  | n + 1, f => by
      unfold Session.finalFetches
      split_ifs
      · exact Keeps.pure _
      · refine (h.sendMessage _ fun _ _ => counterOf_message' _).bind fun _ => ?_
        exact (h.drainOnce c f.edid).bind fun drained => Stable.finalFetches n _

theorem Stable.fetchEdid : Keeps I R (fetchEdid c head) := by
  refine Keeps.get.bind fun w => (h.early c head _ _ _).bind fun f => ?_
  refine (h.exchange c _ (fun _ _ => counterOf_message' _) _).bind fun f => ?_
  refine (h.exchange c _ (fun _ _ => counterOf_message' _) _).bind fun f => ?_
  refine Keeps.bind ?_ fun f => ?_
  · unfold fetchLate
    split_ifs
    · exact Keeps.pure _
    · exact (h.pollReady c head _ _ _).bind fun f => h.finalFetches c head _ f
  · refine (h.exchange c _ (fun _ _ => counterOf_message' _) _).bind fun f => ?_
    unfold fetched
    split
    · exact Keeps.pure _
    · exact h.throw _

end Keep

end Vino.Session
