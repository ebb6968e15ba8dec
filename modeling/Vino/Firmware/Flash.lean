import Vino.Firmware.Updates
import Vino.Lib.Chunks
import Vino.Lib.Effect

/-!
# Writing a Firmware Image

An image is written over USB DFU: one detach, the image block by block, each block followed by
status polls until the dock is ready, then a zero-length download that manifests it.  The write
cannot be undone.  How the dock answers every transfer is a parameter.  Two callers validate the
image, the automatic update and the upload interface.

* `update_allOrRefused`: what the automatic update sends, for any answers.
* `upload_allOrRefused`: what an upload sends, for any answers and any callbacks of which at most
  one writes at offset zero.
* `upload_twice`: two writes at offset zero send the image twice.
-/

namespace Vino.Firmware.Dfu

open Vino.Lib.Chunks Vino.Lib.Effect Vino.Lib.Run

/-! ### Transfers and answers -/

/-- A control transfer on the interface: one that sends data, or one that asks for some bytes. -/
inductive Transfer where
  | send (request requestType : UInt8) (value index : UInt16) (data : List UInt8)
  | recv (request requestType : UInt8) (value index : UInt16) (len : ℕ)
  deriving DecidableEq

/-- The reply to a status request: `bStatus, bwPollTimeout[3], bState, iString`. -/
structure Status where
  status : UInt8
  poll0 : UInt8
  poll1 : UInt8
  poll2 : UInt8
  state : UInt8
  string : UInt8
  deriving DecidableEq

/-- The bytes of a reply matter to a status request only. -/
inductive Answer where
  | failed
  | reply (st : Status)
  deriving DecidableEq

inductive Errno where
  | inval
  | fbig
  | io
  | timedOut
  deriving DecidableEq

/-- What has gone over the interface, and how long the driver has slept, in milliseconds. -/
structure Bus where
  log : List (Transfer × Answer)
  slept : ℕ

def Bus.new : Bus := ⟨[], 0⟩

def dfuOut : UInt8 := 0x21
def dfuIn : UInt8 := 0xa1
def dfuDetach : UInt8 := 0
def dfuDnload : UInt8 := 1
def dfuGetStatus : UInt8 := 3
def block : ℕ := 4096
def detachTimeoutMs : UInt16 := 100
def statusLen : ℕ := 6
def statusOk : UInt8 := 0
def stateDnloadIdle : UInt8 := 5
def stateDnBusy : UInt8 := 4
def stateManifest : UInt8 := 7

section Bus

-- how the dock answers its transfers, in their order
variable (dock : ℕ → Answer)

/-- A control transfer; one that fails is an error of the caller. -/
def control (t : Transfer) : EStateM Errno Bus Status := fun s =>
  match dock s.log.length with
  | .failed => .error .io { s with log := s.log ++ [(t, .failed)] }
  | .reply st => .ok st { s with log := s.log ++ [(t, .reply st)] }

def getStatus (iface : UInt16) : Transfer := .recv dfuGetStatus dfuIn 0 iface statusLen

/-- The milliseconds the dock asks the driver to wait. -/
def Status.poll (st : Status) : ℕ :=
  st.poll0.toNat + st.poll1.toNat * 2 ^ 8 + st.poll2.toNat * 2 ^ 16

/-- So many status polls at most, until the dock is neither busy nor manifesting. -/
def polls (iface : UInt16) : ℕ → EStateM Errno Bus UInt8
  | 0 => throw .timedOut
  | n + 1 => do
      let st ← control dock (getStatus iface)
      if st.status ≠ statusOk then throw .io
      else if st.state ≠ stateDnBusy ∧ st.state ≠ stateManifest then return st.state
      else do
        modifyThe Bus fun s => { s with slept := s.slept + max 1 (min st.poll 1000) }
        polls iface n

def waitReady (iface : UInt16) : EStateM Errno Bus UInt8 := polls dock iface 1000

def detach (iface : UInt16) : Transfer := .send dfuDetach dfuOut detachTimeoutMs iface []

/-- The download of a block; the number is cut to sixteen bits. -/
def download (iface : UInt16) (n : ℕ) (chunk : List UInt8) : Transfer :=
  .send dfuDnload dfuOut (UInt16.ofNat n) iface chunk

def manifest (iface : UInt16) : Transfer := .send dfuDnload dfuOut 0 iface []

/-- One block, and the polls behind it. -/
def writeBlock (iface : UInt16) (chunk : List UInt8 × ℕ) : EStateM Errno Bus PUnit := do
  let _ ← control dock (download iface chunk.2 chunk.1)
  let state ← waitReady dock iface
  if state ≠ stateDnloadIdle then throw .io

/-- `flash`: what the polls behind the manifest say is only logged. -/
def flash (iface : UInt16) (image : List UInt8) : EStateM Errno Bus PUnit :=
  if !isPackage image then throw .inval
  else if 65535 < (image.length + block - 1) / block then throw .fbig
  else do
    let _ ← control dock (detach iface)
    ((image.toChunks block).zipIdx).forM (writeBlock dock iface)
    let _ ← control dock (manifest iface)
    tryCatch (do let _ ← waitReady dock iface) fun _ => return

end Bus

/-! ### The two callers -/

section Callers

variable (dock : ℕ → Answer)

/-- The automatic path: `update_if_newer` on a dock. -/
def automatic (loader : String → Option (List UInt8)) (t : Table) (dev : List UInt8)
    (identity : Identity) (iface : UInt16) (force : Bool) : Bus :=
  match (updateIfNewer loader t dev identity force).1 with
  | .left => .new
  | .flash image => final (flash dock iface image) .new

/-- What an upload needs to reach the dock, and the flag userspace can set. -/
structure UploadCtx where
  windowOpen : Bool
  cancelled : Bool
  family : Family

inductive UploadError where
  | canceled
  | hardware
  | readWrite
  | invalidFirmware
  /-- The remaining length is below zero. -/
  | overflow
  deriving DecidableEq

def prepare (ctx : UploadCtx) (image : List UInt8) : UploadCtx × Option UploadError :=
  if !isPackage image then ({ ctx with cancelled := false }, some .invalidFirmware)
  else if packageFamily image ≠ some ctx.family then
    ({ ctx with cancelled := false }, some .invalidFirmware)
  else ({ ctx with cancelled := false }, none)

def dfuInterface : UInt8 := 1

/-- The upload callback: how many bytes it has taken, and what went over the interface. -/
def write (ctx : UploadCtx) (image : List UInt8) (offset : UInt32) (bus : Bus) :
    Except UploadError UInt32 × Bus :=
  let len := UInt32.ofNat image.length
  if offset ≠ 0 then (if offset ≤ len then .ok (len - offset) else .error .overflow, bus)
  else if ctx.cancelled then (.error .canceled, bus)
  else if !ctx.windowOpen then (.error .hardware, bus)
  else
    match flash dock dfuInterface.toUInt16 image bus with
    | .ok _ bus => (.ok len, bus)
    | .error _ bus => (.error .readWrite, bus)

/-- What can happen once an upload is prepared: the core writes, userspace cancels, the device goes
away. -/
inductive Callback where
  | write (offset : UInt32)
  | cancel
  | closeWindow
  deriving DecidableEq

def callback (image : List UInt8) (s : UploadCtx × Bus) : Callback → UploadCtx × Bus
  | .write offset => (s.1, (write dock s.1 image offset s.2).2)
  | .cancel => ({ s.1 with cancelled := true }, s.2)
  | .closeWindow => ({ s.1 with windowOpen := false }, s.2)

/-- The upload path. -/
def upload (ctx : UploadCtx) (image : List UInt8) (callbacks : List Callback) : Bus :=
  match prepare ctx image with
  | (_, some _) => .new
  | (ctx, none) => (run (callback dock image) (ctx, .new) callbacks).2

end Callers

/-! ### What may be sent -/

/-- The blocks of an image, with their numbers. -/
def blocks (image : List UInt8) : List (List UInt8 × ℕ) := (image.toChunks block).zipIdx

def Transfer.isSend : Transfer → Bool
  | .send .. => true
  | .recv .. => false

/-- What is sent to the dock, in order; the status polls in between are not counted. -/
def sends (log : List (Transfer × Answer)) : List Transfer :=
  (log.map Prod.fst).filter Transfer.isSend

/-- A status reply that makes the driver ask again. -/
def Status.Busy (st : Status) : Prop :=
  st.status = statusOk ∧ (st.state = stateDnBusy ∨ st.state = stateManifest)

/-- The reply to a block that was taken. -/
def Status.Ready (st : Status) : Prop := st.status = statusOk ∧ st.state = stateDnloadIdle

/-- A transfer error, a status other than OK, or a state that is neither busy nor idle. -/
def Halts (e : Transfer × Answer) : Prop :=
  e.2 = .failed ∨ e.1.isSend = false ∧ ∀ st, e.2 = .reply st → ¬ st.Busy ∧ ¬ st.Ready

section Iface

variable (iface : UInt16)

/-- Polls to which the dock answers that it is busy. -/
def AllBusy (l : List (Transfer × Answer)) : Prop :=
  ∀ e ∈ l, ∃ st : Status, e = (getStatus iface, .reply st) ∧ st.Busy

/-- A block that was taken: it is sent, the dock is busy for some polls, and then idle. -/
def Taken (b : List UInt8 × ℕ) (l : List (Transfer × Answer)) : Prop :=
  ∃ st busy idle, l = (download iface b.2 b.1, .reply st) :: busy ++
      [(getStatus iface, .reply idle)] ∧
    AllBusy iface busy ∧ idle.Ready

/-- The detach and the given blocks, each of them taken. -/
def Written (bs : List (List UInt8 × ℕ)) (log : List (Transfer × Answer)) : Prop :=
  ∃ st exchanges, log = (detach iface, .reply st) :: exchanges.flatten ∧
    List.Forall₂ (Taken iface) bs exchanges

/-- **All or refused.**  Nothing is sent but a package for the family of the dock; the detach comes
first, and what is sent is one detach, the blocks in order under their own numbers, and the
manifest; the manifest goes out only behind blocks that were all taken and make up the image;
nothing follows an error or an unexpected state. -/
structure AllOrRefused (family : Option Family) (image : List UInt8)
    (log : List (Transfer × Answer)) : Prop where
  validated : log ≠ [] →
    isPackage image = true ∧ ∃ f, family = some f ∧ packageFamily image = some f
  detached : log ≠ [] → ∃ a rest, log = (detach iface, a) :: rest
  order : sends log <+: detach iface ::
    ((blocks image).map fun b => download iface b.2 b.1) ++ [manifest iface]
  numbered : log ≠ [] → ∀ b ∈ blocks image, (UInt16.ofNat b.2).toNat = b.2
  complete : ∀ front a rest, log = front ++ (manifest iface, a) :: rest →
    Written iface (blocks image) front ∧ ((blocks image).map Prod.fst).flatten = image
  stops : ∀ e ∈ log.dropLast, ¬ Halts e

/-! ### One transfer, one block -/

section Run

variable {iface} {dock : ℕ → Answer}

/-- A transfer is logged with its answer. -/
theorem control_spec (t : Transfer) (front : List (Transfer × Answer)) :
    Triple (fun s => s.log = front) (control dock t)
      (fun st s => s.log = front ++ [(t, .reply st)]) fun s => s.log = front ++ [(t, .failed)] := by
  rintro s rfl
  unfold control
  cases dock s.log.length with
  | failed => rfl
  | reply st => rfl

/-- The polls behind a transfer: the dock is busy, up to a last reply. -/
def Polled (iface : UInt16) (l : List (Transfer × Answer)) : Prop :=
  ∃ busy last, l = busy ++ last ∧ AllBusy iface busy ∧ last.length ≤ 1 ∧
    ∀ e ∈ last, e.1 = getStatus iface

theorem AllBusy.append {l l' : List (Transfer × Answer)} (h : AllBusy iface l)
    (h' : AllBusy iface l') : AllBusy iface (l ++ l') := by
  intro e he
  rcases List.mem_append.1 he with hmem | hmem
  · exact h e hmem
  · exact h' e hmem

theorem polled_last {busy : List (Transfer × Answer)} (hbusy : AllBusy iface busy) (a : Answer) :
    Polled iface (busy ++ [(getStatus iface, a)]) :=
  ⟨busy, _, rfl, hbusy, le_rfl, by simp⟩

theorem polls_spec (n : ℕ) (front busy : List (Transfer × Answer)) (hbusy : AllBusy iface busy) :
    Triple (fun s => s.log = front ++ busy) (polls dock iface n)
      (fun state s => ∃ busy st, s.log = front ++ (busy ++ [(getStatus iface, .reply st)]) ∧
        AllBusy iface busy ∧ st.status = statusOk ∧ st.state = state)
      fun s => ∃ l, s.log = front ++ l ∧ Polled iface l := by
  induction n generalizing busy with
  | zero =>
    exact Triple.throw fun s hs => ⟨busy, hs, busy, [], by simp, hbusy, by simp, by simp⟩
  | succ n ih =>
    have hask : Triple (fun s => s.log = front ++ busy) (control dock (getStatus iface))
        (fun st s => s.log = front ++ (busy ++ [(getStatus iface, .reply st)]))
        fun s => ∃ l, s.log = front ++ l ∧ Polled iface l := by
      refine (control_spec (getStatus iface) _).mono (fun _ h => h) ?_ ?_
      · intro st s hs
        rw [hs, List.append_assoc]
      · intro s hs
        exact ⟨_, by rw [hs, List.append_assoc], polled_last hbusy _⟩
    refine hask.bind fun st => ?_
    split_ifs with hstatus hstate
    · exact Triple.throw fun s hs => ⟨_, hs, polled_last hbusy _⟩
    · exact Triple.pure fun s hs => ⟨busy, st, hs, hbusy, not_not.1 hstatus, rfl⟩
    · have hone : AllBusy iface [(getStatus iface, .reply st)] := by
        intro e he
        refine ⟨st, List.mem_singleton.1 he, not_not.1 hstatus, ?_⟩
        by_contra hnot
        exact hstate (not_or.1 hnot)
      have hsleep : Triple (fun s => s.log = front ++ (busy ++ [(getStatus iface, .reply st)]))
          (modifyThe Bus fun s => { s with slept := s.slept + max 1 (min st.poll 1000) } :
            EStateM Errno Bus PUnit)
          (fun _ s => s.log = front ++ (busy ++ [(getStatus iface, .reply st)]))
          fun s => ∃ l, s.log = front ++ l ∧ Polled iface l := Triple.modify fun s hs => hs
      exact hsleep.bind fun _ => ih _ (hbusy.append hone)

/-- A request that is the last one: it fails, or is followed by polls. -/
def Tried (iface : UInt16) (t : Transfer) (l : List (Transfer × Answer)) : Prop :=
  ∃ a polls, l = (t, a) :: polls ∧ Polled iface polls ∧ (a = .failed → polls = [])

theorem tried_failed (t : Transfer) : Tried iface t [(t, .failed)] :=
  ⟨_, [], rfl, ⟨[], [], rfl, by simp [AllBusy], by simp, by simp⟩, fun _ => rfl⟩

theorem Polled.tried {l : List (Transfer × Answer)} (h : Polled iface l) (t : Transfer)
    (st : Status) : Tried iface t ((t, .reply st) :: l) :=
  ⟨.reply st, l, rfl, h, fun h => nomatch h⟩

/-- What has been sent when the write ends: nothing, the detach, or some blocks that were taken and
a last request. -/
def Ended (iface : UInt16) (image : List UInt8) (log : List (Transfer × Answer)) : Prop :=
  log = [] ∨ (∃ a, log = [(detach iface, a)]) ∨
    (∃ bs b front l, bs ++ [b] <+: blocks image ∧ Written iface bs front ∧ log = front ++ l ∧
      Tried iface (download iface b.2 b.1) l) ∨
    ∃ front l, Written iface (blocks image) front ∧ log = front ++ l ∧
      Tried iface (manifest iface) l

/-- A write that has begun has begun with the detach. -/
theorem Written.detached {bs : List (List UInt8 × ℕ)} {front : List (Transfer × Answer)}
    (h : Written iface bs front) (l : List (Transfer × Answer)) :
    ∃ a rest, front ++ l = (detach iface, a) :: rest := by
  obtain ⟨st, exchanges, rfl, -⟩ := h
  exact ⟨_, exchanges.flatten ++ l, rfl⟩

theorem Written.snoc {bs : List (List UInt8 × ℕ)} {b : List UInt8 × ℕ}
    {front l : List (Transfer × Answer)} (h : Written iface bs front) (hl : Taken iface b l) :
    Written iface (bs ++ [b]) (front ++ l) := by
  obtain ⟨st, exchanges, rfl, hall⟩ := h
  refine ⟨st, exchanges ++ [l], by simp, ?_⟩
  exact List.rel_append hall (List.Forall₂.cons hl .nil)

/-- **One block.**  It is taken, or it is the last request. -/
theorem writeBlock_spec {image : List UInt8} {bs : List (List UInt8 × ℕ)} {b : List UInt8 × ℕ}
    (hb : bs ++ [b] <+: blocks image) :
    Triple (fun s => Written iface bs s.log) (writeBlock dock iface b)
      (fun _ s => Written iface (bs ++ [b]) s.log) fun s => Ended iface image s.log := by
  intro s hs
  refine Triple.bind (P := fun s' => s'.log = s.log) (Q := fun st s' => s'.log =
    (s.log ++ [(download iface b.2 b.1, .reply st)]) ++ []) ?_ ?_ s rfl
  · refine (control_spec (download iface b.2 b.1) _).mono (fun _ h => h) ?_ ?_
    · intro st s' hs'
      rw [hs', List.append_nil]
    · intro s' hs'
      exact .inr (.inr (.inl ⟨bs, b, _, _, hb, hs, hs', tried_failed _⟩))
  · intro st
    have hended : ∀ (l : List (Transfer × Answer)) (s' : Bus), Polled iface l →
        s'.log = (s.log ++ [(download iface b.2 b.1, .reply st)]) ++ l →
          Ended iface image s'.log := by
      intro l s' hl hs'
      refine .inr (.inr (.inl ⟨bs, b, s.log, _, hb, hs, ?_, hl.tried _ st⟩))
      rw [hs', List.append_assoc, List.singleton_append]
    have hready := @polls_spec iface dock 1000
      (s.log ++ [(download iface b.2 b.1, .reply st)]) [] (by simp [AllBusy])
    refine (hready.mono (fun _ h => h) (fun _ _ h => h) ?_).bind fun state => ?_
    · rintro s' ⟨l, hs', hl⟩
      exact hended l s' hl hs'
    · split_ifs with hstate
      · refine Triple.throw ?_
        rintro s' ⟨busy, st', hs', hbusy, -, -⟩
        exact hended _ s' (polled_last hbusy _) hs'
      · refine Triple.pure ?_
        rintro s' ⟨busy, st', hs', hbusy, hok, rfl⟩
        rw [hs', List.append_assoc, List.singleton_append]
        exact hs.snoc ⟨st, busy, st', by simp, hbusy, hok, not_not.1 hstate⟩

/-- **The write** sends nothing, or a package of at most 65535 blocks as said. -/
theorem flash_ended (iface : UInt16) (image : List UInt8) :
    Triple (fun s => s.log = []) (flash dock iface image)
      (fun _ s => s.log = [] ∨ isPackage image = true ∧ (blocks image).length ≤ 65535 ∧
        Ended iface image s.log)
      fun s => s.log = [] ∨ isPackage image = true ∧ (blocks image).length ≤ 65535 ∧
        Ended iface image s.log := by
  have hcount : (blocks image).length = (image.length + block - 1) / block := by
    rw [blocks, List.length_zipIdx, length_toChunks (by decide)]
  unfold flash
  split_ifs with hpackage hbig
  · exact Triple.throw fun s hs => .inl hs
  · exact Triple.throw fun s hs => .inl hs
  · have hvalid : isPackage image = true ∧ (blocks image).length ≤ 65535 :=
      ⟨by simpa using hpackage, by omega⟩
    refine Triple.mono (Q := fun _ s => Ended iface image s.log)
      (R := fun s => Ended iface image s.log) ?_ (fun _ h => h)
      (fun _ _ h => .inr ⟨hvalid.1, hvalid.2, h⟩) fun _ h => .inr ⟨hvalid.1, hvalid.2, h⟩
    have hdetach : Triple (fun s => s.log = []) (control dock (detach iface))
        (fun _ s => Written iface [] s.log) fun s => Ended iface image s.log := by
      refine (control_spec (detach iface) []).mono (fun _ h => h) ?_ ?_
      · intro st s hs
        exact ⟨st, [], hs, .nil⟩
      · intro s hs
        exact .inr (.inl ⟨_, hs⟩)
    refine hdetach.bind fun _ => ?_
    refine (Triple.forM_prefix (I := fun bs (s : Bus) => Written iface bs s.log) (l := blocks image)
      fun bs b hb => writeBlock_spec hb).bind fun _ => ?_
    intro s hs
    have hmanifest : Triple (fun s' : Bus => s'.log = s.log) (control dock (manifest iface))
        (fun st s' => s'.log = (s.log ++ [(manifest iface, .reply st)]) ++ [])
        fun s' => Ended iface image s'.log := by
      refine (control_spec (manifest iface) _).mono (fun _ h => h) ?_ ?_
      · intro st s' hs'
        rw [hs', List.append_nil]
      · intro s' hs'
        exact .inr (.inr (.inr ⟨_, _, hs, hs', tried_failed _⟩))
    refine hmanifest.bind (fun st => ?_) s rfl
    have hended : ∀ (l : List (Transfer × Answer)) (s' : Bus), Polled iface l →
        s'.log = (s.log ++ [(manifest iface, .reply st)]) ++ l → Ended iface image s'.log := by
      intro l s' hl hs'
      refine .inr (.inr (.inr ⟨s.log, _, hs, ?_, hl.tried _ st⟩))
      rw [hs', List.append_assoc, List.singleton_append]
    have hready := @polls_spec iface dock 1000
      (s.log ++ [(manifest iface, .reply st)]) [] (by simp [AllBusy])
    refine Triple.tryCatch ?_ fun _ => Triple.pure fun _ h => h
    refine (hready.mono (fun _ h => h) (fun _ _ h => h) ?_).bind fun state => Triple.pure ?_
    · rintro s' ⟨l, hs', hl⟩
      exact hended l s' hl hs'
    · rintro s' ⟨busy, st', hs', hbusy, -, -⟩
      exact hended _ s' (polled_last hbusy _) hs'

/-! ### Reading the requests off the log -/

@[simp] theorem sends_append (l l' : List (Transfer × Answer)) :
    sends (l ++ l') = sends l ++ sends l' := by
  rw [sends, List.map_append, List.filter_append, sends, sends]

theorem AllBusy.sends {l : List (Transfer × Answer)} (h : AllBusy iface l) : sends l = [] := by
  rw [Dfu.sends, List.filter_eq_nil_iff]
  intro t ht
  obtain ⟨e, he, rfl⟩ := List.mem_map.1 ht
  obtain ⟨st, rfl, -⟩ := h e he
  simp [getStatus, Transfer.isSend]

theorem Polled.asks {l : List (Transfer × Answer)} (h : Polled iface l) :
    ∀ e ∈ l, e.1 = getStatus iface := by
  obtain ⟨busy, last, rfl, hbusy, -, hlast⟩ := h
  intro e he
  rcases List.mem_append.1 he with hmem | hmem
  · obtain ⟨st, rfl, -⟩ := hbusy e hmem
    rfl
  · exact hlast e hmem

theorem Polled.sends {l : List (Transfer × Answer)} (h : Polled iface l) : sends l = [] := by
  rw [Dfu.sends, List.filter_eq_nil_iff]
  intro t ht
  obtain ⟨e, he, rfl⟩ := List.mem_map.1 ht
  rw [h.asks e he]
  simp [getStatus, Transfer.isSend]

theorem Tried.sends {t : Transfer} {l : List (Transfer × Answer)} (h : Tried iface t l)
    (ht : t.isSend = true) : sends l = [t] := by
  obtain ⟨a, polls, rfl, hpolls, -⟩ := h
  have hnone := hpolls.sends
  simp only [Dfu.sends, List.map_cons, List.filter_cons, ht, if_true] at hnone ⊢
  rw [hnone]

theorem Taken.sends {b : List UInt8 × ℕ} {l : List (Transfer × Answer)} (h : Taken iface b l) :
    sends l = [download iface b.2 b.1] := by
  obtain ⟨st, busy, idle, rfl, hbusy, -⟩ := h
  exact ((polled_last hbusy _).tried (download iface b.2 b.1) st).sends rfl

theorem Written.sends {bs : List (List UInt8 × ℕ)} {log : List (Transfer × Answer)}
    (h : Written iface bs log) :
    sends log = detach iface :: bs.map fun b => download iface b.2 b.1 := by
  obtain ⟨st, exchanges, rfl, hall⟩ := h
  have hblocks : Dfu.sends exchanges.flatten = bs.map fun b => download iface b.2 b.1 := by
    induction hall with
    | nil => rfl
    | cons hone _ ih => rw [List.flatten_cons, sends_append, hone.sends, ih]; rfl
  rw [← hblocks]
  rfl

theorem not_halts_send {t : Transfer} (ht : t.isSend = true) (st : Status) :
    ¬ Halts (t, .reply st) := by
  rintro (h | ⟨h, -⟩)
  · exact nomatch h
  · rw [ht] at h
    exact nomatch h

theorem AllBusy.not_halts {l : List (Transfer × Answer)} (h : AllBusy iface l) :
    ∀ e ∈ l, ¬ Halts e := by
  intro e he
  obtain ⟨st, rfl, hbusy⟩ := h e he
  rintro (h | ⟨-, h⟩)
  · exact nomatch h
  · exact (h st rfl).1 hbusy

theorem Taken.not_halts {b : List UInt8 × ℕ} {l : List (Transfer × Answer)}
    (h : Taken iface b l) : ∀ e ∈ l, ¬ Halts e := by
  obtain ⟨st, busy, idle, rfl, hbusy, hready⟩ := h
  intro e he
  rcases List.mem_cons.1 he with rfl | hmem
  · exact not_halts_send rfl st
  · rcases List.mem_append.1 hmem with hmem | hmem
    · exact hbusy.not_halts e hmem
    · rw [List.mem_singleton.1 hmem]
      rintro (h | ⟨-, h⟩)
      · exact nomatch h
      · exact (h idle rfl).2 hready

theorem Written.not_halts {bs : List (List UInt8 × ℕ)} {log : List (Transfer × Answer)}
    (h : Written iface bs log) : ∀ e ∈ log, ¬ Halts e := by
  obtain ⟨st, exchanges, rfl, hall⟩ := h
  have hblocks : ∀ e ∈ exchanges.flatten, ¬ Halts e := by
    induction hall with
    | nil => simp
    | cons hone _ ih =>
      intro e he
      rw [List.flatten_cons, List.mem_append] at he
      rcases he with hmem | hmem
      · exact hone.not_halts e hmem
      · exact ih e hmem
  intro e he
  rcases List.mem_cons.1 he with rfl | hmem
  · exact not_halts_send rfl st
  · exact hblocks e hmem

theorem Polled.not_halts {l : List (Transfer × Answer)} (h : Polled iface l) :
    ∀ e ∈ l.dropLast, ¬ Halts e := by
  obtain ⟨busy, last, rfl, hbusy, hlen, -⟩ := h
  intro e he
  rcases last with _ | ⟨e', _ | ⟨e'', last⟩⟩
  · rw [List.append_nil] at he
    exact hbusy.not_halts e (List.dropLast_subset _ he)
  · rw [List.dropLast_concat] at he
    exact hbusy.not_halts e he
  · simp at hlen

/-- The last request, but for its last entry. -/
theorem Tried.not_halts {t : Transfer} {l : List (Transfer × Answer)} (h : Tried iface t l)
    (ht : t.isSend = true) : ∀ e ∈ l.dropLast, ¬ Halts e := by
  obtain ⟨a, polls, rfl, hpolls, hfailed⟩ := h
  intro e he
  by_cases hne : polls = []
  · simp [hne] at he
  · rw [List.dropLast_cons_of_ne_nil hne] at he
    rcases List.mem_cons.1 he with rfl | hmem
    · cases a with
      | failed => exact absurd (hfailed rfl) hne
      | reply st => exact not_halts_send ht st
    · exact hpolls.not_halts e hmem

/-- No block is empty, so none is taken for the manifest. -/
theorem download_ne_manifest {image : List UInt8} {b : List UInt8 × ℕ} (hb : b ∈ blocks image) :
    download iface b.2 b.1 ≠ manifest iface := by
  have hmem : b.1 ∈ image.toChunks block := by
    have hfst := List.mem_map_of_mem (f := Prod.fst) hb
    rwa [blocks, List.zipIdx_map_fst] at hfst
  intro heq
  simp only [download, manifest, Transfer.send.injEq] at heq
  exact mem_toChunks_ne_nil (by decide) hmem heq.2.2.2.2

/-- The manifest is in the log only where it is sent. -/
theorem mem_sends {l : List (Transfer × Answer)} {t : Transfer} {a : Answer}
    (ht : t.isSend = true) (h : (t, a) ∈ l) : t ∈ sends l :=
  List.mem_filter.2 ⟨List.mem_map_of_mem (f := Prod.fst) h, ht⟩

theorem manifest_notMem {image : List UInt8} {bs : List (List UInt8 × ℕ)}
    (hbs : bs <+: blocks image) :
    manifest iface ∉ detach iface :: bs.map fun b => download iface b.2 b.1 := by
  intro hmem
  rcases List.mem_cons.1 hmem with h | h
  · simp [manifest, detach, dfuDnload, dfuDetach] at h
  · obtain ⟨b, hb, heq⟩ := List.mem_map.1 h
    exact download_ne_manifest (hbs.subset hb) heq

/-- The first manifest of a log is at a place that only one front part leads to. -/
theorem front_unique {front front' l l' : List (Transfer × Answer)} {a a' : Answer}
    (h : front ++ (manifest iface, a) :: l = front' ++ (manifest iface, a') :: l')
    (hfront : manifest iface ∉ sends front) (hl : manifest iface ∉ sends l) : front' = front := by
  rcases List.append_eq_append_iff.1 h with ⟨m, rfl, hm⟩ | ⟨m, rfl, hm⟩
  · rcases m with _ | ⟨e, m⟩
    · rw [List.append_nil]
    · rw [List.cons_append, List.cons.injEq] at hm
      exact absurd (mem_sends (a := a') rfl (by rw [hm.2]; simp)) hl
  · rcases m with _ | ⟨e, m⟩
    · rw [List.append_nil]
    · rw [List.cons_append, List.cons.injEq] at hm
      exact absurd (mem_sends (a := a') rfl (by rw [hm.1]; simp)) hfront

theorem fst_blocks (image : List UInt8) : (blocks image).map Prod.fst = image.toChunks block :=
  List.zipIdx_map_fst ..

/-- **How the write ends** is all or refused. -/
theorem Ended.allOrRefused {family : Option Family} {image : List UInt8}
    {log : List (Transfer × Answer)} (h : Ended iface image log)
    (hpackage : isPackage image = true) (hcount : (blocks image).length ≤ 65535)
    (hfamily : ∃ f, family = some f ∧ packageFamily image = some f) :
    AllOrRefused iface family image log := by
  have hnumbered : ∀ b ∈ blocks image, (UInt16.ofNat b.2).toNat = b.2 := by
    intro b hb
    have hlt := List.snd_lt_of_mem_zipIdx hb
    rw [blocks, List.length_zipIdx] at hcount
    rw [UInt16.toNat_ofNat', Nat.mod_eq_of_lt (by omega)]
  have hwhole : ((blocks image).map Prod.fst).flatten = image := by
    rw [fst_blocks, flatten_toChunks (by decide)]
  rcases h with rfl | ⟨a, rfl⟩ | ⟨bs, b, front, l, hbs, hfront, rfl, hl⟩ |
    ⟨front, l, hfront, rfl, hl⟩
  · exact ⟨fun _ => ⟨hpackage, hfamily⟩, by simp, List.nil_prefix, fun _ => hnumbered, by simp,
      by simp⟩
  · refine ⟨fun _ => ⟨hpackage, hfamily⟩, fun _ => ⟨a, [], rfl⟩, ?_, fun _ => hnumbered, ?_,
      by simp⟩
    · exact (List.prefix_cons_inj _).2 List.nil_prefix
    · intro front a' rest hlog
      have hmem : (manifest iface, a') ∈ [(detach iface, a)] := by rw [hlog]; simp
      simp [manifest, detach, dfuDnload, dfuDetach] at hmem
  · have hsends : sends (front ++ l) =
        detach iface :: (bs ++ [b]).map fun b => download iface b.2 b.1 := by
      rw [sends_append, hfront.sends, hl.sends rfl, List.map_append]
      rfl
    refine ⟨fun _ => ⟨hpackage, hfamily⟩, fun _ => hfront.detached l, ?_, fun _ => hnumbered, ?_,
      ?_⟩
    · rw [hsends, List.cons_append, List.prefix_cons_inj]
      exact (hbs.map _).trans (List.prefix_append _ _)
    · intro front' a' rest hlog
      have hmem : manifest iface ∈ sends (front ++ l) :=
        mem_sends (a := a') rfl (by rw [hlog]; simp)
      rw [hsends] at hmem
      exact absurd hmem (manifest_notMem hbs)
    · obtain ⟨a, polls, rfl, -⟩ := id hl
      intro e he
      rw [List.dropLast_append_of_ne_nil (by simp), List.mem_append] at he
      rcases he with hmem | hmem
      · exact hfront.not_halts e hmem
      · exact hl.not_halts rfl e hmem
  · refine ⟨fun _ => ⟨hpackage, hfamily⟩, fun _ => hfront.detached l, ?_, fun _ => hnumbered, ?_,
      ?_⟩
    · rw [sends_append, hfront.sends, hl.sends rfl]
    · intro front' a' rest hlog
      obtain ⟨a, polls, rfl, hpolls, -⟩ := hl
      have hnone : manifest iface ∉ sends front := by
        rw [hfront.sends]
        exact manifest_notMem List.prefix_rfl
      obtain rfl := front_unique hlog hnone (by rw [hpolls.sends]; simp)
      exact ⟨hfront, hwhole⟩
    · obtain ⟨a, polls, rfl, -⟩ := id hl
      intro e he
      rw [List.dropLast_append_of_ne_nil (by simp), List.mem_append] at he
      rcases he with hmem | hmem
      · exact hfront.not_halts e hmem
      · exact hl.not_halts rfl e hmem

theorem AllOrRefused.nil (family : Option Family) (image : List UInt8) :
    AllOrRefused iface family image [] :=
  ⟨fun h => absurd rfl h, fun h => absurd rfl h, List.nil_prefix, fun h => absurd rfl h, by simp,
    by simp⟩

/-- **A whole write** of an image that was validated. -/
theorem flash_allOrRefused {family : Option Family} {image : List UInt8} {s : Bus}
    (hs : s.log = []) (hfamily : ∃ f, family = some f ∧ packageFamily image = some f) :
    AllOrRefused iface family image (final (flash dock iface image) s).log := by
  have hread : ∀ s : Bus, (s.log = [] ∨ isPackage image = true ∧ (blocks image).length ≤ 65535 ∧
      Ended iface image s.log) → AllOrRefused iface family image s.log := by
    rintro s (hnil | ⟨hpackage, hcount, hended⟩)
    · rw [hnil]
      exact AllOrRefused.nil family image
    · exact hended.allOrRefused hpackage hcount hfamily
  exact (flash_ended iface image).final hs (fun _ => hread) hread

end Run

end Iface

/-! ### Both callers -/

section Both

variable (dock : ℕ → Answer)

/-- An update is the file of the dock, for the family of the dock. -/
theorem updateIfNewer_flash {loader : String → Option (List UInt8)} {t : Table} {dev : List UInt8}
    {identity : Identity} {force : Bool} {image : List UInt8}
    (h : (updateIfNewer loader t dev identity force).1 = .flash image) :
    identity.firmwareName.bind loader = some image ∧
      ∃ f, identity.family = some f ∧ packageFamily image = some f := by
  unfold updateIfNewer at h
  cases hname : identity.firmwareName with
  | none => simp [hname] at h
  | some name =>
    cases hfw : loader name with
    | none => simp [hname, hfw] at h
    | some fw =>
      simp only [hname, hfw] at h
      by_cases hpackage : (!isPackage fw) = true
      · simp [hpackage] at h
      · by_cases hfamily : (packageFamily fw).isNone = true ∨ packageFamily fw ≠ identity.family
        · rw [if_neg hpackage, if_pos hfamily] at h
          exact nomatch h
        · rw [if_neg hpackage, if_neg hfamily] at h
          have himage : image = fw := by
            split at h
            · simp at h
            · split_ifs at h <;> simp_all
          obtain ⟨hsome, hsame⟩ := not_or.1 hfamily
          obtain ⟨f, hf⟩ := Option.ne_none_iff_exists'.1 (by simpa using hsome)
          rw [himage]
          exact ⟨hfw, f, (not_not.1 hsame).symm.trans hf, hf⟩

/-- The automatic path writes what the loader has for the dock, or nothing. -/
theorem update_allOrRefused (loader : String → Option (List UInt8)) (t : Table) (dev : List UInt8)
    (identity : Identity) (iface : UInt16) (force : Bool) :
    let log := (automatic dock loader t dev identity iface force).log
    (∀ image, identity.firmwareName.bind loader = some image →
        AllOrRefused iface identity.family image log) ∧
      (identity.firmwareName.bind loader = none → log = []) := by
  intro log
  cases hupdate : (updateIfNewer loader t dev identity force).1 with
  | left =>
    have hlog : log = [] := by simp [log, automatic, hupdate, Bus.new]
    rw [hlog]
    exact ⟨fun image _ => .nil _ image, fun _ => rfl⟩
  | flash image =>
    obtain ⟨hfile, hfamily⟩ := updateIfNewer_flash hupdate
    have hlog : log = (final (flash dock iface image) .new).log := by
      simp [log, automatic, hupdate]
    refine ⟨fun image' himage' => ?_, fun hnone => absurd (hfile.symm.trans hnone) (by simp)⟩
    obtain rfl := Option.some_inj.1 (hfile.symm.trans himage')
    rw [hlog]
    exact flash_allOrRefused rfl hfamily

variable {dock}

/-- Only a write at offset zero reaches the dock. -/
theorem callback_bus {image : List UInt8} {s : UploadCtx × Bus} {c : Callback} (hc : c ≠ .write 0) :
    (callback dock image s c).2 = s.2 := by
  cases c with
  | write offset =>
    have hoffset : offset ≠ 0 := fun h => hc (by rw [h])
    simp only [callback, write, if_pos hoffset]
  | cancel => rfl
  | closeWindow => rfl

theorem run_callback_bus {image : List UInt8} (callbacks : List Callback)
    (hnone : .write 0 ∉ callbacks) (s : UploadCtx × Bus) :
    (run (callback dock image) s callbacks).2 = s.2 := by
  induction callbacks generalizing s with
  | nil => rfl
  | cons c callbacks ih =>
    rw [List.mem_cons, not_or] at hnone
    exact (ih hnone.2 _).trans (callback_bus (Ne.symm hnone.1))

theorem run_callback_family {image : List UInt8} (callbacks : List Callback)
    (s : UploadCtx × Bus) : (run (callback dock image) s callbacks).1.family = s.1.family := by
  induction callbacks generalizing s with
  | nil => rfl
  | cons c callbacks ih =>
    refine (ih _).trans ?_
    cases c <;> rfl

/-- A write at offset zero through an open window is one whole write. -/
theorem write_open {ctx : UploadCtx} {image : List UInt8} {bus : Bus}
    (hcancelled : ctx.cancelled = false) (hopen : ctx.windowOpen = true) :
    (write dock ctx image 0 bus).2 = final (flash dock dfuInterface.toUInt16 image) bus := by
  unfold write final
  rw [if_neg (by simp), if_neg (by simp [hcancelled]), if_neg (by simp [hopen])]
  cases flash dock dfuInterface.toUInt16 image bus with
  | ok a s => rfl
  | error e s => rfl

/-- A write at offset zero is refused, or is one whole write. -/
theorem write_allOrRefused {ctx : UploadCtx} {image : List UInt8} {bus : Bus} (hbus : bus.log = [])
    (hfamily : packageFamily image = some ctx.family) :
    AllOrRefused dfuInterface.toUInt16 (some ctx.family) image
      (write dock ctx image 0 bus).2.log := by
  have hwrite : (write dock ctx image 0 bus).2 = bus ∨
      (write dock ctx image 0 bus).2 = final (flash dock dfuInterface.toUInt16 image) bus := by
    by_cases hready : ctx.cancelled = false ∧ ctx.windowOpen = true
    · exact .inr (write_open hready.1 hready.2)
    · left
      unfold write
      rw [if_neg (by simp)]
      split_ifs with hcancelled hopen
      · rfl
      · rfl
      · exact absurd ⟨by simpa using hcancelled, by simpa using hopen⟩ hready
  rcases hwrite with h | h
  · rw [h, hbus]
    exact .nil _ image
  · rw [h]
    exact flash_allOrRefused hbus ⟨_, rfl, hfamily⟩

/-- The upload path writes the image once, or nothing. -/
theorem upload_allOrRefused (ctx : UploadCtx) (image : List UInt8) (callbacks : List Callback)
    (hone : callbacks.count (.write 0) ≤ 1) :
    AllOrRefused dfuInterface.toUInt16 (some ctx.family) image
      (upload dock ctx image callbacks).log := by
  unfold upload prepare
  split_ifs with hpackage hfamily
  · exact .nil _ image
  · exact .nil _ image
  · by_cases hmem : .write 0 ∈ callbacks
    · obtain ⟨early, late, hsplit⟩ := List.append_of_mem hmem
      have hnone : .write 0 ∉ early ∧ .write 0 ∉ late := by
        rw [hsplit, List.count_append, List.count_cons_self] at hone
        exact ⟨List.count_eq_zero.1 (by omega), List.count_eq_zero.1 (by omega)⟩
      have hvalid : packageFamily image = some ctx.family := not_not.1 hfamily
      have hbefore : (run (callback dock image) ({ ctx with cancelled := false }, .new) early).2 =
          .new := run_callback_bus early hnone.1 _
      have hctx : (run (callback dock image) ({ ctx with cancelled := false }, .new)
          early).1.family = ctx.family := run_callback_family early _
      show AllOrRefused _ _ _ (run (callback dock image) (_, Bus.new) callbacks).2.log
      obtain ⟨s, hs⟩ : ∃ s, s = run (callback dock image) ({ ctx with cancelled := false }, .new)
        early := ⟨_, rfl⟩
      rw [← hs] at hbefore hctx
      have hrun : run (callback dock image) ({ ctx with cancelled := false }, .new) callbacks =
          run (callback dock image) (callback dock image s (.write 0)) late := by
        rw [hsplit, run_append, ← hs]
        rfl
      rw [hrun, run_callback_bus late hnone.2]
      have hwhole : AllOrRefused dfuInterface.toUInt16 (some s.1.family) image
          (write dock s.1 image 0 s.2).2.log :=
        write_allOrRefused (by rw [hbefore]; rfl) (by rw [hctx]; exact hvalid)
      rwa [hctx] at hwhole
    · show AllOrRefused _ _ _ (run (callback dock image) (_, Bus.new) callbacks).2.log
      rw [run_callback_bus callbacks hmem]
      exact .nil _ image

end Both

/-! ### Every write -/

/-- **A firmware write is all or refused**, on either path, whatever the dock answers, as long as an
upload writes at offset zero once at most. -/
theorem write_all_or_refused (dock : ℕ → Answer) :
    (∀ (loader : String → Option (List UInt8)) (t : Table) (dev : List UInt8)
      (identity : Identity) (iface : UInt16) (force : Bool),
      let log := (automatic dock loader t dev identity iface force).log
      (∀ image, identity.firmwareName.bind loader = some image →
          AllOrRefused iface identity.family image log) ∧
        (identity.firmwareName.bind loader = none → log = [])) ∧
      ∀ (ctx : UploadCtx) (image : List UInt8) (callbacks : List Callback),
        callbacks.count (.write 0) ≤ 1 →
          AllOrRefused dfuInterface.toUInt16 (some ctx.family) image
            (upload dock ctx image callbacks).log :=
  ⟨update_allOrRefused dock, upload_allOrRefused⟩

/-- A dock that takes every block at once. -/
def willing : ℕ → Answer := fun _ => .reply ⟨statusOk, 0, 0, 0, stateDnloadIdle, 0⟩

/-- A dock that asks for ten milliseconds behind every block, and says that it manifests behind the
second. -/
def slow : ℕ → Answer := fun k =>
  .reply ⟨statusOk, 10, 0, 0,
    if k = 5 then stateManifest else if k % 3 = 2 then stateDnBusy else stateDnloadIdle, 0⟩

/-- A package of three blocks. -/
def longPackage : List UInt8 := newPackage ++ List.replicate 9000 0xff

theorem length_blocks_longPackage : (blocks longPackage).length = 3 := by
  rw [blocks, List.length_zipIdx, length_toChunks (by decide), longPackage, List.length_append,
    List.length_replicate]
  rfl

theorem valid_longPackage :
    isPackage longPackage = true ∧ packageFamily longPackage = some .navarro := by
  have hname : findTag [0x52, 0x44, 8, 0] 8 longPackage =
      some [0x4e, 0x61, 0x76, 0x61, 0x44, 0x6f, 0x63, 0x6b] := by
    generalize hpad : List.replicate 9000 (0xff : UInt8) = pad
    simp [findTag, longPackage, newPackage, hpad]
  refine ⟨?_, ?_⟩
  · generalize hpad : List.replicate 9000 (0xff : UInt8) = pad
    simp [isPackage, longPackage, newPackage, hpad]
  · rw [packageFamily, hname]
    decide

section Answers

variable {dock : ℕ → Answer} {iface : UInt16} {s : Bus} {st : Status}

theorem control_reply (t : Transfer) (h : dock s.log.length = .reply st) :
    control dock t s = .ok st { s with log := s.log ++ [(t, .reply st)] } := by
  rw [control, h]

/-- A busy reply is slept on, and asked about again. -/
theorem polls_busy (n : ℕ) (h : dock s.log.length = .reply st) (hst : st.Busy) :
    polls dock iface (n + 1) s = polls dock iface n
      ⟨s.log ++ [(getStatus iface, .reply st)], s.slept + max 1 (min st.poll 1000)⟩ := by
  have hbusy : ¬ (st.state ≠ stateDnBusy ∧ st.state ≠ stateManifest) := by
    rintro ⟨h4, h7⟩
    exact hst.2.elim h4 h7
  show EStateM.bind (control dock (getStatus iface)) _ s = _
  unfold EStateM.bind
  rw [control_reply _ h]
  dsimp only
  rw [if_neg (not_not.2 hst.1), if_neg hbusy]
  rfl

theorem polls_ready (n : ℕ) (h : dock s.log.length = .reply st) (hst : st.Ready) :
    polls dock iface (n + 1) s =
      .ok stateDnloadIdle { s with log := s.log ++ [(getStatus iface, .reply st)] } := by
  show EStateM.bind (control dock (getStatus iface)) _ s = _
  unfold EStateM.bind
  rw [control_reply _ h]
  dsimp only
  rw [if_neg (not_not.2 hst.1), hst.2, if_pos (by decide)]
  rfl

end Answers

/-- The slow dock is ready at the second poll. -/
theorem polls_slow (iface : UInt16) (n : ℕ) {s : Bus} (hs : s.log.length % 3 = 2) :
    ∃ s', polls slow iface (n + 2) s = .ok stateDnloadIdle s' ∧
      s'.log.length = s.log.length + 2 := by
  obtain ⟨st, hst, hbusy⟩ : ∃ st, slow s.log.length = .reply st ∧ st.Busy := by
    refine ⟨_, rfl, rfl, ?_⟩
    dsimp only
    split_ifs
    · exact .inr rfl
    · exact .inl rfl
  have hidle : (s.log.length + 1) % 3 ≠ 2 ∧ s.log.length + 1 ≠ 5 := by omega
  rw [polls_busy _ hst hbusy, polls_ready n rfl]
  · exact ⟨_, rfl, by simp⟩
  · refine ⟨rfl, ?_⟩
    simp [hidle.1, hidle.2]

/-- The slow dock takes a block in three transfers. -/
theorem writeBlock_slow (iface : UInt16) (b : List UInt8 × ℕ) {s : Bus}
    (hs : s.log.length % 3 = 1) :
    ∃ s', writeBlock slow iface b s = .ok ⟨⟩ s' ∧ s'.log.length = s.log.length + 3 := by
  obtain ⟨s', hs', hlen⟩ := polls_slow iface 998
    (s := { s with log := s.log ++ [(download iface b.2 b.1, slow s.log.length)] })
    (by simp; omega)
  refine ⟨s', ?_, ?_⟩
  · have hpolls : polls slow iface 1000 _ = _ := hs'
    unfold writeBlock waitReady
    simp only [bind, EStateM.bind, control_reply _ (rfl : slow s.log.length = _), slow] at hpolls ⊢
    rw [hpolls]
    rfl
  · rw [hlen]
    simp

/-- A package that is not too long is written. -/
theorem flash_eq {dock : ℕ → Answer} {image : List UInt8} (iface : UInt16)
    (hpackage : isPackage image = true) (hcount : (blocks image).length ≤ 65535) :
    flash dock iface image = (do
      let _ ← control dock (detach iface)
      (blocks image).forM (writeBlock dock iface)
      let _ ← control dock (manifest iface)
      tryCatch (do let _ ← waitReady dock iface) fun _ => return) := by
  rw [blocks, List.length_zipIdx, length_toChunks (by decide)] at hcount
  unfold flash
  rw [if_neg (by simp [hpackage]), if_neg (by omega), blocks]

/-- A package of three blocks takes thirteen transfers. -/
theorem flash_slow (iface : UInt16) :
    (final (flash slow iface longPackage) .new).log.length = 13 := by
  obtain ⟨b0, b1, b2, hblocks⟩ := List.length_eq_three.1 length_blocks_longPackage
  obtain ⟨s1, h1, hlen1⟩ := writeBlock_slow iface b0 (s := ⟨[(detach iface, slow 0)], 0⟩) rfl
  obtain ⟨s2, h2, hlen2⟩ := writeBlock_slow iface b1 (s := s1) (by simp [hlen1])
  obtain ⟨s3, h3, hlen3⟩ := writeBlock_slow iface b2 (s := s2) (by simp [hlen2, hlen1])
  have hten : s3.log.length = 10 := by simp [hlen3, hlen2, hlen1]
  obtain ⟨s4, h4 : polls slow iface 1000 _ = _, hlen4⟩ := polls_slow iface 998
    (s := { s3 with log := s3.log ++ [(manifest iface, slow s3.log.length)] }) (by simp [hten])
  rw [flash_eq iface valid_longPackage.1 (by rw [length_blocks_longPackage]; decide), hblocks]
  have hforM : List.forM [b0, b1, b2] (writeBlock slow iface) ⟨[(detach iface, slow 0)], 0⟩ =
      .ok ⟨⟩ s3 := by
    simp [List.forM, bind, EStateM.bind, pure, EStateM.pure, h1, h2, h3]
  have hcontrol : control slow (manifest iface) s3 =
      .ok _ { s3 with log := s3.log ++ [(manifest iface, slow s3.log.length)] } :=
    control_reply _ rfl
  have hdetach : control slow (detach iface) .new = .ok _ ⟨[(detach iface, slow 0)], 0⟩ :=
    control_reply _ rfl
  unfold final waitReady
  simp only [bind, EStateM.bind, hdetach, hforM, hcontrol]
  simp only [tryCatch, tryCatchThe, MonadExcept.tryCatch, MonadExceptOf.tryCatch, EStateM.tryCatch,
    EStateM.bind, h4, pure, EStateM.pure]
  rw [hlen4]
  simp [hten]

/-- One write through an open window, of an image that is valid. -/
theorem upload_write {dock : ℕ → Answer} {ctx : UploadCtx} {image : List UInt8}
    (hpackage : isPackage image = true) (hfamily : packageFamily image = some ctx.family)
    (hopen : ctx.windowOpen = true) :
    upload dock ctx image [.write 0] = final (flash dock dfuInterface.toUInt16 image) .new := by
  have hprepare : prepare ctx image = ({ ctx with cancelled := false }, none) := by
    rw [prepare, if_neg (by simp [hpackage]), if_neg (by simp [hfamily])]
  rw [upload, hprepare]
  exact write_open rfl hopen

/-- An upload of three blocks in one write, offered to a dock that is slow: the detach, three
exchanges of three transfers, and the manifest with two polls. -/
theorem upload_once :
    (upload slow ⟨true, false, .navarro⟩ longPackage [.write 0]).log.length = 13 ∧
      AllOrRefused dfuInterface.toUInt16 (some .navarro) longPackage
        (upload slow ⟨true, false, .navarro⟩ longPackage [.write 0]).log := by
  refine ⟨?_, (write_all_or_refused slow).2 ⟨true, false, .navarro⟩ longPackage [.write 0]
    (by decide)⟩
  rw [upload_write valid_longPackage.1 valid_longPackage.2 rfl]
  exact flash_slow _

/-- Two writes at offset zero detach the dock twice. -/
theorem upload_twice :
    ¬ ∀ (dock : ℕ → Answer) (ctx : UploadCtx) (image : List UInt8) (callbacks : List Callback),
      AllOrRefused dfuInterface.toUInt16 (some ctx.family) image
        (upload dock ctx image callbacks).log := by
  intro hall
  have horder := (hall willing ⟨true, false, .navarro⟩ newPackage [.write 0, .write 0]).order
  exact absurd horder (by decide +kernel)

end Vino.Firmware.Dfu
