import Vino.Lib.Run

/-!
# Whose EDID It Is

A re-engage of a connector names it in `edid_target`, clears `edid_caught`, sends its seven
messages, the fourth of which is the fetch, takes what was caught, and otherwise drains the link for
an EDID.  Every paired read of every thread keeps an EDID it comes across as long as some connector
is named.  Re-engages of different connectors run on different threads; the dock answers a fetch at
any time, and sends EDIDs nobody asked for.

* `edids_attributed`: in every run in which an EDID is kept or drained only while every re-engage
  that may take it is of the connector its fetch named, each stored EDID answers a fetch that was
  issued for its connector.
* `answer_crosses`: otherwise the answer to the fetch of one connector is stored for another.
-/

namespace Vino.Kms.Attribution

open Vino.Lib.Run

/-! ### The link and the threads -/

def maxConnectors : ℕ := 4

/-- An EDID with the connector whose fetch it answers, if any did. -/
structure Edid where
  bytes : List UInt8
  origin : Option ℕ
  deriving DecidableEq

/-- What the dock sends. -/
inductive Message where
  | reply (connector : ℕ) (bytes : List UInt8)
  /-- An EDID nobody asked for. -/
  | push (bytes : List UInt8)
  | other

/-- What `parse_edid_from_reply` makes of a message. -/
def Message.edid : Message → Option Edid
  | reply connector bytes => some ⟨bytes, some connector⟩
  | push bytes => some ⟨bytes, none⟩
  | other => none

/-- How far a thread is with `reengage_connector`. -/
inductive Progress where
  | idle
  /-- In `close_bracket_before_probe`. -/
  | closing (connector : ℕ)
  /-- The connector is named in `edid_target`. -/
  | targeted (connector : ℕ)
  /-- `edid_caught` is cleared; so many of the messages are through. -/
  | sending (connector sent : ℕ)
  /-- A send has failed. -/
  | failed (connector : ℕ)
  /-- What was caught is taken; `ok` says that every send went through. -/
  | taken (connector : ℕ) (ok : Bool) (caught : Option Edid)
  /-- In `drain_for_edid`, with so many reads left. -/
  | draining (connector left : ℕ)
  | storing (connector : ℕ) (blob : Edid)

/-- Messages of a re-engage; the fetch is the one behind the first three. -/
def reengageSteps : ℕ := 7

def fetchStep : ℕ := 3

/-- Reads of `drain_for_edid`. -/
def drainReads : ℕ := 24

/-- Who has the control link. -/
inductive Link (τ : Type) where
  | free
  /-- In a paired read. -/
  | paired (thread : τ)
  /-- A connector was named when this EDID came in. -/
  | keeping (thread : τ) (blob : Edid)
  | draining (thread : τ)
  deriving DecidableEq

/-- The thread has the link. -/
def Link.heldBy {τ : Type} [DecidableEq τ] (t : τ) : Link τ → Bool
  | free => false
  | paired u | keeping u _ | draining u => u = t

structure State (τ : Type) where
  edidTarget : Option ℕ
  edidCaught : Option Edid
  link : Link τ
  thread : τ → Progress
  /-- What the dock has sent and nobody has read. -/
  incoming : List Message
  /-- The connectors a fetch was issued for. -/
  fetched : List ℕ
  cachedEdids : ℕ → Option Edid
  /-- Every call of `set_edid`. -/
  stored : List (ℕ × Edid)

variable {τ : Type}

def State.initial : State τ where
  edidTarget := none
  edidCaught := none
  link := .free
  thread := fun _ => .idle
  incoming := []
  fetched := []
  cachedEdids := fun _ => none
  stored := []

inductive Event (τ : Type) where
  /-- The dock sends a message; it answers only fetches. -/
  | dock (m : Message)
  /-- A thread begins to re-engage a connector. -/
  | reengage (t : τ) (connector : ℕ)
  /-- Its next step outside of the link. -/
  | advance (t : τ)
  /-- A thread locks the link and sends its next message, or one of no re-engage, which may be the
  fetch of an activation. -/
  | send (t : τ) (fetch : Option ℕ)
  /-- The thread that has the link reads one of the messages. -/
  | read (i : ℕ)
  /-- It puts the EDID it has read into `edid_caught`. -/
  | keep
  /-- A read comes back empty: a paired read ends, with or without its reply; a drain goes on. -/
  | quiet (ok : Bool)
  /-- `drain_cp_pushes` reads a message. -/
  | drop (i : ℕ)

/-! ### One step -/

namespace State

variable [DecidableEq τ] (s : State τ)

def setThread (t : τ) (p : Progress) : State τ :=
  { s with thread := Function.update s.thread t p }

def fetch (connector : ℕ) : State τ := { s with fetched := connector :: s.fetched }

/-- Connectors out of range are ignored. -/
def setEdid (connector : ℕ) (blob : Edid) : State τ :=
  if connector < maxConnectors then
    { s with
      cachedEdids := Function.update s.cachedEdids connector (some blob)
      stored := (connector, blob) :: s.stored }
  else s

/-- The steps of a re-engage that need no link. -/
def advance (t : τ) : State τ :=
  if s.link.heldBy t then s
  else
    match s.thread t with
    | .closing c => { s with edidTarget := some c }.setThread t (.targeted c)
    | .targeted c => { s with edidCaught := none }.setThread t (.sending c 0)
    | .sending c sent =>
        if sent = reengageSteps then
          { s with edidCaught := none }.setThread t (.taken c true s.edidCaught)
        else s
    | .failed c => { s with edidCaught := none }.setThread t (.taken c false s.edidCaught)
    | .taken c ok caught =>
        { s with edidTarget := none }.setThread t <|
          match ok, caught with
          | false, _ => .idle
          | true, some blob => .storing c blob
          | true, none => .draining c drainReads
    | .storing c blob => (s.setEdid c blob).setThread t .idle
    | .idle | .draining _ _ => s

def send (t : τ) (fetch : Option ℕ) : State τ :=
  match s.link, s.thread t with
  | .free, .sending c sent =>
      if sent < reengageSteps then
        if sent = fetchStep then { s.fetch c with link := .paired t }
        else { s with link := .paired t }
      else s
  | .free, .draining _ _ => { s with link := .draining t }
  | .free, .idle | .free, .closing _ =>
      match fetch with
      | some c => { s.fetch c with link := .paired t }
      | none => { s with link := .paired t }
  | _, _ => s

/-- A message comes in: a paired read keeps an EDID if some connector is named, and a drain is over
with the first one. -/
def read (i : ℕ) : State τ :=
  match s.link, s.incoming[i]? with
  | .paired t, some m =>
      match s.edidTarget, m.edid with
      | some _, some blob => { s with incoming := s.incoming.eraseIdx i, link := .keeping t blob }
      | _, _ => { s with incoming := s.incoming.eraseIdx i }
  | .draining t, some m =>
      match s.thread t with
      | .draining c (left + 1) =>
          match m.edid with
          | some blob =>
              { s with incoming := s.incoming.eraseIdx i, link := .free }.setThread t
                (.storing c blob)
          | none => { s with incoming := s.incoming.eraseIdx i }.setThread t (.draining c left)
      | _ => s
  | _, _ => s

def keep : State τ :=
  match s.link with
  | .keeping t blob => { s with edidCaught := some blob, link := .paired t }
  | _ => s

def quiet (ok : Bool) : State τ :=
  match s.link with
  | .paired t =>
      match s.thread t with
      | .sending c sent =>
          { s with link := .free }.setThread t (if ok then .sending c (sent + 1) else .failed c)
      | _ => { s with link := .free }
  | .draining t =>
      match s.thread t with
      | .draining c (left + 1) => s.setThread t (.draining c left)
      | .draining _ 0 => { s with link := .free }.setThread t .idle
      | _ => s
  | _ => s

end State

/-- A reply answers a fetch that was issued. -/
def Message.due (fetched : List ℕ) : Message → Bool
  | reply connector _ => connector ∈ fetched
  | _ => true

/-- One step of a thread, or of the dock; a step that is not due changes nothing. -/
def step [DecidableEq τ] (s : State τ) : Event τ → State τ
  | .dock m => if m.due s.fetched then { s with incoming := s.incoming ++ [m] } else s
  | .reengage t connector =>
      match s.thread t, s.link.heldBy t with
      | .idle, false => s.setThread t (.closing connector)
      | _, _ => s
  | .advance t => s.advance t
  | .send t fetch => s.send t fetch
  | .read i => s.read i
  | .keep => s.keep
  | .quiet ok => s.quiet ok
  | .drop i =>
      match s.link with
      | .free => { s with incoming := s.incoming.eraseIdx i }
      | _ => s

/-! ### Who may take it -/

/-- The connector of a re-engage that takes what is caught next. -/
def Progress.takes : Progress → Option ℕ
  | sending c _ => some c
  | _ => none

/-- The EDID a re-engage is going to store. -/
def Progress.holds : Progress → Option (ℕ × Edid)
  | taken c true (some blob) | storing c blob => some (c, blob)
  | _ => none

/-- An EDID is kept only while every re-engage that may take it is of the connector its fetch
named, and drained only by one that is. -/
def Matched (s : State τ) : Event τ → Prop
  | .keep =>
      match s.link with
      | .keeping _ blob => ∀ t, ∀ c ∈ (s.thread t).takes, blob.origin = some c
      | _ => True
  | .read i =>
      match s.link, s.incoming[i]? with
      | .draining t, some m =>
          match s.thread t with
          | .draining c _ => ∀ blob ∈ m.edid, blob.origin = some c
          | _ => True
      | _, _ => True
  | _ => True

instance decidableMatched [Fintype τ] (s : State τ) (e : Event τ) : Decidable (Matched s e) := by
  unfold Matched
  split
  · split
    · infer_instance
    · infer_instance
  · split
    · split
      · infer_instance
      · infer_instance
    · infer_instance
  · infer_instance

/-- The EDID answers a fetch that was issued for the connector. -/
def Answers (fetched : List ℕ) (connector : ℕ) (blob : Edid) : Prop :=
  blob.origin = some connector ∧ connector ∈ fetched

/-- The fetch an EDID answers was issued. -/
def Known (fetched : List ℕ) (blob : Edid) : Prop := ∀ c ∈ blob.origin, c ∈ fetched

structure Inv (s : State τ) : Prop where
  incoming : ∀ m ∈ s.incoming, ∀ blob ∈ m.edid, Known s.fetched blob
  keeping : ∀ t blob, s.link = .keeping t blob → Known s.fetched blob
  caught : ∀ blob ∈ s.edidCaught, Known s.fetched blob
  /-- What is caught answers the fetch of everyone who may take it. -/
  takes : ∀ blob ∈ s.edidCaught, ∀ t, ∀ c ∈ (s.thread t).takes, blob.origin = some c
  holds : ∀ t, ∀ r ∈ (s.thread t).holds, Answers s.fetched r.1 r.2
  stored : ∀ r ∈ s.stored, Answers s.fetched r.1 r.2

variable {s : State τ}

theorem inv_initial : Inv (State.initial : State τ) := by
  constructor <;> simp [State.initial, Progress.holds]

theorem Inv.fetch (h : Inv s) (c : ℕ) : Inv (s.fetch c) where
  incoming m hm blob hblob c' hc' := List.mem_cons_of_mem _ (h.incoming m hm blob hblob c' hc')
  keeping t blob hlink c' hc' := List.mem_cons_of_mem _ (h.keeping t blob hlink c' hc')
  caught blob hblob c' hc' := List.mem_cons_of_mem _ (h.caught blob hblob c' hc')
  takes := h.takes
  holds t r hr := ⟨(h.holds t r hr).1, List.mem_cons_of_mem _ (h.holds t r hr).2⟩
  stored r hr := ⟨(h.stored r hr).1, List.mem_cons_of_mem _ (h.stored r hr).2⟩

/-- The link changes hands without an EDID. -/
theorem Inv.setLink (h : Inv s) {link : Link τ} (hlink : ∀ t blob, link ≠ .keeping t blob) :
    Inv { s with link := link } where
  incoming := h.incoming
  keeping t blob heq := absurd heq (hlink t blob)
  caught := h.caught
  takes := h.takes
  holds := h.holds
  stored := h.stored

theorem Inv.clearCaught (h : Inv s) : Inv { s with edidCaught := none } where
  incoming := h.incoming
  keeping := h.keeping
  caught := by simp
  takes := by simp
  holds := h.holds
  stored := h.stored

theorem Inv.setTarget (h : Inv s) (target : Option ℕ) : Inv { s with edidTarget := target } :=
  ⟨h.incoming, h.keeping, h.caught, h.takes, h.holds, h.stored⟩

/-- A message is read. -/
theorem Inv.erase (h : Inv s) (i : ℕ) : Inv { s with incoming := s.incoming.eraseIdx i } :=
  ⟨fun m hm => h.incoming m (List.mem_of_mem_eraseIdx hm), h.keeping, h.caught, h.takes, h.holds,
    h.stored⟩

theorem Inv.setEdid (h : Inv s) {c : ℕ} {blob : Edid} (hanswers : Answers s.fetched c blob) :
    Inv (s.setEdid c blob) := by
  unfold State.setEdid
  split
  · refine ⟨h.incoming, h.keeping, h.caught, h.takes, h.holds, fun r hr => ?_⟩
    rcases List.mem_cons.mp hr with rfl | hr
    · exact hanswers
    · exact h.stored r hr
  · exact h

theorem inv_keep (h : Inv s) (hmatched : Matched s .keep) : Inv s.keep := by
  unfold State.keep
  split
  · rename_i t blob hlink
    simp only [Matched, hlink] at hmatched
    refine ⟨h.incoming, by simp, fun b hb => ?_, fun b hb => ?_, h.holds, h.stored⟩
    · obtain rfl : blob = b := by simpa using hb
      exact h.keeping t blob hlink
    · obtain rfl : blob = b := by simpa using hb
      exact hmatched
  · exact h

theorem inv_send (h : Inv s) (t : τ) (fetch : Option ℕ) : Inv (s.send t fetch) := by
  unfold State.send
  split
  · rename_i c sent _ _
    split
    · split
      · exact (h.fetch c).setLink (by simp)
      · exact h.setLink (by simp)
    · exact h
  · exact h.setLink (by simp)
  · split
    · rename_i c
      exact (h.fetch c).setLink (by simp)
    · exact h.setLink (by simp)
  · split
    · rename_i c
      exact (h.fetch c).setLink (by simp)
    · exact h.setLink (by simp)
  · exact h

section Steps

variable [DecidableEq τ]

theorem Inv.setThread (h : Inv s) {t : τ} {p : Progress}
    (htakes : ∀ c ∈ p.takes, ∀ blob ∈ s.edidCaught, blob.origin = some c)
    (hholds : ∀ r ∈ p.holds, Answers s.fetched r.1 r.2) : Inv (s.setThread t p) where
  incoming := h.incoming
  keeping := h.keeping
  caught := h.caught
  takes := by
    intro blob hblob u c hc
    by_cases hu : u = t
    · subst hu
      exact htakes c (by simpa [State.setThread] using hc) blob hblob
    · exact h.takes blob hblob u c (by simpa [State.setThread, hu] using hc)
  holds := by
    intro u r hr
    by_cases hu : u = t
    · subst hu
      exact hholds r (by simpa [State.setThread] using hr)
    · exact h.holds u r (by simpa [State.setThread, hu] using hr)
  stored := h.stored

/-- A thread that takes nothing and holds nothing is of no concern. -/
theorem Inv.setThread_idle (h : Inv s) {t : τ} {p : Progress} (htakes : p.takes = none)
    (hholds : p.holds = none) : Inv (s.setThread t p) :=
  h.setThread (by simp [htakes]) (by simp [hholds])

/-! ### Every step -/

theorem inv_dock (h : Inv s) (m : Message) : Inv (step s (.dock m)) := by
  simp only [step]
  split
  · rename_i hdue
    refine ⟨fun m' hm' blob hblob => ?_, h.keeping, h.caught, h.takes, h.holds, h.stored⟩
    rcases List.mem_append.mp hm' with hm' | hm'
    · exact h.incoming m' hm' blob hblob
    · obtain rfl := List.mem_singleton.mp hm'
      intro c hc
      cases m' with
      | reply connector bytes =>
        obtain rfl : ⟨bytes, some connector⟩ = blob := by simpa [Message.edid] using hblob
        obtain rfl : connector = c := by simpa using hc
        simpa [Message.due] using hdue
      | push bytes =>
        obtain rfl : ⟨bytes, none⟩ = blob := by simpa [Message.edid] using hblob
        simp at hc
      | other => simp [Message.edid] at hblob
  · exact h

theorem inv_reengage (h : Inv s) (t : τ) (c : ℕ) : Inv (step s (.reengage t c)) := by
  simp only [step]
  split
  · exact h.setThread_idle rfl rfl
  · exact h

theorem inv_advance (h : Inv s) (t : τ) : Inv (s.advance t) := by
  unfold State.advance
  split
  · exact h
  · split
    · exact (h.setTarget _).setThread_idle rfl rfl
    · exact h.clearCaught.setThread (by simp) (by simp [Progress.holds])
    · rename_i c sent hthread
      split
      · refine h.clearCaught.setThread (by simp [Progress.takes]) fun r hr => ?_
        -- what was caught answers the fetch of this connector, because it could be taken
        cases hcaught : s.edidCaught with
        | none => simp [hcaught, Progress.holds] at hr
        | some blob =>
          obtain rfl : (c, blob) = r := by simpa [hcaught, Progress.holds] using hr
          have horigin := h.takes blob hcaught t c (by rw [hthread]; rfl)
          exact ⟨horigin, h.caught blob hcaught c horigin⟩
      · exact h
    · exact h.clearCaught.setThread_idle rfl (by simp [Progress.holds])
    · rename_i c ok caught hthread
      refine (h.setTarget none).setThread ?_ ?_
      · split <;> simp [Progress.takes]
      · split
        · simp [Progress.holds]
        · rename_i blob
          intro r hr
          exact h.holds t r (by rw [hthread]; exact hr)
        · simp [Progress.holds]
    · rename_i c blob hthread
      have hanswers := h.holds t (c, blob) (by rw [hthread]; rfl)
      exact (h.setEdid hanswers).setThread_idle rfl rfl
    · exact h
    · exact h

theorem inv_read (h : Inv s) {i : ℕ} (hmatched : Matched s (.read i)) : Inv (s.read i) := by
  unfold State.read
  split
  · rename_i t m hlink hm
    have hmem : m ∈ s.incoming := List.mem_of_getElem? hm
    split
    · rename_i blob _ hblob
      refine ⟨(h.erase i).incoming, fun u b heq => ?_, h.caught, h.takes, h.holds, h.stored⟩
      obtain ⟨-, rfl⟩ := Link.keeping.inj heq
      exact h.incoming m hmem blob hblob
    · exact h.erase i
  · rename_i t m hlink hm
    have hmem : m ∈ s.incoming := List.mem_of_getElem? hm
    split
    · rename_i c left hthread
      split
      · rename_i blob hblob
        have horigin : blob.origin = some c := by
          simp only [Matched, hlink, hm, hthread] at hmatched
          exact hmatched blob hblob
        refine ((h.erase i).setLink (by simp)).setThread (by simp [Progress.takes]) fun r hr => ?_
        obtain rfl : (c, blob) = r := by simpa [Progress.holds] using hr
        exact ⟨horigin, h.incoming m hmem blob hblob c horigin⟩
      · exact (h.erase i).setThread_idle rfl rfl
    · exact h
  · exact h

theorem inv_quiet (h : Inv s) (ok : Bool) : Inv (s.quiet ok) := by
  unfold State.quiet
  split
  · rename_i t hlink
    split
    · rename_i c sent hthread
      refine (h.setLink (by simp)).setThread (fun c' hc' blob hblob => ?_) ?_
      · split at hc'
        · obtain rfl : c = c' := by simpa [Progress.takes] using hc'
          exact h.takes blob hblob t c (by rw [hthread]; rfl)
        · simp [Progress.takes] at hc'
      · split <;> simp [Progress.holds]
    · exact h.setLink (by simp)
  · split
    · exact h.setThread_idle rfl rfl
    · exact (h.setLink (by simp)).setThread_idle rfl rfl
    · exact h
  · exact h

theorem inv_step (s : State τ) (e : Event τ) (h : Inv s) (hmatched : Matched s e) :
    Inv (step s e) := by
  cases e with
  | dock m => exact inv_dock h m
  | reengage t c => exact inv_reengage h t c
  | advance t => exact inv_advance h t
  | send t fetch => exact inv_send h t fetch
  | read i => exact inv_read h hmatched
  | keep => exact inv_keep h hmatched
  | quiet ok => exact inv_quiet h ok
  | drop i =>
    simp only [step]
    split
    · exact h.erase i
    · exact h

/-! ### The guarantee -/

/-- **EDIDs are attributed to their connectors** as long as every EDID comes in for those that wait
for it. -/
theorem edids_attributed (es : List (Event τ)) (h : Along Matched step State.initial es) :
    ∀ r ∈ (run step (State.initial : State τ) es).stored,
      r.2.origin = some r.1 ∧ r.1 ∈ (run step (State.initial : State τ) es).fetched :=
  (run_invariant (P := Inv) inv_step es _ inv_initial h).stored

end Steps

/-- A thread sends so many messages of a re-engage and gets their replies. -/
def exchanges {τ : Type} (t : τ) (n : ℕ) : List (Event τ) :=
  (List.replicate n [.send t none, .quiet true]).flatten

/-- A re-engage of a connector that answers while it is sending. -/
def answeredRun : List (Event Bool) :=
  ([.reengage false 2, .advance false, .advance false] : List (Event Bool)) ++ exchanges false 3 ++
    ([.send false none, .dock (.reply 2 [7]), .read 0, .keep, .quiet true] : List (Event Bool)) ++
    exchanges false 3 ++ ([.advance false, .advance false, .advance false] : List (Event Bool))

theorem answer_stored :
    (2, ⟨[7], some 2⟩) ∈ (run step (State.initial : State Bool) answeredRun).stored ∧
      2 ∈ (run step (State.initial : State Bool) answeredRun).fetched := by
  have hstored : (2, (⟨[7], some 2⟩ : Edid)) ∈
      (run step (State.initial : State Bool) answeredRun).stored := by
    decide +kernel
  have hmatched : Along Matched step (State.initial : State Bool) answeredRun := by
    decide +kernel
  exact ⟨hstored, (edids_attributed answeredRun hmatched _ hstored).2⟩

/-- The first thread has fetched the EDID of connector 0 when the second begins to re-engage
connector 1, and the answer comes in. -/
def crossedRun : List (Event Bool) :=
  ([.reengage false 0, .advance false, .advance false] : List (Event Bool)) ++ exchanges false 4 ++
    ([.reengage true 1, .advance true, .advance true, .send true none, .dock (.reply 0 [7]),
      .read 0, .keep, .quiet true] : List (Event Bool)) ++ exchanges true 6 ++
    ([.advance true, .advance true, .advance true] : List (Event Bool))

/-- The EDID of one connector is stored for another. -/
theorem answer_crosses :
    ¬ ∀ (es : List (Event Bool)), ∀ r ∈ (run step (State.initial : State Bool) es).stored,
      r.2.origin = some r.1 ∧ r.1 ∈ (run step (State.initial : State Bool) es).fetched := by
  intro h
  have hstored : (1, (⟨[7], some 0⟩ : Edid)) ∈ (run step .initial crossedRun).stored := by
    decide +kernel
  have horigin := (h crossedRun _ hstored).1
  exact absurd horigin (by decide)

end Vino.Kms.Attribution
