import Vino.Evdi.Client

/-!
# What a Client Knows

The client reads the stream in pieces, in the middle of whatever the compositor does.  What it
handed on, together with what it has heard and not handed on yet, is what the driver sent and is not
in the channel any more, event by event.  From this follows what a client knows of the display when
nothing is on its way to it.

* `events_delivered`: nothing that was sent is lost, doubled or moved,
* `frames_fit`: a grab is made into a buffer of the selected mode, whatever was selected meanwhile,
* `display_known`: the client knows the power state and the mode of the display, when no event of
  either was refused and the replay of a connection was not overtaken,
* `replay_overtaken`: a display that is turned off while its mode is replayed is on for the client.
-/

namespace Vino.Evdi.Client

open Vino.Evdi.Events Vino.Lib.Run

/-! ### Rows of events -/

/-- An event that was heard, with its pixels. -/
abbrev Heard := Event × Option (List UInt8)

/-- What is handed on of what was heard. -/
def reported (heard : List Heard) : List DeviceEvent :=
  heard.filterMap fun h => deviceEvent h.1 h.2

theorem reported_append (heard heard' : List Heard) :
    reported (heard ++ heard') = reported heard ++ reported heard' := List.filterMap_append

theorem reported_cons (h : Heard) (heard : List Heard) :
    reported (h :: heard) = (deviceEvent h.1 h.2).toList ++ reported heard := by
  unfold reported
  rw [List.filterMap_cons]
  cases deviceEvent h.1 h.2 with
  | none => rfl
  | some _ => rfl

section Last

variable {α β γ : Type}

/-- The last of what a row of events says of something. -/
def lastOf (f : α → Option β) (es : List α) : Option β := (es.filterMap f).getLast?

theorem lastOf_append (f : α → Option β) (es es' : List α) :
    lastOf f (es ++ es') = (lastOf f es').or (lastOf f es) := by
  unfold lastOf
  rw [List.filterMap_append, List.getLast?_append]

theorem lastOf_singleton (f : α → Option β) (e : α) : lastOf f [e] = f e := by
  unfold lastOf
  rw [List.filterMap_cons]
  cases f e with
  | none => rfl
  | some _ => rfl

theorem lastOf_cons (f : α → Option β) (e : α) (es : List α) :
    lastOf f (e :: es) = (lastOf f es).or (f e) := by
  rw [← List.singleton_append, lastOf_append, lastOf_singleton]

theorem lastOf_snoc (f : α → Option β) (es : List α) (e : α) :
    lastOf f (es ++ [e]) = (f e).or (lastOf f es) := by
  rw [lastOf_append, lastOf_singleton]

theorem lastOf_eq_none {f : α → Option β} {es : List α} (h : ∀ e ∈ es, f e = none) :
    lastOf f es = none := by
  unfold lastOf
  rw [List.filterMap_eq_nil_iff.2 h, List.getLast?_nil]

theorem lastOf_filterMap (g : β → Option γ) (f : α → Option β) (es : List α) :
    lastOf g (es.filterMap f) = lastOf (fun e => (f e).bind g) es := by
  unfold lastOf
  rw [List.filterMap_filterMap]

theorem lastOf_map (g : β → Option γ) (f : α → β) (es : List α) :
    lastOf g (es.map f) = lastOf (g ∘ f) es := by
  unfold lastOf
  rw [List.filterMap_map]

theorem mem_of_lastOf {f : α → Option β} {es : List α} {b : β} (h : lastOf f es = some b) :
    ∃ e ∈ es, f e = some b :=
  List.mem_filterMap.1 (List.mem_of_getLast? h)

end Last

/-- The mode an event announces. -/
def modeOf : Event → Option EvdiMode
  | .modeChanged mode => some mode
  | _ => none

/-- The power state an event announces. -/
def powerOf : Event → Option Int32
  | .dpms mode => some mode
  | _ => none

/-- The power state an event of the device reports. -/
def DeviceEvent.power : DeviceEvent → Option Int32
  | .dpms state => some state
  | _ => none

theorem lastOf_reported (heard : List Heard) :
    lastOf DeviceEvent.power (reported heard) = lastOf powerOf (heard.map Prod.fst) := by
  unfold reported
  rw [lastOf_filterMap, lastOf_map]
  congr 1
  funext h
  obtain ⟨e, pixels⟩ := h
  cases e with
  | modeChanged mode =>
    show ((Mode.fromAbi mode).map DeviceEvent.mode).bind DeviceEvent.power = none
    cases Mode.fromAbi mode <;> rfl
  | _ => rfl

/-! ### The mode of a device -/

/-- What is registered for a mode. -/
def Mode.buffer (m : Mode) : RegisteredBuffer :=
  ⟨m.width, m.height, m.width * 4, m.width * 4 * m.height⟩

def Mode.abiBuffer (m : Mode) : AbiBuffer := ⟨bufferId, m.width, m.height, m.width * 4⟩

/-- **The buffer is the mode's**, and the library knows it and no other. -/
structure Registered (c : Device) : Prop where
  buffer : c.buffer = c.mode.map Mode.buffer
  frameBuffers : c.frameBuffers = (c.mode.map Mode.abiBuffer).toList

theorem unregisterBuffer_empty {c : Device} (h : Registered c) :
    c.unregisterBuffer.buffer = none ∧ c.unregisterBuffer.frameBuffers = [] := by
  obtain ⟨hbuffer, hframes⟩ := h
  unfold Device.unregisterBuffer
  cases hmode : c.mode with
  | none =>
    rw [hmode] at hbuffer hframes
    rw [hbuffer, if_neg (by simp)]
    exact ⟨hbuffer, hframes⟩
  | some m =>
    rw [hmode] at hbuffer hframes
    rw [hbuffer, Option.map_some, Option.isSome_some, if_pos rfl, hframes]
    exact ⟨rfl, rfl⟩

theorem registerMode_spec {c : Device} (h : Registered c) (m : Mode) :
    Registered (c.registerMode m) ∧
      (c.registerMode m).mode = (if m.Fits then some m else none) ∧
      (c.registerMode m).events = c.events ∧ (c.registerMode m).selected = c.selected ∧
      (c.registerMode m).bufferToUpdate = c.bufferToUpdate := by
  obtain ⟨hbuffer, hframes⟩ := unregisterBuffer_empty h
  have hkept : c.unregisterBuffer.events = c.events ∧ c.unregisterBuffer.selected = c.selected ∧
      c.unregisterBuffer.bufferToUpdate = c.bufferToUpdate := by
    unfold Device.unregisterBuffer
    split_ifs
    · exact ⟨rfl, rfl, rfl⟩
    · exact ⟨rfl, rfl, rfl⟩
  unfold Device.registerMode
  by_cases hfits : m.Fits
  · dsimp only
    rw [if_pos hfits, if_pos hfits]
    refine ⟨⟨rfl, ?_⟩, rfl, hkept⟩
    dsimp only
    rw [hframes]
    rfl
  · dsimp only
    rw [if_neg hfits, if_neg hfits]
    exact ⟨⟨hbuffer, hframes⟩, rfl, hkept⟩

/-- **A mode is selected**: the device takes it, if it is one that fits. -/
theorem select_spec {c : Device} (h : Registered c) :
    Registered c.select ∧ c.select.selected = none ∧ c.select.events = c.events ∧
      c.select.bufferToUpdate = c.bufferToUpdate ∧
      c.select.mode = (match c.selected.bind Mode.fromAbi with
        | none => c.mode
        | some m => if c.mode = some m ∨ m.Fits then some m else none) := by
  have hplain : Registered { c with selected := none } := ⟨h.buffer, h.frameBuffers⟩
  unfold Device.select
  dsimp only
  cases hselected : c.selected.bind Mode.fromAbi with
  | none => exact ⟨hplain, rfl, rfl, rfl, rfl⟩
  | some m =>
    dsimp only
    by_cases hsame : c.mode = some m
    · rw [if_pos hsame, if_pos (.inl hsame)]
      exact ⟨hplain, rfl, rfl, rfl, hsame⟩
    · rw [if_neg hsame]
      obtain ⟨hreg, hmode, hevents, hselected', hupdate⟩ := registerMode_spec hplain m
      refine ⟨hreg, hselected', hevents, hupdate, ?_⟩
      rw [hmode]
      simp [hsame]

/-! ### Reading -/

/-- The callbacks on a row of events. -/
def Device.hearAll (c : Device) (heard : List Heard) : Device :=
  heard.foldl (fun c h => c.hear h.1 h.2) c

theorem hearAll_kept (c : Device) (heard : List Heard) :
    (c.hearAll heard).buffer = c.buffer ∧ (c.hearAll heard).mode = c.mode ∧
      (c.hearAll heard).frameBuffers = c.frameBuffers ∧
      (c.hearAll heard).bufferToUpdate = c.bufferToUpdate := by
  induction heard generalizing c with
  | nil => exact ⟨rfl, rfl, rfl, rfl⟩
  | cons h heard ih => exact ih (c.hear h.1 h.2)

theorem hearAll_events (c : Device) (heard : List Heard) :
    (c.hearAll heard).events = c.events ++ reported heard := by
  induction heard generalizing c with
  | nil => exact (List.append_nil _).symm
  | cons h heard ih =>
    have hnext := ih (c.hear h.1 h.2)
    rw [reported_cons, ← List.append_assoc]
    exact hnext

theorem hearAll_selected (c : Device) (heard : List Heard) :
    (c.hearAll heard).selected = (lastOf modeOf (heard.map Prod.fst)).or c.selected := by
  induction heard generalizing c with
  | nil => rfl
  | cons h heard ih =>
    have hnext := ih (c.hear h.1 h.2)
    have hone : (c.hear h.1 h.2).selected = (modeOf h.1).or c.selected := by
      unfold Device.hear modeOf
      cases h.1 <;> rfl
    rw [List.map_cons, lastOf_cons, Option.or_assoc, ← hone]
    exact hnext

/-- A row of records is dispatched one by one. -/
theorem foldl_dispatch (pixels : Mapping) (es : List Event) (s : State) :
    ∃ cursorEvents, (es.map some).foldl (·.dispatch pixels) s =
      { s with
        device := s.device.hearAll (es.map fun e => (e, pixels.image e))
        driver := { s.driver with cursorEvents := cursorEvents } } := by
  induction es generalizing s with
  | nil => exact ⟨s.driver.cursorEvents, rfl⟩
  | cons e es ih =>
    obtain ⟨cursorEvents, h⟩ := ih (s.dispatch pixels (some e))
    exact ⟨cursorEvents, h⟩

/-- **A poll** hears a front part of the queue and takes the mode that was selected last. -/
theorem pollEvents_eq {s : State} (hselected : s.device.selected = none) (n : ℕ)
    (pixels : Mapping) :
    ∃ es rest cursorEvents, s.driver.queue = es ++ rest ∧
      s.pollEvents n pixels =
        { s with
          device := (s.device.hearAll (es.map fun e => (e, pixels.image e))).select
          driver := { s.driver with queue := rest, cursorEvents := cursorEvents } } := by
  unfold State.pollEvents
  by_cases hqueue : s.driver.queue = []
  · refine ⟨[], [], s.driver.cursorEvents, hqueue, ?_⟩
    have hidle : s.device.select = s.device := by
      unfold Device.select
      rw [hselected]
      exact congrArg (fun o => { s.device with selected := o }) hselected.symm
    rw [if_pos hqueue]
    show s = { s with device := s.device.select, driver := { s.driver with queue := [] } }
    rw [hidle, ← hqueue]
  · rw [if_neg hqueue]
    set k := fitting 1024 n s.driver.queue with hk
    have hparse : parseEvents ((s.driver.queue.take k).flatMap Event.encode) =
        (s.driver.queue.take k).map some := by
      have h := parseEvents_flatMap (s.driver.queue.take k) []
      rwa [List.append_nil, parseEvents_short (show ([] : List UInt8).length < 8 by decide),
        List.append_nil] at h
    obtain ⟨cursorEvents, hfold⟩ := foldl_dispatch pixels (s.driver.queue.take k)
      { s with driver := { s.driver with queue := s.driver.queue.drop k } }
    refine ⟨s.driver.queue.take k, s.driver.queue.drop k, cursorEvents,
      (List.take_append_drop k _).symm, ?_⟩
    unfold Driver.read
    dsimp only
    rw [← hk, hparse, hfold]

/-! ### What a run keeps -/

/-- An event announces a mode of the compositor's, or none. -/
def Announces (e : Event) : Prop :=
  ∀ mode, modeOf e = some mode → ∃ m : DisplayMode, mode = m.announcement

/-- A driver that sent some more. -/
def Sends (d d' : Driver) : Prop :=
  ∃ es, d'.queue = d.queue ++ es ∧ d'.sent = d.sent ++ es ∧ ∀ e ∈ es, Announces e

theorem Sends.of_same {d d' : Driver} (hqueue : d'.queue = d.queue) (hsent : d'.sent = d.sent) :
    Sends d d' :=
  ⟨[], by simp [hqueue], by simp [hsent], nofun⟩

theorem Sends.trans {d d' d'' : Driver} (h : Sends d d') (h' : Sends d' d'') : Sends d d'' := by
  obtain ⟨es, hqueue, hsent, hes⟩ := h
  obtain ⟨es', hqueue', hsent', hes'⟩ := h'
  refine ⟨es ++ es', ?_, ?_, fun e he => ?_⟩
  · rw [hqueue', hqueue, List.append_assoc]
  · rw [hsent', hsent, List.append_assoc]
  · rcases List.mem_append.1 he with he | he
    · exact hes e he
    · exact hes' e he

theorem sends_send (d : Driver) (room : Bool) {e : Event} (he : Announces e) :
    Sends d (d.send room e) := by
  unfold Driver.send
  split_ifs
  · exact ⟨[e], rfl, rfl, fun e' he' => by rwa [List.mem_singleton.1 he']⟩
  · exact .of_same rfl rfl

theorem announces_of_none {e : Event} (h : modeOf e = none) : Announces e := by
  intro mode hmode
  rw [h] at hmode
  exact absurd hmode (by simp)

theorem announces_announcement (m : DisplayMode) : Announces (.modeChanged m.announcement) :=
  fun _ h => ⟨m, (Option.some.inj h).symm⟩

theorem sends_notifyCursorSet (d : Driver) (room : ℕ → Bool) (fb : CursorBuffer)
    (handle : Option UInt32) : Sends d (d.notifyCursorSet room fb handle) := by
  unfold Driver.notifyCursorSet
  split
  · exact sends_send d (room 0) (announces_of_none rfl)
  · exact .of_same rfl rfl

theorem sends_notifyCursorMove (d : Driver) (room : ℕ → Bool) (plane : CursorPlane) :
    Sends d (d.notifyCursorMove room plane) := by
  unfold Driver.notifyCursorMove
  split
  · exact .of_same rfl rfl
  · exact sends_send d (room 1) (announces_of_none rfl)

theorem sends_reportCursor (d : Driver) (room : ℕ → Bool) (handle : Option UInt32)
    (old : Option CursorBuffer) (plane : CursorPlane) :
    Sends d (d.reportCursor room handle old plane) := by
  unfold Driver.reportCursor
  split
  · exact sends_send d (room 0) (announces_of_none rfl)
  · refine Sends.trans ?_ (sends_notifyCursorMove _ room plane)
    split_ifs
    · exact sends_notifyCursorSet d room _ handle
    · exact .of_same rfl rfl

theorem sends_updateCursor (d : Driver) (room : ℕ → Bool) (handle : Option UInt32)
    (plane : CursorPlane) : Sends d (d.updateCursor room handle plane) := by
  have hplane : Sends d { d with cursorBuffer := plane.framebuffer } := .of_same rfl rfl
  unfold Driver.updateCursor
  dsimp only
  split_ifs
  · exact hplane.trans (sends_reportCursor _ room handle _ plane)
  · exact hplane

/-- **What was sent was heard or is on its way**, and what was heard was handed on or waits. -/
structure Follows (s : State) (heard : List Heard) : Prop where
  sent : heard.map Prod.fst ++ s.driver.queue = s.driver.sent
  handed : s.handed ++ s.device.events = reported heard
  announced : ∀ e ∈ s.driver.sent, Announces e
  mode : s.device.mode = (lastOf modeOf (heard.map Prod.fst)).bind Mode.fromAbi
  selected : s.device.selected = none
  registered : Registered s.device
  update : s.phase = .waiting ∨ s.phase = .grabbing → s.device.bufferToUpdate = bufferId

/-- The mode of a device that took it. -/
def DisplayMode.mode (m : DisplayMode) : Mode :=
  ⟨m.hdisplay.toNat, m.vdisplay.toNat, m.vrefresh.toInt.toNat, 32, xrgb8888⟩

/-- **A mode of the compositor's can be registered.** -/
theorem fromAbi_announcement (m : DisplayMode) :
    Mode.fromAbi m.announcement = some m.mode ∧ m.mode.Fits := by
  have hh : m.hdisplay.toNat < 65536 := m.hdisplay.toNat_lt
  have hv : m.vdisplay.toNat < 65536 := m.vdisplay.toNat_lt
  have hwidth : (Int32.ofNat m.hdisplay.toNat).toInt = m.hdisplay.toNat :=
    Int32.toInt_ofNat_of_lt (by omega)
  have hheight : (Int32.ofNat m.vdisplay.toNat).toInt = m.vdisplay.toNat :=
    Int32.toInt_ofNat_of_lt (by omega)
  have hbpp : (32 : Int32).toInt = 32 := by decide
  constructor
  · unfold Mode.fromAbi DisplayMode.announcement
    dsimp only
    rw [hwidth, hheight, hbpp, if_pos]
    · rfl
    · have := m.hdisplayPos
      have := m.vdisplayPos
      have := m.vrefreshNonneg
      omega
  · unfold Mode.Fits DisplayMode.mode
    dsimp only
    refine ⟨by omega, ?_, by omega, by omega, by omega⟩
    calc m.hdisplay.toNat * 4 * m.vdisplay.toNat ≤ 65536 * 4 * 65536 :=
          Nat.mul_le_mul (by omega) hv.le
      _ < 2 ^ 64 := by norm_num

section Steps

variable {s : State} {heard : List Heard}

theorem Follows.driver (h : Follows s heard) {d : Driver} (hd : Sends s.driver d)
    (commit : Commit) (replay : Replay) :
    Follows { s with driver := d, commit := commit, replay := replay } heard := by
  obtain ⟨es, hqueue, hsent, hes⟩ := hd
  refine ⟨?_, h.handed, fun e he => ?_, h.mode, h.selected, h.registered, h.update⟩
  · dsimp only
    rw [hqueue, hsent, ← h.sent, List.append_assoc]
  · dsimp only at he
    rw [hsent] at he
    rcases List.mem_append.1 he with he | he
    · exact h.announced e he
    · exact hes e he

theorem Follows.atomicEnable (h : Follows s heard) (m : DisplayMode) :
    Follows (s.atomicEnable m) heard := by
  unfold State.atomicEnable
  split
  · exact h.driver (.of_same rfl rfl) _ s.replay
  · exact h

theorem Follows.atomicDisable (h : Follows s heard) : Follows s.atomicDisable heard := by
  unfold State.atomicDisable
  split
  · refine h.driver ?_ _ s.replay
    exact .of_same rfl rfl
  · exact h

theorem Follows.announce (h : Follows s heard) (room : Bool) : Follows (s.announce room) heard := by
  unfold State.announce
  split
  · exact h
  · refine h.driver ?_ _ s.replay
    exact .of_same rfl rfl
  · exact h.driver (sends_send _ room (announces_of_none rfl)) _ s.replay
  · exact h.driver (sends_send _ room (announces_of_none rfl)) _ s.replay
  next m _ => exact h.driver (sends_send _ room (announces_announcement m)) _ s.replay

theorem Follows.connect (h : Follows s heard) : Follows s.connect heard := by
  unfold State.connect
  split
  · refine h.driver ?_ s.commit _
    exact .of_same rfl rfl
  · exact h

theorem Follows.replayState (h : Follows s heard) (room : Bool) :
    Follows (s.replayState room) heard := by
  unfold State.replayState
  split
  · exact h
  · exact h.driver (.of_same rfl rfl) s.commit _
  · exact h.driver (sends_send _ room (announces_of_none rfl)) s.commit _
  next m _ => exact h.driver (sends_send _ room (announces_announcement m)) s.commit _

/-- **A poll**, in any phase. -/
theorem Follows.pollEvents (h : Follows s heard) (n : ℕ) (pixels : Mapping) :
    ∃ heard', Follows (s.pollEvents n pixels) (heard ++ heard') ∧
      (s.pollEvents n pixels).phase = s.phase := by
  obtain ⟨es, rest, cursorEvents, hqueue, hpoll⟩ := pollEvents_eq h.selected n pixels
  set heard' : List Heard := es.map fun e => (e, pixels.image e) with hheard'
  have hfst : heard'.map Prod.fst = es := by
    rw [hheard', List.map_map]
    exact List.map_id es
  obtain ⟨hbuffer, hmode, hframes, hupdate⟩ := hearAll_kept s.device heard'
  have hreg : Registered (s.device.hearAll heard') := by
    refine ⟨?_, ?_⟩
    · rw [hbuffer, hmode, h.registered.buffer]
    · rw [hframes, hmode, h.registered.frameBuffers]
  obtain ⟨hreg', hselected', hevents', hupdate', hmode'⟩ := select_spec hreg
  rw [hpoll]
  refine ⟨heard', ⟨?_, ?_, h.announced, ?_, hselected', hreg', fun hphase => ?_⟩, rfl⟩
  · rw [List.map_append, hfst, List.append_assoc, ← hqueue]
    exact h.sent
  · dsimp only
    rw [hevents', hearAll_events, ← List.append_assoc, h.handed, reported_append]
  · dsimp only
    rw [hmode', hearAll_selected, hfst, h.selected, Option.or_none, hmode, List.map_append, hfst,
      lastOf_append, h.mode]
    cases hlast : lastOf modeOf es with
    | none => rfl
    | some mode =>
      obtain ⟨e, he, hem⟩ := mem_of_lastOf hlast
      have hsent : e ∈ s.driver.sent := by
        rw [← h.sent, hqueue]
        exact List.mem_append_right _ (List.mem_append_left _ he)
      obtain ⟨m, rfl⟩ := h.announced e hsent mode hem
      obtain ⟨hfrom, hfits⟩ := fromAbi_announcement m
      rw [Option.bind_some, hfrom]
      show _ = Mode.fromAbi m.announcement
      rw [hfrom]
      exact if_pos (.inr hfits)
  · dsimp only
    rw [hupdate', hupdate]
    exact h.update hphase

/-- **One step.** -/
theorem Follows.step (h : Follows s heard) (step : Step) :
    ∃ heard', Follows (Client.step s step) (heard ++ heard') := by
  have hstay (s' : State) (h' : Follows s' heard) : ∃ heard', Follows s' (heard ++ heard') :=
    ⟨[], by rwa [List.append_nil]⟩
  cases step with
  | atomicEnable m => exact hstay _ (h.atomicEnable m)
  | atomicDisable => exact hstay _ h.atomicDisable
  | announce room => exact hstay _ (h.announce room)
  | atomicUpdate fb room =>
    refine hstay _ (h.driver ?_ s.commit s.replay)
    cases fb with
    | false => exact .of_same rfl rfl
    | true =>
      refine Sends.trans ?_ (sends_send _ (room 0) (announces_of_none rfl))
      exact .of_same rfl rfl
  | updateCursor plane handle room =>
    exact hstay _ (h.driver (sends_updateCursor _ room handle plane) s.commit s.replay)
  | connect => exact hstay _ h.connect
  | replayState room => exact hstay _ (h.replayState room)
  | setCursorEvents enable =>
    refine hstay _ (h.driver ?_ s.commit s.replay)
    exact .of_same rfl rfl
  | events n pixels =>
    show ∃ heard', Follows (s.events n pixels) (heard ++ heard')
    unfold State.events
    split_ifs with hphase
    · obtain ⟨heard', h', -⟩ := h.pollEvents n pixels
      refine ⟨heard', h'.sent, ?_, h'.announced, h'.mode, h'.selected, ⟨h'.registered.buffer,
        h'.registered.frameBuffers⟩, h'.update⟩
      exact (List.append_nil _).trans h'.handed
    · exact hstay s h
  | nextFrame n pixels =>
    show ∃ heard', Follows (s.nextFrame n pixels) (heard ++ heard')
    unfold State.nextFrame
    split_ifs with hphase
    · obtain ⟨heard', h', -⟩ := h.pollEvents n pixels
      refine ⟨heard', ?_⟩
      dsimp only
      split_ifs
      · exact h'
      · exact ⟨h'.sent, h'.handed, h'.announced, h'.mode, h'.selected, h'.registered, by simp⟩
    · exact hstay s h
  | requestUpdate =>
    show ∃ heard', Follows (s.requestUpdate) (heard ++ heard')
    unfold State.requestUpdate
    by_cases hphase : s.phase = .requesting
    · rw [if_pos hphase]
      exact hstay _ ⟨h.sent, h.handed, h.announced, h.mode, h.selected, ⟨h.registered.buffer,
        h.registered.frameBuffers⟩, fun _ => rfl⟩
    · rw [if_neg hphase]
      exact hstay s h
  | wake n pixels =>
    show ∃ heard', Follows (s.wake n pixels) (heard ++ heard')
    unfold State.wake
    split_ifs with hphase
    · obtain ⟨heard', h', hsame⟩ := h.pollEvents n pixels
      refine ⟨heard', h'.sent, h'.handed, h'.announced, h'.mode, h'.selected,
        ⟨h'.registered.buffer, h'.registered.frameBuffers⟩, fun _ => ?_⟩
      exact h'.update (.inl (hsame.trans hphase))
    · exact hstay s h
  | timeout =>
    show ∃ heard', Follows (s.timeout) (heard ++ heard')
    unfold State.timeout
    split_ifs with hphase
    · exact hstay _ ⟨h.sent, h.handed, h.announced, h.mode, h.selected, h.registered, by simp⟩
    · exact hstay s h
  | grab =>
    show ∃ heard', Follows (s.grab) (heard ++ heard')
    unfold State.grab
    split_ifs with hphase
    · exact hstay _ ⟨h.sent, h.handed, h.announced, h.mode, h.selected, h.registered, by simp⟩
    · exact hstay s h

end Steps

/-! ### Runs -/

theorem follows_opened (d : Driver) : Follows (opened d) [] where
  sent := rfl
  handed := rfl
  announced := nofun
  mode := rfl
  selected := rfl
  registered := ⟨rfl, rfl⟩
  update := by simp [opened]

theorem follows_append (steps : List Step) {s : State} {heard : List Heard} (h : Follows s heard) :
    ∃ heard', Follows (run step s steps) (heard ++ heard') := by
  induction steps generalizing s heard with
  | nil => exact ⟨[], by rwa [List.append_nil]⟩
  | cons step steps ih =>
    obtain ⟨heard', h'⟩ := h.step step
    obtain ⟨heard'', h''⟩ := ih h'
    rw [List.append_assoc] at h''
    exact ⟨heard' ++ heard'', h''⟩

theorem follows_run (d : Driver) (steps : List Step) :
    ∃ heard, Follows (run step (opened d) steps) heard :=
  follows_append steps (follows_opened d)

/-- **Nothing that was sent is lost**, doubled or moved: at every point of every run, what the
client heard and what is on its way to it are what was sent, in this order, and what it handed on
and keeps is what it heard. -/
theorem events_delivered (d : Driver) (steps : List Step) :
    ∃ heard : List Heard,
      heard.map Prod.fst ++ (run step (opened d) steps).driver.queue =
        (run step (opened d) steps).driver.sent ∧
      (run step (opened d) steps).handed ++ (run step (opened d) steps).device.events =
        reported heard := by
  obtain ⟨heard, h⟩ := follows_run d steps
  exact ⟨heard, h.sent, h.handed⟩

/-- **A grab fits**: whenever a device comes to grab, after whatever was selected while it waited,
the frame has the size of its mode, and the driver is asked for exactly this size. -/
theorem frames_fit (d : Driver) (steps : List Step)
    (hphase : (run step (opened d) steps).phase = .grabbing) (rects : Option (List DamageRect))
    (frame : Frame) (hframe : (run step (opened d) steps).device.grabFrame rects = some frame) :
    ∃ m, (run step (opened d) steps).device.mode = some m ∧ frame.width = m.width ∧
      frame.height = m.height ∧ frame.stride = m.width * 4 ∧
      frame.length = frame.stride * frame.height ∧
      (run step (opened d) steps).device.findBuffer =
        some ⟨bufferId, frame.width, frame.height, frame.stride⟩ ∧
      frame.damage = (rects.getD []).take 16 := by
  obtain ⟨heard, h⟩ := follows_run d steps
  set s := run step (opened d) steps with hs
  obtain ⟨hbuffer, hframes⟩ := h.registered
  unfold Device.grabFrame at hframe
  cases hmode : s.device.mode with
  | none =>
    rw [hbuffer, hmode] at hframe
    exact absurd hframe (by simp)
  | some m =>
    have hfind : s.device.findBuffer = some m.abiBuffer := by
      unfold Device.findBuffer
      rw [hframes, hmode, h.update (.inr hphase)]
      rfl
    rw [hbuffer, hmode, hfind] at hframe
    obtain rfl := Option.some.inj hframe
    refine ⟨m, rfl, rfl, rfl, rfl, rfl, hfind, ?_⟩
    cases rects with
    | none => rfl
    | some rects => rfl

/-- A card that nothing was done with, and a small mode. -/
def blankDriver : Driver := ⟨false, none, false, none, false, false, [], []⟩

def smallMode : DisplayMode := ⟨640, 480, 60, by decide, by decide, by decide⟩

/-- The compositor sets a mode and flips; the client asks for a frame. -/
def firstFrame : List Step :=
  [.connect, .replayState true, .atomicEnable smallMode, .announce true, .announce true,
    .announce true, .atomicUpdate true fun _ => true, .nextFrame 16 fun _ => none, .requestUpdate]

/-- The first frame of a card. -/
theorem frames_fit_firstFrame : ∃ m,
    (run step (opened blankDriver) firstFrame).device.mode = some m ∧ 640 = m.width ∧
    480 = m.height ∧ 2560 = m.width * 4 ∧ 1228800 = 2560 * 480 ∧
    (run step (opened blankDriver) firstFrame).device.findBuffer =
      some ⟨bufferId, 640, 480, 2560⟩ ∧
    [⟨0, 0, 640, 480⟩] = ((some [⟨0, 0, 640, 480⟩] : Option (List DamageRect)).getD []).take 16 :=
  frames_fit blankDriver firstFrame (by decide +kernel) (some [⟨0, 0, 640, 480⟩])
    ⟨640, 480, 2560, 1228800, [⟨0, 0, 640, 480⟩]⟩ (by decide +kernel)

/-! ### What the driver announced -/

/-- The power state is still to be sent. -/
def Commit.OwesPower : Commit → Prop
  | .store _ | .dpms _ => True
  | .idle | .modeChanged _ => False

instance : DecidablePred Commit.OwesPower
  | .store _ | .dpms _ => .isTrue trivial
  | .idle | .modeChanged _ => .isFalse id

/-- The power state is not replayed yet. -/
def Replay.OwesPower : Replay → Prop
  | .registered | .dpms _ => True
  | .idle | .modeChanged _ => False

/-- What a commit announces was stored. -/
def Commit.Stored (announced : Option DisplayMode) : Commit → Prop
  | .idle | .store _ => True
  | .dpms mode => announced = mode
  | .modeChanged m => announced = some m

/-- What is replayed next was not overtaken: it is so, or the commit has still to send what is. -/
def State.Current (s : State) : Prop :=
  match s.replay with
  | .dpms _ => s.commit.OwesPower ∨ s.driver.announcedMode.isSome = true
  | .modeChanged m => s.commit ≠ .idle ∨ ∀ m' ∈ s.driver.announcedMode, m' = m
  | _ => True

instance (s : State) : Decidable s.Current := by
  unfold State.Current
  split <;> infer_instance

/-- What a step announces of the display finds room, and is so. -/
def Heeded (s : State) : Step → Prop
  | .announce room => room = true
  | .replayState room => room = true ∧ s.Current
  | _ => True

instance (s : State) : DecidablePred (Heeded s)
  | .announce room => inferInstanceAs (Decidable (room = true))
  | .replayState room => inferInstanceAs (Decidable (room = true ∧ s.Current))
  | .atomicEnable _ | .atomicDisable | .atomicUpdate _ _ | .updateCursor _ _ _ | .connect
  | .setCursorEvents _ | .events _ _ | .nextFrame _ _ | .requestUpdate | .wake _ _ | .timeout
  | .grab => .isTrue trivial

/-- **A connected client was told** the mode and the power state, up to what is still to be sent. -/
structure Told (d : Driver) (commit : Commit) (replay : Replay) : Prop where
  connected : d.connected = false → d.sent = []
  stored : commit.Stored d.announcedMode
  on : d.connected = true → ¬commit.OwesPower → lastOf powerOf d.sent = some dpmsOn →
    d.announcedMode.isSome
  lit : d.connected = true → ¬commit.OwesPower → ¬replay.OwesPower → d.announcedMode.isSome →
    lastOf powerOf d.sent = some dpmsOn
  mode : d.connected = true → commit = .idle → replay = .idle → ∀ m, d.announcedMode = some m →
    lastOf modeOf d.sent = some m.announcement

section Told

variable {d d' : Driver} {commit : Commit} {replay : Replay}

/-- What was sent besides says nothing of the display. -/
def Aside (d d' : Driver) : Prop :=
  d'.connected = d.connected ∧ d'.announcedMode = d.announcedMode ∧
    ∃ es, d'.sent = d.sent ++ es ∧ (d.connected = false → es = []) ∧
      ∀ e ∈ es, modeOf e = none ∧ powerOf e = none

theorem Aside.of_same (hconnected : d'.connected = d.connected)
    (hmode : d'.announcedMode = d.announcedMode) (hsent : d'.sent = d.sent) : Aside d d' :=
  ⟨hconnected, hmode, [], by simp [hsent], fun _ => rfl, nofun⟩

theorem Aside.trans {d'' : Driver} (h : Aside d d') (h' : Aside d' d'') : Aside d d'' := by
  obtain ⟨hconnected, hmode, es, hsent, hnone, hes⟩ := h
  obtain ⟨hconnected', hmode', es', hsent', hnone', hes'⟩ := h'
  refine ⟨hconnected'.trans hconnected, hmode'.trans hmode, es ++ es', ?_, fun hoff => ?_,
    fun e he => ?_⟩
  · rw [hsent', hsent, List.append_assoc]
  · rw [hnone hoff, hnone' (hconnected.trans hoff)]
    rfl
  · rcases List.mem_append.1 he with he | he
    · exact hes e he
    · exact hes' e he

theorem aside_send (d : Driver) (room : Bool) {e : Event} (hmode : modeOf e = none)
    (hpower : powerOf e = none) : Aside d (d.send room e) := by
  unfold Driver.send
  split_ifs with hroom
  · refine ⟨rfl, rfl, [e], rfl, fun hoff => ?_, fun e' he' => ?_⟩
    · rw [hoff] at hroom
      exact absurd hroom (by simp)
    · rw [List.mem_singleton.1 he']
      exact ⟨hmode, hpower⟩
  · exact .of_same rfl rfl rfl

theorem aside_reportCursor (d : Driver) (room : ℕ → Bool) (handle : Option UInt32)
    (old : Option CursorBuffer) (plane : CursorPlane) :
    Aside d (d.reportCursor room handle old plane) := by
  have hset (fb : CursorBuffer) : Aside d (d.notifyCursorSet room fb handle) := by
    unfold Driver.notifyCursorSet
    split
    · exact aside_send d (room 0) rfl rfl
    · exact .of_same rfl rfl rfl
  have hmove (d : Driver) : Aside d (d.notifyCursorMove room plane) := by
    unfold Driver.notifyCursorMove
    split
    · exact .of_same rfl rfl rfl
    · exact aside_send d (room 1) rfl rfl
  unfold Driver.reportCursor
  split
  · exact aside_send d (room 0) rfl rfl
  · refine Aside.trans ?_ (hmove _)
    split_ifs
    · exact hset _
    · exact .of_same rfl rfl rfl

theorem aside_updateCursor (d : Driver) (room : ℕ → Bool) (handle : Option UInt32)
    (plane : CursorPlane) : Aside d (d.updateCursor room handle plane) := by
  have hplane : Aside d { d with cursorBuffer := plane.framebuffer } := .of_same rfl rfl rfl
  unfold Driver.updateCursor
  dsimp only
  split_ifs
  · exact hplane.trans (aside_reportCursor _ room handle _ plane)
  · exact hplane

theorem Told.aside (h : Told d commit replay) (h' : Aside d d') : Told d' commit replay := by
  obtain ⟨hconnected, hmode, es, hsent, hnone, hes⟩ := h'
  have hmodes : lastOf modeOf d'.sent = lastOf modeOf d.sent := by
    rw [hsent, lastOf_append, lastOf_eq_none fun e he => (hes e he).1, Option.none_or]
  have hpowers : lastOf powerOf d'.sent = lastOf powerOf d.sent := by
    rw [hsent, lastOf_append, lastOf_eq_none fun e he => (hes e he).2, Option.none_or]
  constructor
  · intro hoff
    rw [hconnected] at hoff
    rw [hsent, h.connected hoff, hnone hoff]
    rfl
  · rw [hmode]
    exact h.stored
  · rw [hconnected, hmode, hpowers]
    exact h.on
  · rw [hconnected, hmode, hpowers]
    exact h.lit
  · rw [hconnected, hmode, hmodes]
    exact h.mode

/-- What is sent where there is room, when someone is connected. -/
theorem send_room (d : Driver) (e : Event) :
    (d.send true e).connected = d.connected ∧ (d.send true e).announcedMode = d.announcedMode ∧
      (d.send true e).sent = if d.connected then d.sent ++ [e] else d.sent := by
  unfold Driver.send
  cases hconnected : d.connected with
  | false => simp [hconnected]
  | true => simp

/-- **The power state is sent**, and what is told of it from now on is right. -/
theorem Told.sendPower (h : Told d commit replay) {state : Int32} {commit' : Commit}
    {replay' : Replay} (hstored : commit'.Stored d.announcedMode)
    (hstate : ¬commit'.OwesPower → (state = dpmsOn ↔ d.announcedMode.isSome = true))
    (hmode : commit' = .idle → replay' = .idle → d.announcedMode = none) :
    Told (d.send true (.dpms state)) commit' replay' := by
  obtain ⟨hconnected, hannounced, hsent⟩ := send_room d (.dpms state)
  have hpower (hon : d.connected = true) :
      lastOf powerOf (d.send true (.dpms state)).sent = some state := by
    rw [hsent, if_pos hon, lastOf_snoc]
    rfl
  constructor
  · intro hoff
    rw [hconnected] at hoff
    rw [hsent, if_neg (by simp [hoff])]
    exact h.connected hoff
  · rwa [hannounced]
  · intro hon howes htold
    rw [hconnected] at hon
    rw [hpower hon] at htold
    rw [hannounced]
    exact (hstate howes).1 (Option.some.inj htold)
  · intro hon howes _ hsome
    rw [hconnected] at hon
    rw [hannounced] at hsome
    rw [hpower hon, (hstate howes).2 hsome]
  · intro _ hcommit hreplay m hm
    rw [hannounced, hmode hcommit hreplay] at hm
    exact absurd hm (by simp)

/-- **The mode is sent**, the one that was stored last where no other is to be sent. -/
theorem Told.sendMode (h : Told d commit replay) {m : DisplayMode} {commit' : Commit}
    {replay' : Replay} (hstored : commit'.Stored d.announcedMode)
    (hcommit : ¬commit'.OwesPower → ¬commit.OwesPower)
    (hreplay : ¬replay'.OwesPower → ¬replay.OwesPower)
    (hmode : commit' = .idle → replay' = .idle → ∀ m' ∈ d.announcedMode, m' = m) :
    Told (d.send true (.modeChanged m.announcement)) commit' replay' := by
  obtain ⟨hconnected, hannounced, hsent⟩ := send_room d (.modeChanged m.announcement)
  have hpower : lastOf powerOf (d.send true (.modeChanged m.announcement)).sent =
      lastOf powerOf d.sent := by
    rw [hsent]
    split
    · rw [lastOf_snoc]
      rfl
    · rfl
  constructor
  · intro hoff
    rw [hconnected] at hoff
    rw [hsent, if_neg (by simp [hoff])]
    exact h.connected hoff
  · rwa [hannounced]
  · rw [hconnected, hannounced, hpower]
    exact fun hon howes => h.on hon (hcommit howes)
  · rw [hconnected, hannounced, hpower]
    exact fun hon howes howes' => h.lit hon (hcommit howes) (hreplay howes')
  · intro hon hc hr m' hm'
    rw [hconnected] at hon
    rw [hannounced] at hm'
    rw [hsent, if_pos hon, lastOf_snoc, hmode hc hr m' hm']
    rfl

variable {s : State}

theorem Told.atomicEnable (h : Told s.driver s.commit s.replay) (m : DisplayMode) :
    Told (s.atomicEnable m).driver (s.atomicEnable m).commit (s.atomicEnable m).replay := by
  unfold State.atomicEnable
  split
  · exact ⟨h.connected, trivial, fun _ ho => absurd trivial ho, fun _ ho => absurd trivial ho,
      nofun⟩
  · exact h

theorem Told.atomicDisable (h : Told s.driver s.commit s.replay) :
    Told s.atomicDisable.driver s.atomicDisable.commit s.atomicDisable.replay := by
  unfold State.atomicDisable
  split
  · exact ⟨h.connected, trivial, fun _ ho => absurd trivial ho, fun _ ho => absurd trivial ho,
      nofun⟩
  · exact h

theorem Told.announce (h : Told s.driver s.commit s.replay) :
    Told (s.announce true).driver (s.announce true).commit (s.announce true).replay := by
  have hstored := h.stored
  unfold State.announce
  split
  next => exact h
  next mode hcommit =>
    exact ⟨h.connected, rfl, fun _ ho => absurd trivial ho, fun _ ho => absurd trivial ho, nofun⟩
  next hcommit =>
    rw [hcommit] at hstored
    refine h.sendPower trivial (fun _ => ?_) fun _ _ => hstored
    rw [hstored]
    decide
  next m hcommit =>
    rw [hcommit] at hstored
    refine h.sendPower hstored (fun _ => ?_) nofun
    rw [show s.driver.announcedMode = some m from hstored]
    exact ⟨fun _ => rfl, fun _ => rfl⟩
  next m hcommit =>
    rw [hcommit] at hstored
    refine h.sendMode trivial (fun _ => ?_) id fun _ _ m' hm' => ?_
    · rw [hcommit]
      exact id
    · rw [show s.driver.announcedMode = some m from hstored] at hm'
      exact (Option.some.inj hm').symm

theorem Told.connect (h : Told s.driver s.commit s.replay) :
    Told s.connect.driver s.connect.commit s.connect.replay := by
  unfold State.connect
  split
  next hreplay =>
    refine ⟨nofun, h.stored, fun _ howes htold => ?_, fun _ _ ho => absurd trivial ho, nofun⟩
    cases hconnected : s.driver.connected with
    | false =>
      dsimp only at htold
      rw [h.connected hconnected] at htold
      exact absurd htold (by simp [lastOf])
    | true => exact h.on hconnected howes htold
  next => exact h

theorem Told.replayState (h : Told s.driver s.commit s.replay) (hcurrent : s.Current) :
    Told (s.replayState true).driver (s.replayState true).commit (s.replayState true).replay := by
  unfold State.Current at hcurrent
  unfold State.replayState
  split
  next => exact h
  next =>
    cases hannounced : s.driver.announcedMode with
    | none =>
      refine ⟨h.connected, h.stored, h.on, fun _ _ _ hsome => ?_, fun _ _ _ m hm => ?_⟩
      · rw [hannounced] at hsome
        exact absurd hsome (by simp)
      · rw [hannounced] at hm
        exact absurd hm (by simp)
    | some m =>
      exact ⟨h.connected, h.stored, h.on, fun _ _ ho => absurd trivial ho, nofun⟩
  next m hreplay =>
    rw [hreplay] at hcurrent
    refine h.sendPower h.stored (fun howes => ?_) nofun
    simp [hcurrent.resolve_left howes]
  next m hreplay =>
    rw [hreplay] at hcurrent
    refine h.sendMode h.stored id (fun _ => ?_) fun hcommit _ => hcurrent.resolve_left ?_
    · rw [hreplay]
      exact id
    · exact fun hne => hne hcommit

/-- **One step.** -/
theorem Told.step (h : Told s.driver s.commit s.replay) {step : Step} (hheeded : Heeded s step)
    {heard : List Heard} (hfollows : Follows s heard) :
    Told (Client.step s step).driver (Client.step s step).commit (Client.step s step).replay := by
  have hpoll (n : ℕ) (pixels : Mapping) : Told (s.pollEvents n pixels).driver
      (s.pollEvents n pixels).commit (s.pollEvents n pixels).replay := by
    obtain ⟨es, rest, cursorEvents, -, hpoll⟩ := pollEvents_eq hfollows.selected n pixels
    rw [hpoll]
    exact h.aside (.of_same rfl rfl rfl)
  cases step with
  | atomicEnable m => exact h.atomicEnable m
  | atomicDisable => exact h.atomicDisable
  | announce room =>
    obtain rfl : room = true := hheeded
    exact h.announce
  | atomicUpdate fb room =>
    refine h.aside ?_
    cases fb with
    | false => exact .of_same rfl rfl rfl
    | true =>
      refine Aside.trans ?_ (aside_send _ (room 0) rfl rfl)
      exact .of_same rfl rfl rfl
  | updateCursor plane handle room => exact h.aside (aside_updateCursor _ room handle plane)
  | connect => exact h.connect
  | replayState room =>
    obtain ⟨rfl, hcurrent⟩ : room = true ∧ s.Current := hheeded
    exact h.replayState hcurrent
  | setCursorEvents enable => exact h.aside (.of_same rfl rfl rfl)
  | events n pixels =>
    show Told (s.events n pixels).driver (s.events n pixels).commit (s.events n pixels).replay
    unfold State.events
    split_ifs
    · exact hpoll n pixels
    · exact h
  | nextFrame n pixels =>
    show Told (s.nextFrame n pixels).driver (s.nextFrame n pixels).commit
      (s.nextFrame n pixels).replay
    unfold State.nextFrame
    dsimp only
    split_ifs
    · exact hpoll n pixels
    · exact hpoll n pixels
    · exact h
  | requestUpdate =>
    show Told s.requestUpdate.driver s.requestUpdate.commit s.requestUpdate.replay
    unfold State.requestUpdate
    by_cases hphase : s.phase = .requesting
    · rw [if_pos hphase]
      exact h
    · rw [if_neg hphase]
      exact h
  | wake n pixels =>
    show Told (s.wake n pixels).driver (s.wake n pixels).commit (s.wake n pixels).replay
    unfold State.wake
    split_ifs
    · exact hpoll n pixels
    · exact h
  | timeout =>
    show Told s.timeout.driver s.timeout.commit s.timeout.replay
    unfold State.timeout
    split_ifs
    · exact h
    · exact h
  | grab =>
    show Told s.grab.driver s.grab.commit s.grab.replay
    unfold State.grab
    split_ifs
    · exact h.aside (.of_same rfl rfl rfl)
    · exact h

end Told

theorem told_opened (d : Driver) :
    Told (opened d).driver (opened d).commit (opened d).replay where
  connected _ := rfl
  stored := trivial
  on := by simp [opened]
  lit := by simp [opened]
  mode := by simp [opened]

theorem told_run : ∀ (steps : List Step) (s : State) (heard : List Heard), Follows s heard →
    Told s.driver s.commit s.replay → Along Heeded step s steps →
    Told (run step s steps).driver (run step s steps).commit (run step s steps).replay
  | [], _, _, _, h, _ => h
  | step :: steps, s, heard, hfollows, h, hheeded => by
    obtain ⟨heard', hfollows'⟩ := hfollows.step step
    exact told_run steps _ _ hfollows' (h.step hheeded.1 hfollows) hheeded.2

/-- **The client knows the display.**  Whenever a connected client has nothing on its way to it and
no announcement is half made, its mode is the one that was announced last, if the display is on; and
the last power state it was told is on exactly if the display is.  It does not matter what the
compositor did before the client connected. -/
theorem display_known (d : Driver) (steps : List Step)
    (hheeded : Along Heeded step (opened d) steps)
    (hconnected : (run step (opened d) steps).driver.connected = true)
    (hcommit : (run step (opened d) steps).commit = .idle)
    (hreplay : (run step (opened d) steps).replay = .idle)
    (hqueue : (run step (opened d) steps).driver.queue = []) :
    (∀ m, (run step (opened d) steps).driver.announcedMode = some m →
      (run step (opened d) steps).device.mode = some m.mode) ∧
    (lastOf DeviceEvent.power ((run step (opened d) steps).handed ++
        (run step (opened d) steps).device.events) = some dpmsOn ↔
      (run step (opened d) steps).driver.announcedMode.isSome) := by
  obtain ⟨heard, h⟩ := follows_run d steps
  have htold := told_run steps _ [] (follows_opened d) (told_opened d) hheeded
  set s := run step (opened d) steps with hs
  have hsent : heard.map Prod.fst = s.driver.sent := by
    have := h.sent
    rwa [hqueue, List.append_nil] at this
  have hpower : ¬s.commit.OwesPower ∧ ¬s.replay.OwesPower := by
    rw [hcommit, hreplay]
    exact ⟨id, id⟩
  refine ⟨fun m hm => ?_, ?_⟩
  · rw [h.mode, hsent, htold.mode hconnected hcommit hreplay m hm]
    exact (fromAbi_announcement m).1
  · rw [h.handed, lastOf_reported, hsent]
    exact ⟨htold.on hconnected hpower.1, htold.lit hconnected hpower.1 hpower.2⟩

/-- A card that is on already. -/
def litDriver : Driver := { blankDriver with announcedMode := some smallMode }

def largeMode : DisplayMode := ⟨1920, 1080, 60, by decide, by decide, by decide⟩

/-- A client connects while the compositor sets another mode; the old one is replayed before the new
one is announced. -/
def lateClient : List Step :=
  [.connect, .replayState true, .atomicEnable largeMode, .announce true, .replayState true,
    .replayState true, .events 16 fun _ => none, .announce true, .announce true,
    .events 16 fun _ => none]

/-- A client that connects late. -/
theorem display_known_late :
    (∀ m, (run step (opened litDriver) lateClient).driver.announcedMode = some m →
      (run step (opened litDriver) lateClient).device.mode = some m.mode) ∧
    (lastOf DeviceEvent.power ((run step (opened litDriver) lateClient).handed ++
        (run step (opened litDriver) lateClient).device.events) = some dpmsOn ↔
      (run step (opened litDriver) lateClient).driver.announcedMode.isSome) :=
  display_known litDriver lateClient (by decide +kernel) (by decide +kernel) (by decide +kernel)
    (by decide +kernel) (by decide +kernel)

/-- The compositor turns the display off while its mode is replayed. -/
def overtaken : List Step :=
  [.connect, .replayState true, .atomicDisable, .announce true, .announce true, .replayState true,
    .replayState true, .events 16 fun _ => none]

/-- **The replay is overtaken**: the display is off, and the last power state that was handed on is
on. -/
theorem replay_overtaken :
    (run step (opened litDriver) overtaken).driver.announcedMode = none ∧
    (run step (opened litDriver) overtaken).driver.queue = [] ∧
    lastOf DeviceEvent.power (run step (opened litDriver) overtaken).handed = some dpmsOn := by
  decide +kernel

end Vino.Evdi.Client
