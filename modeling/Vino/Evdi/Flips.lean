import Vino.Evdi.Painter
import Vino.Lib.Run

/-!
# Flips and Grabs

The compositor flips framebuffers in, in three steps: it sets the scanout, records the damage and
sends `UPDATE_READY`.  The client asks for an update, waits for `UPDATE_READY` unless a frame is
already there, and grabs, in three steps again: it takes the scanout, takes the damage and copies.
The two sides interleave at the granularity of these steps.

* `waiting_fresh`: while the client waits and nothing is on its way to it, its buffer shows the
  current framebuffer, in every run in which no grab takes the damage of a flip that was set behind
  its scanout,
* `flip_lost`: a grab that does leaves the client waiting with a stale buffer.
-/

namespace Vino.Evdi.Flips

open Vino.Lib.Run

variable {α : Type}

/-! ### The two sides -/

/-- How far the update of the plane has come. -/
inductive Flip (α : Type) where
  | none
  | prepared (old : Option (Framebuffer α)) (clips : List Rect)
  | damaged

/-- Where the client is: between two calls of `next_frame`, behind the discarded flag, waiting, or
in one of the steps of a grab. -/
inductive Phase (α : Type) where
  | idle
  | requesting
  | waiting
  | grabbing
  | taken (fb : Framebuffer α)
  | copying (fb : Framebuffer α) (damage : List Rect)

structure State (α : Type) where
  scanout : Option (Framebuffer α)
  frameDirty : Bool
  damage : Damage
  /-- `UPDATE_READY` events that were sent and have not been delivered. -/
  undelivered : ℕ
  flip : Flip α
  client : Phase α
  readyBuffer : Bool
  buffer : Image α

/-- Nothing has been flipped in yet. -/
def State.initial (buffer : Image α) : State α where
  scanout := none
  frameDirty := false
  damage := Damage.new
  undelivered := 0
  flip := .none
  client := .idle
  readyBuffer := false
  buffer := buffer

inductive Event (α : Type) where
  /-- A flip: its framebuffer becomes the scanout. -/
  | setScanout (fb : Framebuffer α) (clips : List Rect)
  | pushDamage
  | notifyUpdateReady
  /-- The client reads events between two calls of `next_frame`, or at the start of one. -/
  | pollEvents (n : ℕ)
  | discardReady
  | requestUpdate
  /-- The client reads events while it waits. -/
  | wake (n : ℕ)
  | timeout
  | takeScanout
  | takeDamage
  | copy

/-- One step of either side; a step that is not due changes nothing. -/
def step (q : Request) (s : State α) : Event α → State α
  | .setScanout fb clips =>
      match s.flip with
      | .none => { s with scanout := some fb, flip := .prepared s.scanout clips }
      | _ => s
  | .pushDamage =>
      match s.flip with
      | .prepared _ clips =>
          { s with damage := s.damage.pushAll clips, frameDirty := true, flip := .damaged }
      | _ => s
  | .notifyUpdateReady =>
      match s.flip with
      | .damaged => { s with undelivered := s.undelivered + 1, flip := .none }
      | _ => s
  | .pollEvents n =>
      match s.client with
      | .idle =>
          if n < s.undelivered then
            { s with undelivered := s.undelivered - (n + 1), readyBuffer := true }
          else s
      | _ => s
  | .discardReady =>
      match s.client with
      | .idle => { s with readyBuffer := false, client := .requesting }
      | _ => s
  | .requestUpdate =>
      match s.client with
      | .requesting => { s with client := if s.frameDirty then .grabbing else .waiting }
      | _ => s
  | .wake n =>
      match s.client with
      | .waiting =>
          if n < s.undelivered then
            { s with undelivered := s.undelivered - (n + 1), client := .grabbing }
          else s
      | _ => s
  | .timeout =>
      match s.client with
      | .waiting => { s with client := .idle }
      | _ => s
  | .takeScanout =>
      match s.client with
      | .grabbing =>
          match s.scanout with
          | none => { s with client := .idle }
          | some fb => { s with client := .taken fb }
      | _ => s
  | .takeDamage =>
      match s.client with
      | .taken fb =>
          { s with
            frameDirty := false
            damage := Damage.new
            client := .copying fb s.damage.rects }
      | _ => s
  | .copy =>
      match s.client with
      | .copying fb damage =>
          { s with
            buffer := copyRects fb.pixel (grabRects q fb damage) s.buffer
            client := .idle }
      | _ => s

/-! ### What is promised and what is asked for -/

/-- A flip covers what it changes, and the client's buffer holds its framebuffer. -/
def Event.WellFormed (q : Request) (s : State α) : Event α → Prop
  | .setScanout fb clips => q.Holds fb ∧ (s.flip = .none → Honest s.scanout fb clips)
  | _ => True

/-- When a grab takes the damage, the scanout it took is still the current one, or the flip that
replaced it has not recorded its damage yet. -/
def Event.Seen (s : State α) : Event α → Prop
  | .takeDamage => ∀ fb, s.client = .taken fb →
      s.scanout = some fb ∨ ∃ clips, s.flip = .prepared (some fb) clips
  | _ => True

/-- While the client waits and nothing is on its way to it, it has seen the current framebuffer. -/
def Fresh (s : State α) : Prop :=
  s.client = .waiting → s.undelivered = 0 → s.flip = .none →
    ∀ fb, s.scanout = some fb → ∀ x y, fb.Shows x y → s.buffer x y = fb.pixel x y

/-! ### The invariant -/

/-- The buffer behind the grab that is under way. -/
def State.coming (q : Request) (s : State α) : Image α :=
  match s.client with
  | .copying fb damage => copyRects fb.pixel (grabRects q fb damage) s.buffer
  | _ => s.buffer

/-- The pixel is recorded as damage, or will be. -/
def State.Owed (s : State α) (x y : ℤ) : Prop :=
  Covered s.damage.rects x y ∨ ∃ old clips, s.flip = .prepared old clips ∧ Covered clips x y

structure Inv (q : Request) (s : State α) : Prop where
  holds : ∀ fb, s.scanout = some fb → q.Holds fb
  taken : ∀ fb, s.client = .taken fb → q.Holds fb
  honest : ∀ old clips, s.flip = .prepared old clips →
    ∃ fb, s.scanout = some fb ∧ Honest old fb clips
  dirty : s.damage.rects ≠ [] → s.frameDirty = true
  /-- A pixel that is stale behind the grab under way is owed. -/
  owed : ∀ fb, s.scanout = some fb → ∀ x y, fb.Shows x y → s.coming q x y ≠ fb.pixel x y →
    s.Owed x y
  /-- While the client waits, an update that it must see is announced, or will be. -/
  announced : s.client = .waiting → s.frameDirty = true →
    0 < s.undelivered ∨ s.flip = .damaged

variable {q : Request} {s : State α}

theorem inv_initial (buffer : Image α) : Inv q (State.initial buffer) where
  holds := nofun
  taken := nofun
  honest := nofun
  dirty h := absurd rfl h
  owed := nofun
  announced := nofun

/-- Only the state of the client changes, and it neither waits nor copies. -/
theorem Inv.client (h : Inv q s) {c : Phase α} {n : ℕ} {flag : Bool}
    (hcoming : s.coming q = s.buffer) (hwaiting : c ≠ .waiting)
    (hcopying : ∀ fb damage, c ≠ .copying fb damage)
    (htaken : ∀ fb, c = .taken fb → s.scanout = some fb) :
    Inv q { s with client := c, undelivered := n, readyBuffer := flag } where
  holds := h.holds
  taken fb hc := h.holds fb (htaken fb hc)
  honest := h.honest
  dirty := h.dirty
  owed fb hfb x y hshows hstale := by
    refine h.owed fb hfb x y hshows ?_
    rw [hcoming]
    cases c with
    | copying fb damage => exact absurd rfl (hcopying fb damage)
    | idle => exact hstale
    | requesting => exact hstale
    | waiting => exact hstale
    | grabbing => exact hstale
    | taken fb => exact hstale
  announced hc := absurd hc hwaiting

theorem inv_setScanout (h : Inv q s) {fb : Framebuffer α} {clips : List Rect}
    (hflip : s.flip = .none) (hfits : q.Holds fb) (hhonest : Honest s.scanout fb clips) :
    Inv q { s with scanout := some fb, flip := .prepared s.scanout clips } where
  holds fb' hfb' := by
    obtain rfl := Option.some.inj hfb'
    exact hfits
  taken := h.taken
  honest old clips' hprepared := by
    obtain ⟨rfl, rfl⟩ := Flip.prepared.inj hprepared
    exact ⟨fb, rfl, hhonest⟩
  dirty := h.dirty
  owed fb' hfb' x y hshows hstale := by
    obtain rfl := Option.some.inj hfb'
    by_cases hclips : Covered clips x y
    · exact .inr ⟨_, _, rfl, hclips⟩
    · -- The pixel did not change, so it was stale before.
      obtain ⟨o, ho, hoshows, heq⟩ := hhonest.unchanged hshows hclips
      rcases h.owed o ho x y hoshows (fun hfresh => hstale (hfresh.trans heq)) with hcovered | hnone
      · exact .inl hcovered
      · obtain ⟨old, clips', hprepared, -⟩ := hnone
        rw [hflip] at hprepared
        cases hprepared
  announced hwaiting hdirty := by
    rcases h.announced hwaiting hdirty with hsent | hdamaged
    · exact .inl hsent
    · rw [hflip] at hdamaged
      cases hdamaged

theorem inv_pushDamage (h : Inv q s) {old : Option (Framebuffer α)} {clips : List Rect}
    (hflip : s.flip = .prepared old clips) :
    Inv q { s with damage := s.damage.pushAll clips, frameDirty := true, flip := .damaged } where
  holds := h.holds
  taken := h.taken
  honest := nofun
  dirty _ := rfl
  owed fb hfb x y hshows hstale := by
    refine .inl (s.damage.pushAll_covers clips ?_)
    rcases h.owed fb hfb x y hshows hstale with hcovered | ⟨old', clips', hprepared, hcovered⟩
    · exact .inl hcovered
    · rw [hflip] at hprepared
      obtain ⟨-, rfl⟩ := Flip.prepared.inj hprepared
      exact .inr hcovered
  announced _ _ := .inr rfl

theorem inv_notifyUpdateReady (h : Inv q s) (hflip : s.flip = .damaged) :
    Inv q { s with undelivered := s.undelivered + 1, flip := .none } where
  holds := h.holds
  taken := h.taken
  honest := nofun
  dirty := h.dirty
  owed fb hfb x y hshows hstale := by
    rcases h.owed fb hfb x y hshows hstale with hcovered | ⟨old, clips, hprepared, -⟩
    · exact .inl hcovered
    · rw [hflip] at hprepared
      cases hprepared
  announced _ _ := .inl (Nat.succ_pos _)

theorem inv_requestUpdate (h : Inv q s) (hclient : s.client = .requesting) :
    Inv q { s with client := if s.frameDirty then .grabbing else .waiting } := by
  have hcoming : s.coming q = s.buffer := by rw [State.coming, hclient]
  by_cases hdirty : s.frameDirty = true
  · rw [if_pos hdirty]
    exact h.client hcoming nofun nofun nofun
  · rw [if_neg hdirty]
    exact
      { holds := h.holds
        taken := nofun
        honest := h.honest
        dirty := h.dirty
        owed := fun fb hfb x y hshows hstale => h.owed fb hfb x y hshows (hcoming ▸ hstale)
        announced := fun _ hd => absurd hd hdirty }

/-- **Taking the damage** of flips that the grab has seen leaves nothing stale but what the flip
under way will record. -/
theorem inv_takeDamage (h : Inv q s) {fb : Framebuffer α} (hclient : s.client = .taken fb)
    (hseen : s.scanout = some fb ∨ ∃ clips, s.flip = .prepared (some fb) clips) :
    Inv q { s with
      frameDirty := false, damage := Damage.new, client := .copying fb s.damage.rects } where
  holds := h.holds
  taken := nofun
  honest := h.honest
  dirty hne := absurd rfl hne
  announced := nofun
  owed fb' hfb' x y hshows hstale := by
    have hcoming : s.coming q = s.buffer := by rw [State.coming, hclient]
    have hfits := h.taken fb hclient
    change copyRects fb.pixel (grabRects q fb s.damage.rects) s.buffer x y ≠ _ at hstale
    rw [copyRects_eq] at hstale
    refine .inr ?_
    by_cases hkept : fb.Shows x y ∧ s.buffer x y ≠ fb'.pixel x y ∧
        ¬Covered (grabRects q fb s.damage.rects) x y
    · obtain ⟨hold, hbuffer, hcovered⟩ := hkept
      rcases h.owed fb' hfb' x y hshows (hcoming ▸ hbuffer) with hdamage | hprepared
      · exact absurd (grabRects_covers hfits hold (.inr hdamage)) hcovered
      · exact hprepared
    · -- The pixel is copied from the scanout that was taken, or lies outside of it.
      have htaken : fb.Shows x y → fb.pixel x y ≠ fb'.pixel x y := by
        intro hold
        split_ifs at hstale with hcovered
        · exact hstale
        · exact absurd ⟨hold, hstale, hcovered⟩ hkept
      rcases hseen with hcurrent | ⟨clips, hprepared⟩
      · obtain rfl := Option.some.inj (hcurrent.symm.trans hfb')
        exact absurd rfl (htaken hshows)
      · obtain ⟨fb'', hfb'', hhonest⟩ := h.honest _ _ hprepared
        obtain rfl := Option.some.inj (hfb''.symm.trans hfb')
        refine ⟨_, _, hprepared, hhonest x y ⟨hshows, fun o ho hoshows => ?_⟩⟩
        obtain rfl := Option.some.inj ho
        exact htaken hoshows

theorem inv_copy (h : Inv q s) {fb : Framebuffer α} {damage : List Rect}
    (hclient : s.client = .copying fb damage) :
    Inv q { s with
      buffer := copyRects fb.pixel (grabRects q fb damage) s.buffer, client := .idle } where
  holds := h.holds
  taken := nofun
  honest := h.honest
  dirty := h.dirty
  announced := nofun
  owed fb' hfb' x y hshows hstale := by
    refine h.owed fb' hfb' x y hshows ?_
    rw [State.coming, hclient]
    exact hstale

/-- **Every step keeps the invariant.** -/
theorem inv_step (h : Inv q s) {e : Event α} (hwell : e.WellFormed q s) (hseen : e.Seen s) :
    Inv q (step q s e) := by
  cases e with
  | setScanout fb clips =>
      simp only [step]
      split
      · rename_i hflip
        exact inv_setScanout h hflip hwell.1 (hwell.2 hflip)
      · exact h
  | pushDamage =>
      simp only [step]
      split
      · rename_i hflip
        exact inv_pushDamage h hflip
      · exact h
  | notifyUpdateReady =>
      simp only [step]
      split
      · rename_i hflip
        exact inv_notifyUpdateReady h hflip
      · exact h
  | pollEvents n =>
      simp only [step]
      split
      · rename_i hclient
        have hcoming : s.coming q = s.buffer := by rw [State.coming, hclient]
        split_ifs
        · exact h.client hcoming (by rw [hclient]; nofun) (by rw [hclient]; nofun)
            (by rw [hclient]; nofun)
        · exact h
      · exact h
  | discardReady =>
      simp only [step]
      split
      · rename_i hclient
        exact h.client (by rw [State.coming, hclient]) nofun nofun nofun
      · exact h
  | requestUpdate =>
      simp only [step]
      split
      · rename_i hclient
        exact inv_requestUpdate h hclient
      · exact h
  | wake n =>
      simp only [step]
      split
      · rename_i hclient
        split_ifs
        · exact h.client (by rw [State.coming, hclient]) nofun nofun nofun
        · exact h
      · exact h
  | timeout =>
      simp only [step]
      split
      · rename_i hclient
        exact h.client (by rw [State.coming, hclient]) nofun nofun nofun
      · exact h
  | takeScanout =>
      simp only [step]
      split
      · rename_i hclient
        have hcoming : s.coming q = s.buffer := by rw [State.coming, hclient]
        split
        · exact h.client hcoming nofun nofun nofun
        · rename_i fb hfb
          refine h.client hcoming nofun nofun fun fb' hfb' => ?_
          rw [hfb, Phase.taken.inj hfb']
      · exact h
  | takeDamage =>
      simp only [step]
      split
      · rename_i fb hclient
        exact inv_takeDamage h hclient (hseen fb hclient)
      · exact h
  | copy =>
      simp only [step]
      split
      · rename_i fb damage hclient
        exact inv_copy h hclient
      · exact h

theorem Inv.fresh (h : Inv q s) : Fresh s := by
  intro hwaiting hundelivered hflip fb hfb x y hshows
  by_contra hstale
  have hcoming : s.coming q = s.buffer := by rw [State.coming, hwaiting]
  rcases h.owed fb hfb x y hshows (hcoming ▸ hstale) with ⟨r, hr, -⟩ | ⟨old, clips, hprepared, -⟩
  · rcases h.announced hwaiting (h.dirty (List.ne_nil_of_mem hr)) with hsent | hdamaged
    · omega
    · rw [hflip] at hdamaged
      cases hdamaged
  · rw [hflip] at hprepared
    cases hprepared

/-- **No flip is lost between the compositor and the client**, in every run in which each grab takes
only the damage of flips whose framebuffer it can have seen. -/
theorem waiting_fresh (q : Request) (buffer : Image α) (es : List (Event α))
    (hwell : Along (fun s e => e.WellFormed q s ∧ e.Seen s) (step q) (State.initial buffer) es) :
    Fresh (run (step q) (State.initial buffer) es) :=
  (run_invariant (P := Inv q) (fun _ _ h hC => inv_step h hC.1 hC.2) es _ (inv_initial buffer)
    hwell).fresh

/-! ### A flip between the two steps of a grab -/

/-- A framebuffer of one colour. -/
def plain (colour : ℕ) : Framebuffer ℕ := fullHd fun _ _ => colour

/-- A flip, and a client that grabs it and goes on waiting. -/
def flipThenGrab : List (Event ℕ) :=
  [.setScanout (plain 1) [screen], .pushDamage, .notifyUpdateReady, .pollEvents 0, .discardReady,
    .requestUpdate, .takeScanout, .takeDamage, .copy, .discardReady, .requestUpdate]

theorem waiting_fresh_flipThenGrab :
    (run (step fullFrame) (State.initial fun _ _ => 0) flipThenGrab).client = .waiting ∧
      Fresh (run (step fullFrame) (State.initial fun _ _ => 0) flipThenGrab) := by
  refine ⟨rfl, waiting_fresh fullFrame (fun _ _ => 0) flipThenGrab ?_⟩
  refine ⟨⟨⟨holds_fullHd _, fun _ => honest_screen none _⟩, trivial⟩, ⟨trivial, trivial⟩,
    ⟨trivial, trivial⟩, ⟨trivial, trivial⟩, ⟨trivial, trivial⟩, ⟨trivial, trivial⟩,
    ⟨trivial, trivial⟩, ⟨trivial, fun fb hfb => .inl ?_⟩, ⟨trivial, trivial⟩, ⟨trivial, trivial⟩,
    ⟨trivial, trivial⟩, trivial⟩
  exact congrArg some (Phase.taken.inj hfb)

/-- A second flip arrives while the first one is being grabbed, behind the step that takes the
scanout and ahead of the step that takes the damage. -/
def flipDuringGrab : List (Event ℕ) :=
  [.setScanout (plain 1) [screen], .pushDamage, .notifyUpdateReady, .pollEvents 0, .discardReady,
    .requestUpdate, .takeScanout, .setScanout (plain 2) [screen], .pushDamage, .takeDamage, .copy,
    .notifyUpdateReady, .pollEvents 0, .discardReady, .requestUpdate]

/-- **A flip is lost**: the client waits with nothing on its way to it, and every pixel of its buffer
is stale. -/
theorem flip_lost :
    Along (fun s e => e.WellFormed fullFrame s) (step fullFrame) (State.initial fun _ _ => 0)
        flipDuringGrab ∧
      ¬Fresh (run (step fullFrame) (State.initial fun _ _ => 0) flipDuringGrab) := by
  constructor
  · exact ⟨⟨holds_fullHd _, fun _ => honest_screen none _⟩, trivial, trivial, trivial, trivial,
      trivial, trivial, ⟨holds_fullHd _, fun _ => honest_screen _ _⟩, trivial, trivial, trivial,
      trivial, trivial, trivial, trivial, trivial⟩
  · intro hfresh
    have hpixel := hfresh rfl rfl rfl (plain 2) rfl 0 0 ⟨by decide, by decide, by decide, by decide⟩
    revert hpixel
    decide

end Vino.Evdi.Flips
