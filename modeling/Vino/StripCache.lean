import Vino.Coherence

/-!
# Cached Strip Bodies

The calls of a head's ledger in any order: surfaces are planned, encoded and presented, any of the
steps may be left out or fail, and keyframes come to be owed.  The cache of strip bodies is filled
while a surface is encoded and is emptied when the size of the surface changes.

* `encode_spec_ready`: what a call of `encode` returns, whatever the cache holds,
* `strip_cache_fresh`: the cache never changes a byte of a frame.
-/

namespace Vino.StripCache

open Vino.Haar.Strip Vino.Haar.Records Vino.Haar.Framing Vino.Profile
open Vino.Scanout Vino.Damage Vino.Coherence

/-! ### Calls -/

/-- A head's ledger and the surface it has last planned. -/
structure Head (d : Dock) where
  scanout : HeadScanout
  current : Option (Surface d)

/-- A call; `fault` is the number of strips after which an allocation fails, if one does. -/
inductive Call (d : Dock) where
  | oweKeyframe
  | plan (f : Surface d)
  | encode (plan : Plan) (head : UInt8) (fault : Option ℕ)
  | presented (plan : Plan)

/-- The surface of a call. -/
def Call.surface {d : Dock} : Call d → Option (Surface d)
  | .plan f => some f
  | _ => none

/-- The surfaces that are planned. -/
def surfaces {d : Dock} (calls : List (Call d)) : List (Surface d) := calls.filterMap Call.surface

namespace Head

variable {d : Dock}

def new (d : Dock) : Head d := ⟨HeadScanout.new d, none⟩

/-- Whether every strip has a hash.  `presented` takes the hashes away, and the code panics when it
indexes them then. -/
def indexed (s : HeadScanout) (ps : List (ℕ × ℕ)) : Bool :=
  ps.all fun p => decide (s.stripIndex p.1 p.2 < s.pending.length)

/-- Encode the surface that was last planned. -/
def encode (h : Head d) (plan : Plan) (head : UInt8) (fault : Option ℕ) :
    Option (HeadScanout × Except Errno (Option Frame)) :=
  let coords := (h.scanout.selection plan).1
  let touched := match fault with
    | some n => coords.take n
    | none => coords
  if indexed h.scanout touched then
    some (h.scanout.encode plan ((h.current.map Surface.rgb).getD []) head fault)
  else none

/-- One call; nothing follows a panic. -/
def step (h : Head d) : Call d → Option (Head d)
  | .oweKeyframe => some { h with scanout := h.scanout.oweKeyframe }
  | .plan f => some ⟨(h.scanout.plan f.width f.height f.rgb).1, some f⟩
  | .encode plan head fault => (h.encode plan head fault).map fun r => { h with scanout := r.1 }
  | .presented plan => some { h with scanout := h.scanout.presented plan }

/-- The head behind a run of calls. -/
def run (h : Head d) (calls : List (Call d)) : Option (Head d) := calls.foldlM step h

end Head

/-! ### The invariant -/

variable {d : Dock} {S : List (Surface d)} {f : Surface d} {h h' : Head d}

/-- The cache is in order, and the hashes to compare with are those of the current surface. -/
structure Kept (S : List (Surface d)) (h : Head d) : Prop where
  dock : h.scanout.dock = d
  bodies : h.scanout.bodies.length =
    h.scanout.wPad / d.geometry.stripW * (h.scanout.hPad / d.geometry.stripH)
  bodyHashes : h.scanout.bodyHashes.length =
    h.scanout.wPad / d.geometry.stripW * (h.scanout.hPad / d.geometry.stripH)
  cache : CacheOk S h.scanout
  pending : h.scanout.pending = [] ∨
    ∃ f ∈ S, h.current = some f ∧ Fits h.scanout f ∧ h.scanout.pending = f.hashes

theorem kept_new (d : Dock) (S : List (Surface d)) : Kept S (Head.new d) where
  dock := rfl
  bodies := by simp [Head.new, HeadScanout.new]
  bodyHashes := by simp [Head.new, HeadScanout.new]
  cache := fun i b hb => by simp [Head.new, HeadScanout.new] at hb
  pending := .inl rfl

/-- A head with hashes can encode its surface. -/
theorem Kept.ready (hk : Kept S h) (hfits : Fits h.scanout f)
    (hpending : h.scanout.pending = f.hashes) : Ready S f h.scanout := by
  have hlen : h.scanout.wPad / d.geometry.stripW * (h.scanout.hPad / d.geometry.stripH) =
      f.tilesX * f.tilesY := by
    rw [← hfits.1, ← hfits.2]
    rfl
  exact ⟨hk.dock, hk.bodies.trans hlen, hk.bodyHashes.trans hlen, hk.cache, hfits, hpending⟩

/-- Planning changes the ledger, the hashes to compare with and, with the size, the cache. -/
theorem plan_eq (s : HeadScanout) (wPad hPad : ℕ) (rgb : List UInt8) :
    (s.plan wPad hPad rgb).1 =
      { s.resized wPad hPad (wPad / s.dock.stripDims.1 * (hPad / s.dock.stripDims.2)) with
        pending := stripHashes rgb wPad hPad s.dock.stripDims.1 s.dock.stripDims.2
        debt := (s.plan wPad hPad rgb).1.debt } := by
  unfold HeadScanout.plan
  dsimp only
  split
  · rfl
  · split <;> rfl

theorem plan_fits (hdock : h.scanout.dock = d) (f : Surface d) :
    Fits (h.scanout.plan f.width f.height f.rgb).1 f ∧
      (h.scanout.plan f.width f.height f.rgb).1.pending = f.hashes := by
  rw [plan_eq h.scanout f.width f.height f.rgb]
  refine ⟨?_, ?_⟩
  · rcases resized_eq_or h.scanout f.width f.height with ⟨heq, hw, hh⟩ | heq <;> rw [heq]
    · exact ⟨hw.symm, hh.symm⟩
    · exact ⟨rfl, rfl⟩
  · rw [hdock]
    rfl

theorem kept_plan (hk : Kept S h) (hf : f ∈ S) :
    Kept S ⟨(h.scanout.plan f.width f.height f.rgb).1, some f⟩ := by
  obtain ⟨hdock, hbodies, hbodyHashes, hcache, -⟩ := hk
  obtain ⟨hfits, hpending⟩ := plan_fits hdock f
  have hkept : (h.scanout.plan f.width f.height f.rgb).1.dock = d ∧
      (h.scanout.plan f.width f.height f.rgb).1.bodies.length =
        (h.scanout.plan f.width f.height f.rgb).1.wPad / d.geometry.stripW *
          ((h.scanout.plan f.width f.height f.rgb).1.hPad / d.geometry.stripH) ∧
      (h.scanout.plan f.width f.height f.rgb).1.bodyHashes.length =
        (h.scanout.plan f.width f.height f.rgb).1.wPad / d.geometry.stripW *
          ((h.scanout.plan f.width f.height f.rgb).1.hPad / d.geometry.stripH) ∧
      CacheOk S (h.scanout.plan f.width f.height f.rgb).1 := by
    rw [plan_eq h.scanout f.width f.height f.rgb]
    rcases resized_eq_or h.scanout f.width f.height with ⟨heq, -, -⟩ | heq <;> rw [heq]
    · exact ⟨hdock, hbodies, hbodyHashes, hcache⟩
    · refine ⟨hdock, ?_, ?_, ?_⟩
      · rw [hdock]
        simp [Dock.stripDims]
      · rw [hdock]
        simp [Dock.stripDims]
      · intro i b hb
        simp at hb
  exact ⟨hkept.1, hkept.2.1, hkept.2.2.1, hkept.2.2.2, .inr ⟨f, hf, rfl, hfits, hpending⟩⟩

/-! ### Encoding -/

/-- **A call of `encode`** on a head that is ready: nothing is selected, an allocation fails, or
the bodies that were served are framed. -/
theorem encode_spec_ready {s : HeadScanout} (hf : f ∈ S) (h : Ready S f s) (plan : Plan)
    (head : UInt8) (fault : Option ℕ) :
    ∃ s' r, s.encode plan f.rgb head fault = (s', r) ∧ Ready S f s' ∧
      (((s.selection plan).1 = [] ∧ r = .ok none) ∨ (fault ≠ none ∧ r = .error .ENOMEM) ∨
        fault = none ∧ ∃ bs, List.Forall₂ (Serves S f) (s.selection plan).1 bs ∧
          ((∃ records, frameRecords d.geometry bs head = .ok records ∧
              r = .ok (some ⟨(s.selection plan).1, bs, records, (s.selection plan).2⟩)) ∨
            ∃ e, frameRecords d.geometry bs head = .error e ∧ r = .error e)) := by
  have hsub := selection_subset h.dock h.fits plan
  unfold HeadScanout.encode
  dsimp only
  split_ifs with hempty
  · exact ⟨s, _, rfl, h, .inl ⟨List.isEmpty_iff.1 hempty, rfl⟩⟩
  · cases fault with
    | some n =>
        obtain ⟨s', bs, hbodies, -, -, h'⟩ := stripBodies_ready hf
          ((s.selection plan).1.take n) s h fun p hp => hsub p (List.mem_of_mem_take hp)
        dsimp only
        rw [hbodies]
        exact ⟨s', _, rfl, h', .inr (.inl ⟨nofun, rfl⟩)⟩
    | none =>
        obtain ⟨s', bs, hbodies, hserves, -, h'⟩ := stripBodies_ready hf (s.selection plan).1 s h
          hsub
        dsimp only
        rw [hbodies]
        dsimp only
        rw [h'.dock]
        split
        · next e herror =>
            exact ⟨s', _, rfl, h', .inr (.inr ⟨rfl, bs, hserves, .inr ⟨e, herror, rfl⟩⟩)⟩
        · next records hok =>
            exact ⟨s', _, rfl, h', .inr (.inr ⟨rfl, bs, hserves, .inl ⟨records, hok, rfl⟩⟩)⟩

theorem eq_nil_of_indexed {s : HeadScanout} {ps : List (ℕ × ℕ)} (hpending : s.pending = [])
    (h : Head.indexed s ps = true) : ps = [] := by
  cases ps with
  | nil => rfl
  | cons p ps => simp [Head.indexed, hpending] at h

/-- **A call of `encode` in a run**: without hashes nothing is encoded and nothing is cached, with
them the head is ready for the current surface. -/
theorem Kept.encode_cases (hk : Kept S h) {plan : Plan} {head : UInt8} {fault : Option ℕ}
    {s' : HeadScanout} {r : Except Errno (Option Frame)}
    (henc : h.encode plan head fault = some (s', r)) :
    (s' = h.scanout ∧ (r = .ok none ∨ fault ≠ none ∧ r = .error .ENOMEM)) ∨
      ∃ f ∈ S, h.current = some f ∧ Ready S f h.scanout ∧
        h.scanout.encode plan f.rgb head fault = (s', r) := by
  unfold Head.encode at henc
  dsimp only at henc
  split_ifs at henc with hindexed
  rcases hk.pending with hpending | ⟨f, hf, hcurrent, hfits, hpending⟩
  · have hnil := eq_nil_of_indexed hpending hindexed
    have heq := Option.some_inj.1 henc
    unfold HeadScanout.encode at heq
    dsimp only at heq
    refine .inl ?_
    split_ifs at heq with hempty
    · obtain ⟨rfl, rfl⟩ := Prod.mk.inj heq
      exact ⟨rfl, .inl rfl⟩
    · cases fault with
      | none => exact absurd (List.isEmpty_iff.2 hnil) hempty
      | some n =>
          dsimp only at hnil heq
          rw [hnil] at heq
          obtain ⟨rfl, rfl⟩ := Prod.mk.inj heq
          exact ⟨rfl, .inr ⟨nofun, rfl⟩⟩
  · rw [hcurrent] at henc
    exact .inr ⟨f, hf, hcurrent, hk.ready hfits hpending, Option.some_inj.1 henc⟩

/-! ### Runs -/

/-- **One call keeps the cache in order.** -/
theorem kept_step (hk : Kept S h) {call : Call d} (hcall : ∀ f, call.surface = some f → f ∈ S)
    (hstep : h.step call = some h') : Kept S h' := by
  cases call with
  | oweKeyframe =>
      obtain rfl := Option.some_inj.1 hstep
      exact ⟨hk.dock, hk.bodies, hk.bodyHashes, hk.cache, hk.pending⟩
  | plan f =>
      obtain rfl := Option.some_inj.1 hstep
      exact kept_plan hk (hcall f rfl)
  | presented plan =>
      obtain rfl := Option.some_inj.1 hstep
      cases plan with
      | idle => exact hk
      | keyframe => exact ⟨hk.dock, hk.bodies, hk.bodyHashes, hk.cache, .inl rfl⟩
      | damage clips => exact ⟨hk.dock, hk.bodies, hk.bodyHashes, hk.cache, .inl rfl⟩
  | encode plan head fault =>
      obtain ⟨⟨s', r⟩, henc, rfl⟩ := Option.map_eq_some_iff.1 hstep
      rcases hk.encode_cases henc with ⟨rfl, -⟩ | ⟨f, hf, hcurrent, hready, heq⟩
      · exact hk
      · obtain ⟨s'', r', heq', h', -⟩ := encode_spec_ready hf hready plan head fault
        obtain ⟨rfl, rfl⟩ := Prod.mk.inj (heq.symm.trans heq')
        have hlen : s'.wPad / d.geometry.stripW * (s'.hPad / d.geometry.stripH) =
            f.tilesX * f.tilesY := by
          rw [← h'.fits.1, ← h'.fits.2]
          rfl
        exact ⟨h'.dock, h'.bodies.trans hlen.symm, h'.bodyHashes.trans hlen.symm, h'.cache,
          .inr ⟨f, hf, hcurrent, h'.fits, h'.pending⟩⟩

theorem kept_run : ∀ (calls : List (Call d)) {h h' : Head d}, Kept S h →
    (∀ f ∈ surfaces calls, f ∈ S) → h.run calls = some h' → Kept S h'
  | [], h, h', hk, _, hrun => by
      obtain rfl := Option.some_inj.1 hrun
      exact hk
  | call :: calls, h, h', hk, hS, hrun => by
      unfold Head.run at hrun
      rw [List.foldlM_cons] at hrun
      obtain ⟨h1, hstep, hrest⟩ := Option.bind_eq_some_iff.1 hrun
      have hmem : ∀ f, call.surface = some f → f ∈ surfaces (call :: calls) := fun f hf =>
        List.mem_filterMap.2 ⟨call, List.mem_cons_self, hf⟩
      refine kept_run calls (kept_step hk (fun f hf => hS f (hmem f hf)) hstep) ?_ hrest
      intro f hf
      obtain ⟨call', hcall', hf'⟩ := List.mem_filterMap.1 hf
      exact hS f (List.mem_filterMap.2 ⟨call', List.mem_cons_of_mem call hcall', hf'⟩)

/-- A head that has just planned does not panic. -/
theorem encode_planned (hk : Kept S h) (hcurrent : h.current = some f) (hfits : Fits h.scanout f)
    (hpending : h.scanout.pending = f.hashes) (plan : Plan) (head : UInt8) (fault : Option ℕ) :
    h.encode plan head fault = some (h.scanout.encode plan f.rgb head fault) := by
  have hindexed : ∀ ps : List (ℕ × ℕ), (∀ p ∈ ps, p ∈ f.coords) →
      Head.indexed h.scanout ps = true := by
    intro ps hps
    refine List.all_eq_true.2 fun p hp => decide_eq_true ?_
    obtain ⟨tx, htx, ty, hty, rfl⟩ := f.mem_coords.1 (hps p hp)
    rw [stripIndex_eq hk.dock hfits, hpending, f.length_hashes]
    exact index_lt htx hty
  have hsub := selection_subset hk.dock hfits plan
  unfold Head.encode
  dsimp only
  rw [hcurrent, if_pos]
  · rfl
  · cases fault with
    | none => exact hindexed _ hsub
    | some n => exact hindexed _ fun p hp => hsub p (List.mem_of_mem_take hp)

/-- Bodies of strips that are short enough are framed. -/
theorem frameRecords_of_short (hshort : ∀ q ∈ S, ∀ p ∈ q.coords, (q.body p).length ≤ 4062)
    {ps : List (ℕ × ℕ)} {bs : List (List UInt8)} (hserves : List.Forall₂ (Serves S f) ps bs)
    (head : UInt8) : ∃ records, frameRecords d.geometry bs head = .ok records := by
  have hbs : ∀ b ∈ bs, b.length ≤ 4062 := by
    intro b hb
    have hserved : ∃ p, Serves S f p b := by
      induction hserves with
      | nil => cases hb
      | cons hserve _ ih =>
          rcases List.mem_cons.1 hb with rfl | hb
          · exact ⟨_, hserve⟩
          · exact ih hb
    obtain ⟨p, q, hq, hw, hh, rfl, tx, htx, ty, hty, rfl, -⟩ := hserved
    refine hshort q hq _ (q.mem_coords.2 ⟨tx, ?_, ty, ?_, rfl⟩)
    · unfold Surface.tilesX at htx ⊢
      rwa [hw]
    · unfold Surface.tilesY at hty ⊢
      rwa [hh]
  rcases frameRecordsWithBoundary_spec d.geometry bs head none with
    ⟨⟨b, hb, hlong⟩, -⟩ | ⟨_, -, hok, -⟩
  · exact absurd (hbs b hb) (by omega)
  · exact ⟨_, hok⟩

/-- A keyframe of a surface with short strips comes out of a head that has planned it. -/
theorem encode_keyframe (hk : Kept S h) (hf : f ∈ S) (hne : f.coords ≠ [])
    (hshort : ∀ q ∈ S, ∀ p ∈ q.coords, (q.body p).length ≤ 4062) (head : UInt8) :
    ∃ s' frame, Head.encode ⟨(h.scanout.plan f.width f.height f.rgb).1, some f⟩ .keyframe head
      none = some (s', .ok (some frame)) := by
  have hk' := kept_plan hk hf
  obtain ⟨hfits, hpending⟩ := plan_fits hk.dock f
  obtain ⟨s', r, henc, -, hcases⟩ :=
    encode_spec_ready hf (hk'.ready hfits hpending) .keyframe head none
  have heq := (encode_planned hk' rfl hfits hpending .keyframe head none).trans
    (congrArg some henc)
  rcases hcases with ⟨hnil, -⟩ | ⟨h, -⟩ | ⟨-, bs, hserves, ⟨records, -, rfl⟩ | ⟨e, herror, -⟩⟩
  · have hcoords : f.coords = [] := by
      rw [← hnil]
      show allStripCoords _ _ _ = allStripCoords _ _ _
      rw [hk'.dock, ← hfits.1, ← hfits.2]
    exact absurd hcoords hne
  · exact absurd rfl h
  · exact ⟨s', _, heq⟩
  · obtain ⟨records, hok⟩ := frameRecords_of_short hshort hserves head
    rw [hok] at herror
    cases herror

/-- **Cached strip bodies are never stale.**  Behind any run of calls, a frame that is encoded has
the records of the selected strips of the current surface, encoded afresh. -/
theorem strip_cache_fresh (d : Dock) (calls : List (Call d)) (h : Head d)
    (hS : HashesDistinct (surfaces calls)) (hrun : (Head.new d).run calls = some h) (plan : Plan)
    (head : UInt8) (fault : Option ℕ) (s' : HeadScanout) (frame : Frame)
    (henc : h.encode plan head fault = some (s', .ok (some frame))) :
    ∃ f ∈ surfaces calls, h.current = some f ∧ ∃ strips,
      (h.scanout.selection plan).1.mapM (fun p =>
        colourStripAt d.geometry p.1 p.2 (rgbReader d.tenBit f.width f.rgb)) = some strips ∧
      frameRecords d.geometry strips head = .ok frame.records := by
  have hk : Kept (surfaces calls) h := kept_run calls (kept_new d _) (fun _ hf => hf) hrun
  rcases hk.encode_cases henc with ⟨-, hr | ⟨-, hr⟩⟩ | ⟨f, hf, hcurrent, hready, heq⟩
  · cases hr
  · cases hr
  · refine ⟨f, hf, hcurrent, (h.scanout.selection plan).1.map f.body, ?_, ?_⟩
    · have hfresh : (fun p : ℕ × ℕ => colourStripAt d.geometry p.1 p.2
          (rgbReader d.tenBit f.width f.rgb)) = fun p => pure (f.body p) :=
        funext f.encodeStrip_eq
      rw [hfresh, List.mapM_pure]
      rfl
    · obtain ⟨s'', r, heq', -, hcases⟩ := encode_spec_ready hf hready plan head fault
      obtain ⟨-, rfl⟩ := Prod.mk.inj (heq.symm.trans heq')
      rcases hcases with ⟨-, hr⟩ | ⟨-, hr⟩ | ⟨-, bs, hserves, ⟨records, hok, hr⟩ | ⟨e, -, hr⟩⟩
      · cases hr
      · cases hr
      · obtain rfl := Option.some_inj.1 (Except.ok.inj hr)
        rw [← serves_eq_map hS hf hserves]
        exact hok
      · cases hr

/-- A surface that is encoded and presented. -/
def encoded (f : Surface d) : List (Call d) :=
  [.plan f, .encode .keyframe 0 none, .presented .keyframe, .oweKeyframe]

theorem run_encoded {s' : HeadScanout} {r : Except Errno (Option Frame)}
    (henc : Head.encode ⟨(h.scanout.plan f.width f.height f.rgb).1, some f⟩ .keyframe 0 none =
      some (s', r)) :
    h.run (encoded f) = some ⟨(s'.presented .keyframe).oweKeyframe, some f⟩ := by
  simp [Head.run, encoded, Head.step, henc]

/-- A strip that is encoded again comes out of the cache as it was. -/
theorem strip_cache_fresh_grey : ∃ h s' frame,
    (Head.new navarro).run (encoded (grey 0) ++ [.plan (grey 0)]) = some h ∧
      h.encode .keyframe 0 none = some (s', .ok (some frame)) ∧
      ∃ f ∈ surfaces (encoded (grey 0) ++ [.plan (grey 0)]), h.current = some f ∧ ∃ strips,
        (h.scanout.selection .keyframe).1.mapM (fun p =>
          colourStripAt navarro.geometry p.1 p.2 (rgbReader navarro.tenBit f.width f.rgb)) =
            some strips ∧
        frameRecords navarro.geometry strips 0 = .ok frame.records := by
  have hS : ∀ f ∈ [grey 0, grey 0], f = grey 0 := by
    intro f hf
    simp only [List.mem_cons, List.not_mem_nil, or_false, or_self] at hf
    exact hf
  have hmem : grey 0 ∈ [grey 0, grey 0] := List.mem_cons_self
  have hshort : ∀ q ∈ [grey 0, grey 0], ∀ p ∈ q.coords, (q.body p).length ≤ 4062 := by
    intro q hq p hp
    obtain rfl := hS q hq
    rw [coords_grey, List.mem_singleton] at hp
    rw [hp, body_grey]
    exact strips_grey.2.1
  have hne : (grey 0).coords ≠ [] := by
    rw [coords_grey]
    nofun
  obtain ⟨s1, frame1, hfirst⟩ := encode_keyframe (kept_new navarro _) hmem hne hshort 0
  have hrun := run_encoded hfirst
  have hk := kept_run (encoded (grey 0)) (kept_new navarro [grey 0, grey 0])
    (fun f hf => List.mem_cons_of_mem _ hf) hrun
  obtain ⟨s2, frame2, hsecond⟩ := encode_keyframe hk hmem hne hshort 0
  have hrun' : (Head.new navarro).run (encoded (grey 0) ++ [.plan (grey 0)]) =
      some ⟨((HeadScanout.plan (s1.presented .keyframe).oweKeyframe (grey 0).width (grey 0).height
        (grey 0).rgb).1), some (grey 0)⟩ := by
    unfold Head.run at hrun ⊢
    rw [List.foldlM_append, hrun]
    rfl
  have hdistinct : HashesDistinct (surfaces (encoded (grey 0) ++ [.plan (grey 0)])) :=
    hashesDistinct_grey fun f hf => .inl (hS f hf)
  exact ⟨_, s2, frame2, hrun', hsecond,
    strip_cache_fresh navarro _ _ hdistinct hrun' _ _ none s2 frame2 hsecond⟩

end Vino.StripCache
