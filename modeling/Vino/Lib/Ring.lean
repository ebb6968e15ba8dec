import Mathlib

/-!
# Rings of Buffers

A display keeps `n` buffers and steps through them: a presentation with sequence number `seq`
writes the cells it carries into buffer `seq % n` and leaves the others of that buffer, and all
other buffers, as they are.  `Recent` says that the buffers of the last presentations hold a
value in a cell; once there are as many of them as buffers, all of them do.

* `Recent.write`: one more presentation that carries the value,
* `Recent.rewrite`: a presentation repeated at the same number,
* `Recent.all`: enough presentations reach every buffer.
-/

namespace Vino.Lib.Ring

variable {κ α : Type} {n seq k : ℕ} {ring : ℕ → κ → α} {frame : κ → Option α} {c : κ} {v : α}

/-- The ring behind a presentation: the carried cells of one buffer are overwritten. -/
def write (n : ℕ) (ring : ℕ → κ → α) (seq : ℕ) (frame : κ → Option α) : ℕ → κ → α :=
  fun slot c => if slot = seq % n then (frame c).getD (ring slot c) else ring slot c

/-- The ring behind `k` presentations of one frame, with consecutive numbers from `seq`. -/
def writes (n : ℕ) (ring : ℕ → κ → α) (seq : ℕ → ℕ) (frame : κ → Option α) : ℕ → ℕ → κ → α
  | 0 => ring
  | k + 1 => write n (writes n ring seq frame k) (seq k) frame

/-- The buffers of the last `k` presentations before number `seq` hold `v` in cell `c`. -/
def Recent (n : ℕ) (ring : ℕ → κ → α) (seq k : ℕ) (c : κ) (v : α) : Prop :=
  ∀ j < k, j < n → ring ((seq + (n - 1 - j)) % n) c = v

/-- Every buffer holds `v` in cell `c`. -/
def All (n : ℕ) (ring : ℕ → κ → α) (c : κ) (v : α) : Prop := ∀ slot < n, ring slot c = v

theorem Recent.zero : Recent n ring seq 0 c v := fun _ h => absurd h (Nat.not_lt_zero _)

theorem Recent.mono {m : ℕ} (h : Recent n ring seq k c v) (hm : m ≤ k) :
    Recent n ring seq m c v := fun j hj => h j (Nat.lt_of_lt_of_le hj hm)

/-- Only the phase of the number counts. -/
theorem Recent.congr {seq' : ℕ} (h : Recent n ring seq k c v) (hseq : seq % n = seq' % n) :
    Recent n ring seq' k c v := fun j hj hn => by
  rw [← Nat.mod_add_mod, ← hseq, Nat.mod_add_mod]
  exact h j hj hn

/-- A cell that is not carried, or carried with the value it has, keeps the value. -/
theorem write_eq {slot : ℕ} (hc : ∀ w, frame c = some w → w = v) (h : ring slot c = v) :
    write n ring seq frame slot c = v := by
  unfold write
  split_ifs
  · cases hf : frame c with
    | none => exact h
    | some w => exact hc w hf
  · exact h

/-- **One more presentation** that carries the value. -/
theorem Recent.write (h : Recent n ring seq k c v) (hc : frame c = some v) :
    Recent n (Ring.write n ring seq frame) (seq + 1) (k + 1) c v := by
  intro j hj hn
  cases j with
  | zero =>
      have hslot : (seq + 1 + (n - 1 - 0)) % n = seq % n := by
        rw [show seq + 1 + (n - 1 - 0) = seq + n by omega, Nat.add_mod_right]
      rw [hslot, Ring.write, if_pos rfl, hc]
      rfl
  | succ j =>
      have hslot : seq + 1 + (n - 1 - (j + 1)) = seq + (n - 1 - j) := by omega
      rw [hslot]
      exact write_eq (fun w hw => by rw [hc] at hw; exact (Option.some.inj hw).symm)
        (h j (by omega) (by omega))

/-- **A presentation repeated at the same number** keeps what is known, if it carries the value
or leaves the cell alone. -/
theorem Recent.rewrite (h : Recent n ring seq k c v) (hc : ∀ w, frame c = some w → w = v)
    (seq' : ℕ) : Recent n (Ring.write n ring seq' frame) seq k c v :=
  fun j hj hn => write_eq hc (h j hj hn)

theorem All.write (h : All n ring c v) (hc : ∀ w, frame c = some w → w = v) (seq : ℕ) :
    All n (Ring.write n ring seq frame) c v := fun slot hs => write_eq hc (h slot hs)

/-- **Enough presentations reach every buffer.** -/
theorem Recent.all (h : Recent n ring seq k c v) (hk : n ≤ k) : All n ring c v := by
  intro slot hs
  have hq : seq % n < n := Nat.mod_lt seq (by omega)
  -- The slot lies `d` presentations ahead, so it was written `n - 1 - d` presentations ago.
  obtain ⟨d, hd, hds⟩ : ∃ d < n, (seq + d) % n = slot := by
    rcases Nat.lt_or_ge slot (seq % n) with hlt | hge
    · refine ⟨slot + n - seq % n, by omega, ?_⟩
      have hsum : seq % n + (slot + n - seq % n) = slot + n := by omega
      rw [← Nat.mod_add_mod, hsum, Nat.add_mod_right, Nat.mod_eq_of_lt hs]
    · refine ⟨slot - seq % n, by omega, ?_⟩
      have hsum : seq % n + (slot - seq % n) = slot := by omega
      rw [← Nat.mod_add_mod, hsum, Nat.mod_eq_of_lt hs]
  have hj := h (n - 1 - d) (by omega) (by omega)
  rwa [show n - 1 - (n - 1 - d) = d by omega, hds] at hj

theorem All.recent (h : All n ring c v) (hn : 0 < n) (seq k : ℕ) : Recent n ring seq k c v :=
  fun _ _ _ => h _ (Nat.mod_lt _ hn)

/-- Any number of presentations that leave the cell alone or carry its value. -/
theorem Recent.writes {seqs : ℕ → ℕ} (h : Recent n ring seq k c v)
    (hc : ∀ w, frame c = some w → w = v) (m : ℕ) :
    Recent n (Ring.writes n ring seqs frame m) seq k c v := by
  induction m with
  | zero => exact h
  | succ m ih => exact ih.rewrite hc _

theorem All.writes {seqs : ℕ → ℕ} (h : All n ring c v) (hc : ∀ w, frame c = some w → w = v)
    (m : ℕ) : All n (Ring.writes n ring seqs frame m) c v := by
  induction m with
  | zero => exact h
  | succ m ih => exact ih.write hc _

/-- **A keyframe**: as many consecutive presentations as there are buffers. -/
theorem all_of_writes {seqs : ℕ → ℕ} (hseq : ∀ r < n, seqs r % n = (seq + r) % n)
    (hc : frame c = some v) : All n (Ring.writes n ring seqs frame n) c v := by
  have hrec : ∀ m ≤ n, Recent n (Ring.writes n ring seqs frame m) (seq + m) m c v := by
    intro m
    induction m with
    | zero => exact fun _ => Recent.zero
    | succ m ih =>
        intro hm
        have hstep := (ih (by omega)).write hc
        have hsame : ∀ r, Ring.write n r (seqs m) frame = Ring.write n r (seq + m) frame := by
          intro r
          funext slot c
          rw [Ring.write, Ring.write, hseq m (by omega)]
        rw [Ring.writes, hsame]
        exact hstep
  exact (hrec n (Nat.le_refl n)).all (Nat.le_refl n)

end Vino.Lib.Ring
