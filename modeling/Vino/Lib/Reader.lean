import Mathlib

/-!
# Readers of Streams

A reader consumes a front part of a stream of symbols and returns a value with what is left.
`Reads r word a` says that `r` takes exactly `word`, whatever follows it, and returns `a`; so a
code whose words satisfy it is uniquely decodable in front of any other code.  The rules below
build the readers of concatenated tokens from those of the single tokens.

* `Reads.bind`: readers compose as the words they take are appended,
* `Reads.each`: a list of tokens is read token by token,
* `Reads.take`: a field of known length is read symbol by symbol,
* `readAll_flatMap`: a whole stream is walked token by token.
-/

namespace Vino.Lib.Reader

variable {σ α β : Type}

/-- A reader of a front part of a stream of symbols. -/
abbrev StreamReader (σ α : Type) := StateT (List σ) Option α

/-- The reader of one symbol. -/
def next : StreamReader σ σ
  | [] => none
  | b :: l => some (b, l)

/-- The reader of the next `n` symbols. -/
def take : ℕ → StreamReader σ (List σ)
  | 0 => pure []
  | n + 1 => do
      let b ← next
      let l ← take n
      return b :: l

/-- Read with `r` at every element of a list, in order. -/
def each (r : β → StreamReader σ α) : List β → StreamReader σ (List α)
  | [] => pure []
  | k :: ks => do
      let a ← r k
      let l ← each r ks
      return a :: l

/-- A value computed from what was read, which may fail. -/
def ofOption (o : Option α) : StreamReader σ α := fun l => o.map (·, l)

/-- Read with `r` until the stream is empty; at most `n` tokens. -/
def readAll (r : StreamReader σ α) : ℕ → List σ → Option (List α)
  | _, [] => some []
  | 0, _ :: _ => none
  | n + 1, b :: l => do
      let (a, rest) ← r (b :: l)
      let as ← readAll r n rest
      return a :: as

/-- `r` takes exactly `word` off any stream that starts with it, and returns `a`. -/
def Reads (r : StreamReader σ α) (word : List σ) (a : α) : Prop :=
  ∀ rest, r (word ++ rest) = some (a, rest)

/-! ### Rules -/

theorem Reads.pure (a : α) : Reads (Pure.pure a : StreamReader σ α) [] a := fun _ => rfl

theorem Reads.next (b : σ) : Reads next [b] b := fun _ => rfl

/-- **Composition.** -/
theorem Reads.bind {r : StreamReader σ α} {f : α → StreamReader σ β} {u v : List σ} {a : α}
    {b : β} (hr : Reads r u a) (hf : Reads (f a) v b) : Reads (r >>= f) (u ++ v) b := by
  intro rest
  rw [List.append_assoc]
  show (r (u ++ (v ++ rest)) >>= fun p => f p.1 p.2) = some (b, rest)
  rw [hr]
  exact hf rest

/-- The last reader of a composition may only compute. -/
theorem Reads.map {r : StreamReader σ α} {f : α → StreamReader σ β} {u : List σ} {a : α} {b : β}
    (hr : Reads r u a) (hf : f a = Pure.pure b) : Reads (r >>= f) u b := by
  rw [← List.append_nil u]
  exact hr.bind (hf ▸ Reads.pure b)

theorem Reads.take (l : List σ) : Reads (take l.length) l l := by
  induction l with
  | nil => exact Reads.pure []
  | cons b l ih => exact (Reads.next b).bind (ih.map rfl)

/-- **Token by token.**  If each key's reader takes that key's word, the words in a row are
read as the list of the values. -/
theorem Reads.each {r : β → StreamReader σ α} {word : β → List σ} {val : β → α} :
    ∀ ks : List β, (∀ k ∈ ks, Reads (r k) (word k) (val k)) →
      Reads (each r ks) (ks.flatMap word) (ks.map val)
  | [], _ => Reads.pure []
  | k :: ks, h => by
      rw [List.flatMap_cons]
      have htail := Reads.each ks fun k' hk' => h k' (List.mem_cons_of_mem k hk')
      exact (h k List.mem_cons_self).bind (htail.map rfl)

theorem Reads.ofOption {o : Option α} {a : α} (h : o = some a) :
    Reads (ofOption o : StreamReader σ α) [] a := fun _ => by
  rw [h]
  rfl

theorem readAll_eq {r : StreamReader σ α} {word : β → List σ} {val : β → α} :
    ∀ (ks : List β) (n : ℕ), ks.length ≤ n → (∀ k ∈ ks, word k ≠ []) →
      (∀ k ∈ ks, Reads r (word k) (val k)) → readAll r n (ks.flatMap word) = some (ks.map val)
  | [], n, _, _, _ => by cases n <;> rfl
  | k :: ks, 0, hn, _, _ => by simp at hn
  | k :: ks, n + 1, hn, hne, h => by
      obtain ⟨b, l, hbl⟩ := List.exists_cons_of_ne_nil (hne k List.mem_cons_self)
      have htail := readAll_eq ks n (by simpa using hn)
        (fun k' hk' => hne k' (List.mem_cons_of_mem k hk'))
        fun k' hk' => h k' (List.mem_cons_of_mem k hk')
      have hhead := h k List.mem_cons_self (ks.flatMap word)
      rw [List.flatMap_cons, hbl] at *
      rw [List.cons_append] at *
      simp only [readAll, hhead, Option.bind_eq_bind, Option.bind_some, htail]
      rfl

theorem length_le_length_flatMap {word : β → List σ} :
    ∀ ks : List β, (∀ k ∈ ks, word k ≠ []) → ks.length ≤ (ks.flatMap word).length
  | [], _ => Nat.zero_le _
  | k :: ks, hne => by
      have hpos := List.length_pos_of_ne_nil (hne k List.mem_cons_self)
      have htail := length_le_length_flatMap ks fun k' hk' => hne k' (List.mem_cons_of_mem k hk')
      rw [List.flatMap_cons, List.length_append, List.length_cons]
      omega

/-- **Walking a stream of tokens** consumes it exactly and returns every token. -/
theorem readAll_flatMap {r : StreamReader σ α} {word : β → List σ} {val : β → α} {ks : List β}
    (hne : ∀ k ∈ ks, word k ≠ []) (h : ∀ k ∈ ks, Reads r (word k) (val k)) :
    readAll r (ks.flatMap word).length (ks.flatMap word) = some (ks.map val) :=
  readAll_eq ks _ (length_le_length_flatMap ks hne) hne h

theorem each_map {γ : Type} (r : β → StreamReader σ α) (f : γ → β) (l : List γ) :
    each r (l.map f) = each (fun k => r (f k)) l := by
  induction l with
  | nil => rfl
  | cons k ks ih => simp only [List.map_cons, each, ih]

end Vino.Lib.Reader
