import Vino.Firmware.Package

/-!
# Walking the Descriptors of a Device

The identity of a dock rides in its configuration as a vendor descriptor among others.  The kernel
driver and the user-space driver each walk the raw bytes of the configuration for it, descriptor by
descriptor.

* `parseFrom_iff`: what a walk from a place finds, by the descriptors that stand there.
* `parse_exact`: either walk returns on every input, finds exactly the first identity descriptor of
  a chain of well-formed ones, and both find the same.
-/

namespace Vino.Firmware

/-! ### The walks -/

/-- `raw[a..b]`, which panics unless the bounds are in order and inside. -/
def slice (raw : List UInt8) (a b : ℕ) : Option (List UInt8) :=
  if a ≤ b ∧ b ≤ raw.length then some ((raw.drop a).take (b - a)) else none

/-- `copy_from_slice` into a name, which panics on another length. -/
def copyName (d : List UInt8) : Option (List.Vector UInt8 identityName) :=
  if h : d.length = identityName then some ⟨d, h⟩ else none

/-- The loop of `Identity::parse` from an index, for a descriptor type and its least length; `none`
where an access is out of bounds. -/
def parseFrom (kind : UInt8) (least : ℕ) (raw : List UInt8) (i : ℕ) : Option (Option Identity) :=
  if hi : i + 2 ≤ raw.length then
    (raw[i]?).bind fun b =>
      if hlen : b.toNat < 2 ∨ raw.length < i + b.toNat then some none
      else
        (raw[i + 1]?).bind fun t =>
          if t = kind ∧ least ≤ b.toNat then do
            let d ← slice raw i (i + least)
            let name ← copyName (← slice d 8 16)
            return some ⟨⟨← d[2]?, ← d[3]?, ← d[4]?⟩, name⟩
          else parseFrom kind least raw (i + b.toNat)
  else some none
  termination_by raw.length - i

def descriptorIdentity : UInt8 := 0x40
def identityLen : ℕ := 16

/-- The walk of the kernel driver. -/
def Identity.parse (raw : List UInt8) : Option (Option Identity) :=
  parseFrom descriptorIdentity identityLen raw 0

namespace Profile

def descriptorIdentity : UInt8 := 0x40
def identityLen : ℕ := 16

/-- The walk of the user-space driver. -/
def parse (raw : List UInt8) : Option (Option Identity) :=
  parseFrom descriptorIdentity identityLen raw 0

/-- The platform name as the user-space driver trims it: up to the first padding byte. -/
def platform (id : Identity) : List UInt8 :=
  id.name.toList.take
    ((id.name.toList.findIdx? fun c => c == 0 || c == 0x20).getD identityName)

end Profile

/-! ### Chains of descriptors -/

/-- A descriptor begins with its own length, which is at least two. -/
def WellFormed (d : List UInt8) : Prop := 2 ≤ d.length ∧ ∃ b, d[0]? = some b ∧ b.toNat = d.length

/-- It carries an identity. -/
def Identifies (d : List UInt8) : Prop := d[1]? = some 0x40 ∧ 16 ≤ d.length

/-- The identity it carries: `[len, 0x40, major, minor, patch, .., name(8)]`. -/
def ReadFrom (d : List UInt8) (id : Identity) : Prop :=
  d[2]? = some id.version.major ∧ d[3]? = some id.version.minor ∧
    d[4]? = some id.version.patch ∧ id.name.toList = (d.drop 8).take 8

/-- The bytes are a chain of descriptors without an identity, the first descriptor `d` that has one,
and whatever follows it. -/
def FirstIdentity (raw d : List UInt8) : Prop :=
  ∃ (chain : List (List UInt8)) (rest : List UInt8), raw = chain.flatten ++ d ++ rest ∧
    (∀ e ∈ chain, WellFormed e ∧ ¬ Identifies e) ∧ WellFormed d ∧ Identifies d

theorem ReadFrom.unique {d : List UInt8} {id id' : Identity} (h : ReadFrom d id)
    (h' : ReadFrom d id') : id = id' := by
  obtain ⟨⟨a, b, c⟩, name⟩ := id
  obtain ⟨⟨a', b', c'⟩, name'⟩ := id'
  obtain ⟨ha, hb, hc, hname⟩ := h
  obtain ⟨ha', hb', hc', hname'⟩ := h'
  simp only at ha hb hc ha' hb' hc'
  rw [ha] at ha'
  rw [hb] at hb'
  rw [hc] at hc'
  obtain rfl := Option.some_inj.1 ha'
  obtain rfl := Option.some_inj.1 hb'
  obtain rfl := Option.some_inj.1 hc'
  obtain rfl : name = name' := Subtype.ext (hname.trans hname'.symm)
  rfl

/-! ### One step of the walk -/

/-- The first descriptor either is the one looked for or is passed over. -/
theorem firstIdentity_iff {s d : List UInt8} :
    FirstIdentity s d ↔ ∃ e rest, s = e ++ rest ∧ WellFormed e ∧
      (Identifies e ∧ d = e ∨ ¬ Identifies e ∧ FirstIdentity rest d) := by
  constructor
  · rintro ⟨chain, rest, rfl, hchain, hd⟩
    rcases chain with _ | ⟨e, chain⟩
    · exact ⟨d, rest, by simp, hd.1, .inl ⟨hd.2, rfl⟩⟩
    · obtain ⟨hwf, hnot⟩ := hchain e List.mem_cons_self
      refine ⟨e, chain.flatten ++ d ++ rest, by simp, hwf, .inr ⟨hnot, chain, rest, rfl, ?_, hd⟩⟩
      exact fun e' he' => hchain e' (List.mem_cons_of_mem e he')
  · rintro ⟨e, rest, rfl, hwf, ⟨hid, rfl⟩ | ⟨hnot, chain, rest', rfl, hchain, hd⟩⟩
    · exact ⟨[], rest, by simp, by simp, hwf, hid⟩
    · refine ⟨e :: chain, rest', by simp, ?_, hd⟩
      intro e' he'
      rcases List.mem_cons.1 he' with rfl | hmem
      · exact ⟨hwf, hnot⟩
      · exact hchain e' hmem

/-- A well-formed descriptor at a place is cut out by the byte there. -/
theorem WellFormed.eq_take {raw e rest : List UInt8} {i : ℕ} (hwf : WellFormed e)
    (hraw : raw.drop i = e ++ rest) : ∃ b, raw[i]? = some b ∧ 2 ≤ b.toNat ∧
      i + b.toNat ≤ raw.length ∧ e = (raw.drop i).take b.toNat ∧ rest = raw.drop (i + b.toNat) := by
  obtain ⟨htwo, b, hb, hlen⟩ := hwf
  have hsum := congrArg List.length hraw
  rw [List.length_drop, List.length_append] at hsum
  refine ⟨b, ?_, by omega, by omega, ?_, ?_⟩
  · have hzero : (raw.drop i)[0]? = some b := by rw [hraw, List.getElem?_append_left (by omega), hb]
    simpa using hzero
  · rw [hraw, hlen, List.take_left]
  · rw [← List.drop_drop, hraw, hlen, List.drop_left]

theorem wellFormed_take {raw : List UInt8} {i : ℕ} {b : UInt8} (hb : raw[i]? = some b)
    (htwo : 2 ≤ b.toNat) (hin : i + b.toNat ≤ raw.length) :
    WellFormed ((raw.drop i).take b.toNat) := by
  have hlen : ((raw.drop i).take b.toNat).length = b.toNat := by
    rw [List.length_take, List.length_drop]
    omega
  refine ⟨by rw [hlen]; exact htwo, b, ?_, hlen.symm⟩
  rw [List.getElem?_take_of_lt (by omega), List.getElem?_drop, Nat.add_zero, hb]

theorem identifies_take {raw : List UInt8} {i : ℕ} {b t : UInt8} (ht : raw[i + 1]? = some t)
    (htwo : 2 ≤ b.toNat) (hin : i + b.toNat ≤ raw.length) :
    Identifies ((raw.drop i).take b.toNat) ↔ t = 0x40 ∧ 16 ≤ b.toNat := by
  have hlen : ((raw.drop i).take b.toNat).length = b.toNat := by
    rw [List.length_take, List.length_drop]
    omega
  rw [Identifies, hlen, List.getElem?_take_of_lt (by omega), List.getElem?_drop, ht,
    Option.some_inj]

theorem slice_eq {raw : List UInt8} {a b : ℕ} (h : a ≤ b ∧ b ≤ raw.length) :
    slice raw a b = some ((raw.drop a).take (b - a)) := if_pos h

theorem copyName_eq {d : List UInt8} (h : d.length = identityName) :
    copyName d = some ⟨d, h⟩ := dif_pos h

/-- The identity is read inside the descriptor, whatever follows it. -/
theorem read_identity (raw : List UInt8) (i : ℕ) {n : ℕ} (hn : 16 ≤ n) (hin : i + n ≤ raw.length) :
    ∃ id, (do
        let d ← slice raw i (i + 16)
        let name ← copyName (← slice d 8 16)
        return some (⟨⟨← d[2]?, ← d[3]?, ← d[4]?⟩, name⟩ : Identity)) = some (some id) ∧
      ReadFrom ((raw.drop i).take n) id := by
  obtain ⟨d, hd⟩ : ∃ d, d = (raw.drop i).take n := ⟨_, rfl⟩
  have hlen : d.length = n := by
    rw [hd, List.length_take, List.length_drop]
    omega
  have hfront : slice raw i (i + 16) = some (d.take 16) := by
    rw [slice_eq ⟨by omega, by omega⟩, hd, List.take_take, Nat.add_sub_cancel_left,
      min_eq_left hn]
  have hname : slice (d.take 16) 8 16 = some ((d.drop 8).take 8) := by
    rw [slice_eq ⟨by omega, by rw [List.length_take]; omega⟩, List.drop_take, List.take_take]
    rfl
  have hwide : ((d.drop 8).take 8).length = identityName := by
    rw [List.length_take, List.length_drop, hlen, identityName]
    omega
  have hbyte : ∀ k, k < 16 → ∃ b, (d.take 16)[k]? = some b ∧ d[k]? = some b := by
    intro k hk
    refine ⟨d[k], ?_, List.getElem?_eq_getElem _⟩
    rw [List.getElem?_take_of_lt hk, List.getElem?_eq_getElem (by omega)]
  obtain ⟨major, hmajor, hmajor'⟩ := hbyte 2 (by omega)
  obtain ⟨minor, hminor, hminor'⟩ := hbyte 3 (by omega)
  obtain ⟨patch, hpatch, hpatch'⟩ := hbyte 4 (by omega)
  refine ⟨⟨⟨major, minor, patch⟩, ⟨(d.drop 8).take 8, hwide⟩⟩, ?_, ?_⟩
  · simp only [hfront, hname, copyName_eq hwide, hmajor, hminor, hpatch, Option.bind_eq_bind,
      Option.bind_some]
    rfl
  · rw [← hd]
    exact ⟨hmajor', hminor', hpatch', rfl⟩

/-! ### The walk -/

/-- What a walk returns: what stands in the first identity descriptor, if there is one. -/
def Finds (r : Option Identity) (s : List UInt8) : Prop :=
  ∀ id, r = some id ↔ ∃ d, FirstIdentity s d ∧ ReadFrom d id

theorem finds_none {s : List UInt8} (h : ∀ e rest, s = e ++ rest → ¬ WellFormed e) :
    Finds none s := by
  intro id
  refine ⟨fun h => by simp at h, ?_⟩
  rintro ⟨d, hd, -⟩
  obtain ⟨e, rest, hs, hwf, -⟩ := firstIdentity_iff.1 hd
  exact absurd hwf (h e rest hs)

/-- **A walk from a place** returns, and finds the first identity of the chain that starts there. -/
theorem parseFrom_iff (raw : List UInt8) (i : ℕ) :
    ∃ r, parseFrom 0x40 16 raw i = some r ∧ Finds r (raw.drop i) := by
  induction hm : raw.length - i using Nat.strong_induction_on generalizing i with
  | _ m ih =>
    rw [parseFrom]
    by_cases hi : i + 2 ≤ raw.length
    · have hb : raw[i]? = some raw[i] := List.getElem?_eq_getElem _
      have ht : raw[i + 1]? = some raw[i + 1] := List.getElem?_eq_getElem _
      rw [dif_pos hi, hb, Option.bind_some]
      by_cases hlen : raw[i].toNat < 2 ∨ raw.length < i + raw[i].toNat
      · rw [dif_pos hlen]
        refine ⟨none, rfl, finds_none fun e rest hs hwf => ?_⟩
        obtain ⟨b, hb', htwo, hin, -⟩ := hwf.eq_take hs
        obtain rfl := Option.some_inj.1 (hb.symm.trans hb')
        omega
      · have hwf := wellFormed_take hb (by omega) (by omega)
        have hids := identifies_take (b := raw[i]) ht (by omega) (by omega)
        have hcut : raw.drop i = (raw.drop i).take raw[i].toNat ++ raw.drop (i + raw[i].toNat) := by
          rw [← List.drop_drop, List.take_append_drop]
        have hfirst : ∀ e rest, raw.drop i = e ++ rest → WellFormed e →
            e = (raw.drop i).take raw[i].toNat ∧ rest = raw.drop (i + raw[i].toNat) := by
          intro e rest hs hwf'
          obtain ⟨b, hb', -, -, he, hrest⟩ := hwf'.eq_take hs
          obtain rfl := Option.some_inj.1 (hb.symm.trans hb')
          exact ⟨he, hrest⟩
        rw [dif_neg hlen, ht, Option.bind_some]
        by_cases hid : raw[i + 1] = 0x40 ∧ 16 ≤ raw[i].toNat
        · obtain ⟨id, hread, hfrom⟩ := read_identity raw i hid.2 (by omega)
          rw [if_pos hid]
          refine ⟨some id, hread, fun id' => ?_⟩
          constructor
          · intro h
            obtain rfl := Option.some_inj.1 h
            exact ⟨_, firstIdentity_iff.2 ⟨_, _, hcut, hwf, .inl ⟨hids.2 hid, rfl⟩⟩, hfrom⟩
          · rintro ⟨d, hd, hfrom'⟩
            obtain ⟨e, rest, hs, hwf', h⟩ := firstIdentity_iff.1 hd
            obtain ⟨rfl, rfl⟩ := hfirst e rest hs hwf'
            rcases h with ⟨-, rfl⟩ | ⟨hnot, -⟩
            · rw [hfrom.unique hfrom']
            · exact absurd (hids.2 hid) hnot
        · obtain ⟨r, hr, hfinds⟩ := ih _ (by omega) (i + raw[i].toNat) rfl
          rw [if_neg hid]
          refine ⟨r, hr, fun id => ?_⟩
          rw [hfinds id]
          refine exists_congr fun d => and_congr_left fun _ => ?_
          constructor
          · intro hd
            exact firstIdentity_iff.2 ⟨_, _, hcut, hwf, .inr ⟨fun h => hid (hids.1 h), hd⟩⟩
          · intro hd
            obtain ⟨e, rest, hs, hwf', h⟩ := firstIdentity_iff.1 hd
            obtain ⟨rfl, rfl⟩ := hfirst e rest hs hwf'
            rcases h with ⟨hyes, -⟩ | ⟨-, hrest⟩
            · exact absurd (hids.1 hyes) hid
            · exact hrest
    · rw [dif_neg hi]
      refine ⟨none, rfl, finds_none fun e rest hs hwf => ?_⟩
      obtain ⟨b, -, htwo, hin, -⟩ := hwf.eq_take hs
      omega

/-! ### Both walks -/

/-- Appending to the input keeps the first identity descriptor. -/
theorem FirstIdentity.append {front d : List UInt8} (h : FirstIdentity front d)
    (rest : List UInt8) : FirstIdentity (front ++ rest) d := by
  obtain ⟨chain, rest', rfl, hchain, hd⟩ := h
  exact ⟨chain, rest' ++ rest, by rw [List.append_assoc], hchain, hd⟩

theorem ReadFrom.exists {d : List UInt8} (h : Identifies d) : ∃ id, ReadFrom d id := by
  obtain ⟨id, -, hid⟩ := read_identity d 0 h.2 (by simp)
  rw [List.drop_zero, List.take_length] at hid
  exact ⟨id, hid⟩

theorem take_findIdx_eq_takeWhile {α : Type} (p : α → Bool) (n : ℕ) :
    ∀ l : List α, l.length ≤ n →
      l.take ((l.findIdx? p).getD n) = l.takeWhile fun c => !p c
  | [], _ => by simp
  | c :: l, h => by
      obtain ⟨n, rfl⟩ : ∃ m, n = m + 1 := ⟨n - 1, by rw [List.length_cons] at h; omega⟩
      have ih := take_findIdx_eq_takeWhile p n l (by rw [List.length_cons] at h; omega)
      rw [List.findIdx?_cons]
      by_cases hp : p c = true
      · simp [hp]
      · cases hfind : l.findIdx? p with
        | none => simpa [hp, hfind] using ih
        | some k => simpa [hp, hfind] using ih

/-- **The identity of a dock is parsed correctly.**  Either walk returns on every input; it finds an
identity exactly when the input starts with a chain of well-formed descriptors up to a first one
that carries it; what follows that one is irrelevant; both walks find the same, and name the same
platform. -/
theorem parse_exact :
    (∀ raw : List UInt8, ∃ r, Identity.parse raw = some r ∧ Profile.parse raw = some r ∧
      ∀ id, r = some id ↔ ∃ d, FirstIdentity raw d ∧ ReadFrom d id) ∧
      (∀ front d rest rest' : List UInt8, FirstIdentity front d →
        Identity.parse (front ++ rest) = Identity.parse (front ++ rest')) ∧
      ∀ id : Identity, Profile.platform id = id.platform := by
  refine ⟨fun raw => ?_, fun front d rest rest' hfront => ?_, fun id => ?_⟩
  · obtain ⟨r, hr, hfinds⟩ := parseFrom_iff raw 0
    exact ⟨r, hr, hr, hfinds⟩
  · obtain ⟨id, hid⟩ := ReadFrom.exists hfront.choose_spec.choose_spec.2.2.2
    have hparse : ∀ tail, Identity.parse (front ++ tail) = some (some id) := by
      intro tail
      obtain ⟨r, hr, hfinds⟩ := parseFrom_iff (front ++ tail) 0
      obtain rfl := (hfinds id).2 ⟨d, hfront.append tail, hid⟩
      exact hr
    rw [hparse rest, hparse rest']
  · rw [Profile.platform, Identity.platform, take_findIdx_eq_takeWhile _ _ _ (by simp)]
    refine congrArg (fun p => List.takeWhile p id.name.toList) (funext fun c => ?_)
    by_cases hzero : c = 0
    · simp [hzero]
    · by_cases hblank : c = 0x20
      · simp [hblank]
      · simp [hzero, hblank]

/-- A configuration descriptor, as it stands in front of the identity of a dock. -/
def configDescriptor : List UInt8 := [0x09, 0x02, 0x20, 0x00, 0x01, 0x01, 0x00, 0x80, 0x32]

/-- The identity descriptor of a dock that runs 12.2.26. -/
def navaDescriptor : List UInt8 :=
  [0x10, 0x40, 0x0c, 0x02, 0x1a, 0x0b, 0x03, 0x22, 0x4e, 0x61, 0x76, 0x61, 0x44, 0x6f, 0x63, 0x6b]

/-- What is cut off right behind the identity of that dock does not matter. -/
theorem parse_navarro :
    FirstIdentity (configDescriptor ++ navaDescriptor) navaDescriptor ∧
      Identity.parse (configDescriptor ++ navaDescriptor ++ [9]) =
        Identity.parse (configDescriptor ++ navaDescriptor ++ []) := by
  have hfirst : FirstIdentity (configDescriptor ++ navaDescriptor) navaDescriptor := by
    refine ⟨[configDescriptor], [], rfl, ?_, ⟨by decide, 0x10, rfl, rfl⟩, rfl, by decide⟩
    intro e he
    rw [List.mem_singleton.1 he]
    exact ⟨⟨by decide, 0x09, rfl, rfl⟩, fun h => absurd h.2 (by decide)⟩
  exact ⟨hfirst, parse_exact.2.1 _ _ [9] [] hfirst⟩

end Vino.Firmware
