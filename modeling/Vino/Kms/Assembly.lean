import Vino.Lib.Chunks
import Vino.Lib.Gather

/-!
# Assembling a Frame

One presentation of a frame is an optional arm prefix, an opener and a report, the image records
with the parameter map among them, and a trailer.  Two functions put it on the wire: the scanout
path, whose map follows a number of whole record chunks, and the path of the activation carriers,
whose map follows a number of bytes.  Both gather the parts into transfers of one staging buffer;
only the scanout path splits a short tail off a frame that ends on a full packet.

* `cuts`: the transfers of a message, and what their lengths are,
* `transferLoop_spec`: the loop submits the cuts of the message its parts make up,
* `assembly_iff`: what a presentation submits, for both paths.
-/

namespace Vino.Kms.Assembly

open Vino.Lib.Chunks Vino.Lib.Gather

variable {α : Type}

/-! ### The parts -/

def videoXfer : ℕ := 65536
def bulkMaxPacket : ℕ := 1024
def frameTailBytes : ℕ := 16
def navarroParamImageOffset : ℕ := 115168

/-- The parts of one presentation; an optional part that is missing is empty.  The image comes in
chunks, each of which holds whole records. -/
structure Parts (α : Type) where
  arm : List α
  opener : List α
  report : List α
  chunks : List (List (List α))
  params : List α
  trailer : List α

namespace Parts

variable (p : Parts α)

def frames : List (List α) := p.chunks.map List.flatten

/-- The image records, one behind the other. -/
def image : List α := p.frames.flatten

def imageLen : ℕ := (p.frames.map List.length).sum

def wireLen : ℕ :=
  p.arm.length + p.opener.length + p.report.length + p.params.length + p.imageLen +
    p.trailer.length

/-- The presentation with the map at an offset of the image. -/
def message (offset : ℕ) : List α :=
  p.arm ++ p.opener ++ p.report ++ (p.image.take offset ++ p.params ++ p.image.drop offset) ++
    p.trailer

/-- A whole number of records lies in front of an offset of the image. -/
def RecordBoundary (offset : ℕ) : Prop :=
  ∃ before behind, p.chunks.flatten = before ++ behind ∧ before.flatten.length = offset

end Parts

/-- The chunks that fit in front of the map, from the one whose offset is `consumed`. -/
def leadingChunks : List (List α) → ℕ → ℕ
  | [], _ => 0
  | f :: fs, consumed =>
      if navarroParamImageOffset < consumed + f.length then 0
      else leadingChunks fs (consumed + f.length) + 1

def paramMapChunkSplit (frames : List (List α)) : ℕ :=
  min (max (leadingChunks frames 0) 1) frames.length

/-! ### The transfers -/

/-- The length of the next transfer of a message of which `remaining` bytes are left. -/
def dataLen (splitTail : Bool) (remaining : ℕ) : ℕ :=
  let len := min remaining videoXfer
  if splitTail ∧ len = remaining ∧ len % bulkMaxPacket = 0 then len - frameTailBytes else len

theorem dataLen_pos (splitTail : Bool) {remaining : ℕ} (h : 0 < remaining) :
    0 < dataLen splitTail remaining := by
  unfold dataLen videoXfer bulkMaxPacket frameTailBytes
  simp only
  split_ifs with hsplit
  · obtain ⟨-, hall, hmod⟩ := hsplit
    omega
  · omega

theorem dataLen_le (splitTail : Bool) (remaining : ℕ) :
    dataLen splitTail remaining ≤ remaining ∧ dataLen splitTail remaining ≤ videoXfer := by
  unfold dataLen
  simp only
  split_ifs <;> omega

/-- A staging buffer as the driver allocates it. -/
structure Staging (α : Type) where
  bytes : List α
  length_eq : bytes.length = videoXfer

/-- The loop over the transfers of one presentation.  `accept` says whether the queue takes the
last of the transfers it is given.  The result is what was submitted and whether all of it was; it
is missing where a slice is out of range. -/
def transferLoop (part : ℕ → Option (List α)) (count wireLen : ℕ) (splitTail : Bool)
    (accept : List (List α) → Bool) (staging : List α) (wireOff i off : ℕ)
    (sent : List (List α)) : Option (List (List α) × Bool) :=
  if wireOff < wireLen then
    let len := dataLen splitTail (wireLen - wireOff)
    if staging.length < len then none
    else
      match gather part count (staging.take len) 0 i off with
      | none => none
      | some (dst, i, off) =>
        if accept (sent ++ [dst]) then
          transferLoop part count wireLen splitTail accept (dst ++ staging.drop len)
            (wireOff + len) i off (sent ++ [dst])
        else some (sent, false)
  else some (sent, true)
termination_by wireLen - wireOff
decreasing_by
  have hpos : 0 < dataLen splitTail (wireLen - wireOff) := dataLen_pos splitTail (by omega)
  omega

/-! ### The scanout path -/

/-- One for a part that is there. -/
def partsOf (part : List α) : ℕ := if part.isEmpty then 0 else 1

/-- A part, if it is there. -/
def optionalPart (part : List α) : List (List α) := if part.isEmpty then [] else [part]

namespace Parts

variable (p : Parts α)

/-- How many chunks precede the map. -/
def paramAfter : ℕ :=
  if partsOf p.params = 0 then p.frames.length else paramMapChunkSplit p.frames

/-- The part under the scanout path's cursor. -/
def scanoutPart (i : ℕ) : Option (List α) :=
  let armParts := partsOf p.arm
  let openerEnd := armParts + partsOf p.opener
  let lead := openerEnd + partsOf p.report
  let paramParts := partsOf p.params
  let paramEnd := lead + p.paramAfter + paramParts
  let partCount := lead + p.frames.length + paramParts + 1
  if i < armParts then some p.arm
  else if i < openerEnd then some p.opener
  else if i < lead then some p.report
  else if i < lead + p.paramAfter then p.frames[i - lead]?
  else if i < paramEnd then some p.params
  else if i < partCount - 1 then p.frames[i - lead - paramParts]?
  else some p.trailer

def scanoutPartCount : ℕ :=
  partsOf p.arm + partsOf p.opener + partsOf p.report + p.frames.length + partsOf p.params + 1

/-- One presentation by `encode_and_send_haar`. -/
def submitScanout (splitFullPacketFrame : Bool) (accept : List (List α) → Bool)
    (staging : Staging α) : Option (List (List α) × Bool) :=
  transferLoop p.scanoutPart p.scanoutPartCount p.wireLen splitFullPacketFrame accept
    staging.bytes 0 0 0 []

/-- Where the scanout path puts the map. -/
def scanoutOffset : ℕ := ((p.frames.take p.paramAfter).map List.length).sum

end Parts

/-! ### The activation carriers -/

/-- The loop over the chunks of a carrier, from the chunk at `imageOff` on: the parts it pushes, and
whether the map is among what has been pushed. -/
def carrierParts (params : List α) (paramAt imageLen : ℕ) :
    List (List α) → ℕ → Bool → List (List α) × Bool
  | [], _, inserted => ([], inserted)
  | f :: fs, imageOff, inserted =>
      if imageLen ≤ imageOff then ([], inserted)
      else
        let n := min f.length (imageLen - imageOff)
        let split := min (paramAt - imageOff) n
        if !inserted && paramAt ≤ imageOff + n then
          let rest := carrierParts params paramAt imageLen fs (imageOff + n) true
          ((if split ≠ 0 then [f.take split] else []) ++ [params] ++
            (if split ≠ n then [(f.take n).drop split] else []) ++ rest.1, rest.2)
        else
          let rest := carrierParts params paramAt imageLen fs (imageOff + n) inserted
          ((if n ≠ 0 then [f.take n] else []) ++ rest.1, rest.2)

namespace Parts

variable (p : Parts α)

/-- Where a carrier's map goes. -/
def trainingOffset : ℕ := min navarroParamImageOffset p.imageLen

/-- `wire_parts`. -/
def wireParts : List (List α) :=
  let body := carrierParts p.params p.trainingOffset p.imageLen p.frames 0 p.params.isEmpty
  optionalPart p.arm ++ optionalPart p.opener ++ optionalPart p.report ++ body.1 ++
    (if !body.2 then [p.params] else []) ++ [p.trailer]

/-- One presentation by `submit_prompt_training`. -/
def submitTraining (accept : List (List α) → Bool) (staging : Staging α) :
    Option (List (List α) × Bool) :=
  transferLoop (fun i => p.wireParts[i]?) p.wireParts.length p.wireLen false accept
    staging.bytes 0 0 0 []

end Parts

/-! ### The cuts of a message -/

/-- The transfers of a message. -/
def cuts (splitTail : Bool) (wire : List α) : List (List α) :=
  if splitTail ∧ wire ≠ [] ∧ wire.length % bulkMaxPacket = 0 then
    (wire.take (wire.length - frameTailBytes)).toChunks videoXfer ++
      [wire.drop (wire.length - frameTailBytes)]
  else wire.toChunks videoXfer

theorem videoXfer_pos : 0 < videoXfer := by decide

theorem cuts_nil (splitTail : Bool) : cuts splitTail ([] : List α) = [] := by
  rw [cuts, if_neg (fun h => h.2.1 rfl), toChunks_eq_cut videoXfer_pos, cut_nil videoXfer_pos]

/-- A message of no more than one transfer, without a tail. -/
theorem toChunks_short {wire : List α} (hne : wire ≠ []) (hshort : wire.length ≤ videoXfer) :
    wire.toChunks videoXfer = [wire] := by
  rw [toChunks_eq_cut videoXfer_pos, cut_short hshort hne]

/-- **The first transfer, and what is behind it.** -/
theorem cuts_cons (splitTail : Bool) {wire : List α} (hne : wire ≠ []) :
    cuts splitTail wire = wire.take (dataLen splitTail wire.length) ::
      cuts splitTail (wire.drop (dataLen splitTail wire.length)) := by
  have hpos := List.length_pos_iff.2 hne
  by_cases htail : splitTail = true ∧ wire.length % bulkMaxPacket = 0
  · obtain ⟨rfl, hmod⟩ := htail
    unfold bulkMaxPacket at hmod
    have hcuts : cuts true wire = (wire.take (wire.length - frameTailBytes)).toChunks videoXfer ++
        [wire.drop (wire.length - frameTailBytes)] := if_pos ⟨rfl, hne, hmod⟩
    have hbody : wire.take (wire.length - frameTailBytes) ≠ [] := by
      rw [← List.length_pos_iff, List.length_take]
      unfold frameTailBytes
      omega
    rcases Nat.lt_or_ge videoXfer wire.length with hlong | hshort
    · -- a full transfer in front of the tail
      have hlen : dataLen true wire.length = videoXfer := by
        unfold dataLen
        unfold videoXfer at *
        simp only
        rw [if_neg (by omega)]
        omega
      unfold videoXfer at hlong
      have hrest : cuts true (wire.drop videoXfer) =
          ((wire.drop videoXfer).take ((wire.drop videoXfer).length - frameTailBytes)).toChunks
            videoXfer ++
          [(wire.drop videoXfer).drop ((wire.drop videoXfer).length - frameTailBytes)] := by
        refine if_pos ⟨rfl, ?_, ?_⟩
        · rw [← List.length_pos_iff, List.length_drop]
          unfold videoXfer
          omega
        · rw [List.length_drop]
          unfold videoXfer bulkMaxPacket
          omega
      rw [hlen, hcuts, hrest, toChunks_cons videoXfer_pos hbody, List.cons_append,
        List.length_drop, List.take_take, List.drop_take, List.drop_drop]
      unfold videoXfer frameTailBytes
      have hmin : min 65536 (wire.length - 16) = 65536 := by omega
      have hcomm : wire.length - 16 - 65536 = wire.length - 65536 - 16 := by omega
      have hsum : 65536 + (wire.length - 65536 - 16) = wire.length - 16 := by omega
      rw [hmin, hcomm, hsum]
    · -- the last transfer but one
      have hlen : dataLen true wire.length = wire.length - frameTailBytes := by
        unfold dataLen bulkMaxPacket
        simp only
        rw [if_pos ⟨trivial, by omega, by omega⟩]
        omega
      have hrest : cuts true (wire.drop (wire.length - frameTailBytes)) =
          [wire.drop (wire.length - frameTailBytes)] := by
        have hsixteen : (wire.drop (wire.length - frameTailBytes)).length = frameTailBytes := by
          rw [List.length_drop]
          unfold frameTailBytes
          omega
        rw [cuts, if_neg, toChunks_short]
        · rw [← List.length_pos_iff, hsixteen]
          decide
        · rw [hsixteen]
          decide
        · rw [hsixteen]
          rintro ⟨-, -, h⟩
          exact absurd h (by decide)
      rw [hlen, hcuts, hrest, toChunks_short hbody]
      · rfl
      · rw [List.length_take]
        omega
  · have hcuts : ∀ w : List α, w.length % bulkMaxPacket = wire.length % bulkMaxPacket ∨ w = [] →
        cuts splitTail w = w.toChunks videoXfer := by
      rintro w (hw | rfl)
      · exact if_neg fun h => htail ⟨h.1, hw ▸ h.2.2⟩
      · rw [cuts_nil, toChunks_eq_cut videoXfer_pos, cut_nil videoXfer_pos]
    have hlen : dataLen splitTail wire.length = min wire.length videoXfer := by
      refine if_neg fun h => htail ⟨h.1, ?_⟩
      rw [← h.2.1]
      exact h.2.2
    rw [hlen, hcuts wire (.inl rfl), toChunks_cons videoXfer_pos hne]
    rcases Nat.lt_or_ge videoXfer wire.length with hlong | hshort
    · rw [min_eq_right hlong.le, hcuts (wire.drop videoXfer) (.inl ?_)]
      rw [List.length_drop]
      unfold videoXfer bulkMaxPacket at *
      omega
    · rw [min_eq_left hshort, List.take_of_length_le hshort, List.drop_of_length_le hshort,
        List.take_length, List.drop_length, hcuts [] (.inr rfl)]

section Cuts

variable {splitTail : Bool} {wire t u : List α} {pre post : List (List α)}

theorem flatten_cuts (splitTail : Bool) (wire : List α) : (cuts splitTail wire).flatten = wire := by
  unfold cuts
  split
  · rw [List.flatten_append, flatten_toChunks videoXfer_pos, List.flatten_singleton,
      List.take_append_drop]
  · exact flatten_toChunks videoXfer_pos wire

/-- The tail of a message that ends on a full packet. -/
theorem length_tail (hne : wire ≠ []) (hmod : wire.length % bulkMaxPacket = 0) :
    (wire.drop (wire.length - frameTailBytes)).length = frameTailBytes := by
  have hpos := List.length_pos_iff.2 hne
  rw [List.length_drop]
  unfold bulkMaxPacket at hmod
  unfold frameTailBytes
  omega

theorem mem_cuts (h : t ∈ cuts splitTail wire) : t ≠ [] ∧ t.length ≤ videoXfer := by
  unfold cuts at h
  split at h
  · next htail =>
    rcases List.mem_append.1 h with hbody | hlast
    · exact ⟨mem_toChunks_ne_nil videoXfer_pos hbody, mem_toChunks_length videoXfer_pos hbody⟩
    · have hlen := length_tail htail.2.1 htail.2.2
      obtain rfl := List.mem_singleton.1 hlast
      rw [← List.length_pos_iff, hlen]
      decide
  · exact ⟨mem_toChunks_ne_nil videoXfer_pos h, mem_toChunks_length videoXfer_pos h⟩

/-- A transfer that is not the last is full, or a tail was split from it. -/
theorem cuts_full (h : cuts splitTail wire = pre ++ t :: u :: post) :
    t.length = videoXfer ∨ splitTail = true ∧ post = [] ∧ u.length = frameTailBytes := by
  unfold cuts at h
  split at h
  · next htail =>
    rcases List.eq_nil_or_concat post with rfl | ⟨post, x, rfl⟩
    · have happ : pre ++ [t, u] = pre ++ [t] ++ [u] := by simp
      rw [happ] at h
      obtain ⟨-, hlast⟩ := List.append_inj' h rfl
      refine .inr ⟨htail.1, rfl, ?_⟩
      rw [← List.singleton_inj.1 hlast]
      exact length_tail htail.2.1 htail.2.2
    · have happ : pre ++ t :: u :: post.concat x = pre ++ t :: u :: post ++ [x] := by simp
      rw [happ] at h
      obtain ⟨hbody, -⟩ := List.append_inj' h rfl
      exact .inl (toChunks_full videoXfer_pos hbody)
  · exact .inl (toChunks_full videoXfer_pos h)

/-- Without a tail, the last transfer ends on a full packet when the message does. -/
theorem toChunks_last_mod (h : wire.toChunks videoXfer = pre ++ [t]) :
    t.length % bulkMaxPacket = wire.length % bulkMaxPacket := by
  have hlen := toChunks_last videoXfer_pos h
  unfold videoXfer at hlen
  unfold bulkMaxPacket
  omega

/-- **With a tail split off, no message ends on a full packet.** -/
theorem cuts_short (h : cuts true wire = pre ++ [t]) : t.length % bulkMaxPacket ≠ 0 := by
  unfold cuts at h
  split at h
  · next htail =>
    obtain ⟨-, hlast⟩ := List.append_inj' h rfl
    rw [← List.singleton_inj.1 hlast, length_tail htail.2.1 htail.2.2]
    decide
  · next htail =>
    rw [toChunks_last_mod h]
    intro hmod
    refine htail ⟨rfl, ?_, hmod⟩
    rintro rfl
    rw [toChunks_eq_cut videoXfer_pos, cut_nil videoXfer_pos] at h
    simp at h

end Cuts

/-! ### The loop over the transfers -/

/-- What is submitted of a list of transfers, and whether all of it is. -/
def submitAll (accept : List (List α) → Bool) :
    List (List α) → List (List α) → List (List α) × Bool
  | sent, [] => (sent, true)
  | sent, t :: ts =>
      if accept (sent ++ [t]) then submitAll accept (sent ++ [t]) ts else (sent, false)

theorem submitAll_spec (accept : List (List α) → Bool) (ts : List (List α)) :
    ∀ sent, (submitAll accept sent ts).1 <+: sent ++ ts ∧
      ((submitAll accept sent ts).2 = true → (submitAll accept sent ts).1 = sent ++ ts) ∧
      ((∀ l, accept l = true) → (submitAll accept sent ts).2 = true) := by
  induction ts with
  | nil =>
    intro sent
    rw [List.append_nil]
    exact ⟨List.prefix_refl _, fun _ => rfl, fun _ => rfl⟩
  | cons t ts ih =>
    intro sent
    unfold submitAll
    split
    · have happ : sent ++ t :: ts = sent ++ [t] ++ ts := by simp
      rw [happ]
      exact ih (sent ++ [t])
    · next hrefused =>
      refine ⟨List.prefix_append _ _, fun hok => ?_, fun hall => absurd (hall _) hrefused⟩
      exact absurd hok Bool.false_ne_true

/-- **The loop submits the cuts of what the cursor has still to read**, whatever the staging
buffer held. -/
theorem transferLoop_spec {part : ℕ → Option (List α)} {ps : List (List α)} {wireLen : ℕ}
    (hpart : ∀ i < ps.length, part i = ps[i]?) (splitTail : Bool)
    (accept : List (List α) → Bool) (staging : List α) (wireOff i off : ℕ)
    (sent : List (List α)) {rest : List α} (hcur : Cursor ps i off rest)
    (hstaging : staging.length = videoXfer) (hrest : wireOff + rest.length = wireLen) :
    transferLoop part ps.length wireLen splitTail accept staging wireOff i off sent =
      some (submitAll accept sent (cuts splitTail rest)) := by
  unfold transferLoop
  split
  · next hmore =>
    have hne : rest ≠ [] := by
      rintro rfl
      rw [List.length_nil] at hrest
      omega
    have hlen : wireLen - wireOff = rest.length := by omega
    rw [hlen]
    obtain ⟨hle, hfit⟩ := dataLen_le splitTail rest.length
    have hpos := dataLen_pos splitTail (List.length_pos_iff.2 hne)
    obtain ⟨n, hn⟩ : ∃ n, dataLen splitTail rest.length = n := ⟨_, rfl⟩
    have hcuts := cuts_cons splitTail hne
    rw [hn] at hle hfit hpos hcuts
    have htake : (staging.take n).length = n := by
      rw [List.length_take]
      omega
    obtain ⟨i', off', hrun, hcur'⟩ := gather_spec hpart (staging.take n) 0 i off hcur
      (Nat.zero_le _) (by omega)
    rw [htake, Nat.sub_zero, List.take_zero, List.nil_append] at hrun
    rw [htake, Nat.sub_zero] at hcur'
    simp only [hn, hrun, if_neg (Nat.not_lt.2 (hfit.trans_eq hstaging.symm))]
    rw [hcuts, submitAll]
    split
    · refine transferLoop_spec hpart splitTail accept _ (wireOff + n) i' off' _ hcur' ?_ ?_
      · rw [List.length_append, List.length_take, List.length_drop]
        omega
      · rw [List.length_drop]
        omega
    · rfl
  · next hdone =>
    have hnil : rest = [] := List.length_eq_zero_iff.1 (by omega)
    rw [hnil, cuts_nil]
    rfl
termination_by wireLen - wireOff

/-! ### The parts make up the presentation -/

theorem length_optionalPart (part : List α) : (optionalPart part).length = partsOf part := by
  unfold optionalPart partsOf
  split <;> rfl

theorem flatten_optionalPart (part : List α) : (optionalPart part).flatten = part := by
  unfold optionalPart
  split
  · next h => exact (List.isEmpty_iff.1 h).symm
  · exact List.flatten_singleton

theorem optionalPart_getElem? {part : List α} {i : ℕ} (h : i < partsOf part) :
    (optionalPart part)[i]? = some part := by
  unfold partsOf at h
  unfold optionalPart
  split at h
  · omega
  · next hne =>
    rw [if_neg hne, show i = 0 by omega]
    rfl

namespace Parts

variable (p : Parts α)

theorem length_image : p.image.length = p.imageLen := by
  rw [image, List.length_flatten, imageLen]

theorem length_message (offset : ℕ) : (p.message offset).length = p.wireLen := by
  have himage : (p.image.take offset).length + (p.image.drop offset).length = p.imageLen := by
    rw [← List.length_append, List.take_append_drop, length_image]
  simp only [message, List.length_append, wireLen]
  omega

theorem paramAfter_le : p.paramAfter ≤ p.frames.length := by
  unfold paramAfter paramMapChunkSplit
  split
  · exact le_rfl
  · exact min_le_right _ _

/-- The parts of the scanout path, in their order. -/
def scanoutParts : List (List α) :=
  optionalPart p.arm ++ (optionalPart p.opener ++ (optionalPart p.report ++
    (p.frames.take p.paramAfter ++ (optionalPart p.params ++
      (p.frames.drop p.paramAfter ++ [p.trailer])))))

theorem length_scanoutParts : p.scanoutParts.length = p.scanoutPartCount := by
  have hle := p.paramAfter_le
  simp only [scanoutParts, scanoutPartCount, List.length_append, length_optionalPart,
    List.length_take, List.length_drop, List.length_singleton]
  omega

/-- **The index arithmetic of the scanout path finds every part in its place.** -/
theorem scanoutPart_eq {i : ℕ} (hi : i < p.scanoutParts.length) :
    p.scanoutPart i = p.scanoutParts[i]? := by
  have hle := p.paramAfter_le
  rw [length_scanoutParts, scanoutPartCount] at hi
  have htake : (p.frames.take p.paramAfter).length = p.paramAfter := by
    rw [List.length_take]
    omega
  unfold scanoutPart scanoutParts
  simp only
  split_ifs with harm hopener hreport hlead hparams hbehind
  · rw [List.getElem?_append_left (by rwa [length_optionalPart]), optionalPart_getElem? harm]
  all_goals rw [List.getElem?_append_right (by rw [length_optionalPart]; omega),
    length_optionalPart]
  · rw [List.getElem?_append_left (by rw [length_optionalPart]; omega),
      optionalPart_getElem? (by omega)]
  all_goals rw [List.getElem?_append_right (by rw [length_optionalPart]; omega),
    length_optionalPart]
  · rw [List.getElem?_append_left (by rw [length_optionalPart]; omega),
      optionalPart_getElem? (by omega)]
  all_goals rw [List.getElem?_append_right (by rw [length_optionalPart]; omega),
    length_optionalPart]
  · rw [List.getElem?_append_left (by rw [htake]; omega), List.getElem?_take_of_lt (by omega)]
    congr 1
    omega
  all_goals rw [List.getElem?_append_right (by rw [htake]; omega), htake]
  · rw [List.getElem?_append_left (by rw [length_optionalPart]; omega),
      optionalPart_getElem? (by omega)]
  all_goals rw [List.getElem?_append_right (by rw [length_optionalPart]; omega),
    length_optionalPart]
  · rw [List.getElem?_append_left (by rw [List.length_drop]; omega), List.getElem?_drop]
    congr 1
    omega
  · rw [List.getElem?_append_right (by rw [List.length_drop]; omega), List.length_drop]
    have hzero : i - partsOf p.arm - partsOf p.opener - partsOf p.report - p.paramAfter -
        partsOf p.params - (p.frames.length - p.paramAfter) = 0 := by omega
    rw [hzero]
    rfl

theorem flatten_scanoutParts : p.scanoutParts.flatten = p.message p.scanoutOffset := by
  have htake : p.image.take p.scanoutOffset = (p.frames.take p.paramAfter).flatten := by
    rw [image, scanoutOffset, List.map_take, List.take_sum_flatten]
  have hdrop : p.image.drop p.scanoutOffset = (p.frames.drop p.paramAfter).flatten := by
    rw [image, scanoutOffset, List.map_take, List.drop_sum_flatten]
  simp only [scanoutParts, message, htake, hdrop, List.flatten_append, flatten_optionalPart,
    List.flatten_singleton, List.append_assoc]

/-- The scanout path's map is between two chunks. -/
theorem recordBoundary_scanoutOffset : p.RecordBoundary p.scanoutOffset := by
  refine ⟨(p.chunks.take p.paramAfter).flatten, (p.chunks.drop p.paramAfter).flatten, ?_, ?_⟩
  · rw [← List.flatten_append, List.take_append_drop]
  · rw [List.flatten_flatten, List.length_flatten, scanoutOffset, frames, List.map_take]

end Parts

/-! ### The carriers -/

section Carriers

variable (params : List α) (paramAt imageLen : ℕ)

/-- A chunk that is pushed whole, if it is not empty. -/
theorem flatten_pushed (f : List α) {n : ℕ} (hn : n = f.length) :
    (if n ≠ 0 then [f.take n] else []).flatten = f := by
  subst hn
  split
  · rw [List.flatten_singleton, List.take_length]
  · next h => exact (List.length_eq_zero_iff.1 (not_not.1 h)).symm

theorem flatten_eq_nil_of_sum {fs : List (List α)} (h : (fs.map List.length).sum = 0) :
    fs.flatten = [] :=
  List.length_eq_zero_iff.1 (by rw [List.length_flatten, h])

/-- Behind the map, the chunks are pushed as they are. -/
theorem carrierParts_inserted (fs : List (List α)) :
    ∀ off, off + (fs.map List.length).sum = imageLen →
      (carrierParts params paramAt imageLen fs off true).1.flatten = fs.flatten ∧
        (carrierParts params paramAt imageLen fs off true).2 = true := by
  induction fs with
  | nil => exact fun _ _ => ⟨rfl, rfl⟩
  | cons f fs ih =>
    intro off hsum
    rw [List.map_cons, List.sum_cons] at hsum
    unfold carrierParts
    split
    · have hnil : (f :: fs).flatten = [] := flatten_eq_nil_of_sum (by
        rw [List.map_cons, List.sum_cons]
        omega)
      exact ⟨hnil.symm, rfl⟩
    · have hn : min f.length (imageLen - off) = f.length := by omega
      obtain ⟨hrest, hins⟩ := ih (off + f.length) (by omega)
      simp only [hn, Bool.not_true, Bool.false_and, Bool.false_eq_true, if_false]
      rw [List.flatten_append, flatten_pushed f rfl, hrest, List.flatten_cons]
      exact ⟨rfl, hins⟩

/-- In front of the map, it is pushed at its offset, or still owed at the end. -/
theorem carrierParts_pending (hat : paramAt ≤ imageLen) (fs : List (List α)) :
    ∀ off, off ≤ paramAt → off + (fs.map List.length).sum = imageLen →
      (carrierParts params paramAt imageLen fs off false).1.flatten ++
          (if !(carrierParts params paramAt imageLen fs off false).2 then params else []) =
        fs.flatten.take (paramAt - off) ++ params ++ fs.flatten.drop (paramAt - off) := by
  induction fs with
  | nil =>
    intro off hoff hsum
    simp [carrierParts]
  | cons f fs ih =>
    intro off hoff hsum
    rw [List.map_cons, List.sum_cons] at hsum
    unfold carrierParts
    split
    · have hnil : (f :: fs).flatten = [] := flatten_eq_nil_of_sum (by
        rw [List.map_cons, List.sum_cons]
        omega)
      rw [hnil]
      simp
    · have hn : min f.length (imageLen - off) = f.length := by omega
      simp only [hn, Bool.not_false, Bool.true_and, decide_eq_true_eq]
      split
      · next hin =>
        obtain ⟨hrest, hins⟩ := carrierParts_inserted params paramAt imageLen fs
          (off + f.length) (by omega)
        have hsplit : min (paramAt - off) f.length = paramAt - off := by omega
        have hfront : (if paramAt - off ≠ 0 then [f.take (paramAt - off)] else []).flatten =
            f.take (paramAt - off) := by
          split
          · exact List.flatten_singleton
          · next h =>
            rw [not_not.1 h]
            rfl
        have hback : (if paramAt - off ≠ f.length then
            [(f.take f.length).drop (paramAt - off)] else []).flatten = f.drop (paramAt - off) := by
          split
          · rw [List.flatten_singleton, List.take_length]
          · next h =>
            rw [not_not.1 h, List.drop_length]
            rfl
        simp only [hsplit, hins, List.flatten_append, hfront, hback, hrest, List.flatten_cons]
        rw [List.take_append_of_le_length (by omega), List.drop_append_of_le_length (by omega)]
        simp
      · next hin =>
        have hrest := ih (off + f.length) (by omega) (by omega)
        rw [List.flatten_append, flatten_pushed f rfl, List.append_assoc, hrest, List.flatten_cons]
        have hat' : paramAt - off = f.length + (paramAt - (off + f.length)) := by omega
        rw [hat', List.take_length_add_append, List.drop_length_add_append]
        simp only [List.append_assoc]

end Carriers

namespace Parts

variable (p : Parts α)

theorem flatten_wireParts : p.wireParts.flatten = p.message p.trainingOffset := by
  have hsum : 0 + (p.frames.map List.length).sum = p.imageLen := Nat.zero_add _
  have hbody : (carrierParts p.params p.trainingOffset p.imageLen p.frames 0
        p.params.isEmpty).1.flatten ++
      (if !(carrierParts p.params p.trainingOffset p.imageLen p.frames 0
        p.params.isEmpty).2 then [p.params] else []).flatten =
      p.image.take p.trainingOffset ++ p.params ++ p.image.drop p.trainingOffset := by
    cases hempty : p.params.isEmpty with
    | true =>
      obtain ⟨hflat, hins⟩ := carrierParts_inserted p.params p.trainingOffset p.imageLen p.frames
        0 hsum
      rw [hflat, hins, List.isEmpty_iff.1 hempty]
      simp [image]
    | false =>
      have hpend := carrierParts_pending p.params p.trainingOffset p.imageLen (min_le_right _ _)
        p.frames 0 (Nat.zero_le _) hsum
      rw [Nat.sub_zero] at hpend
      rw [image, ← hpend]
      split <;> simp
  simp only [wireParts, message, List.flatten_append, flatten_optionalPart, List.flatten_singleton]
  rw [← hbody]
  simp only [List.append_assoc]

end Parts

/-! ### What a presentation submits -/

/-- The transfers a path submits: all of them when the queue takes them, and otherwise the first of
them up to the one it refuses. -/
def Submits (path : (List (List α) → Bool) → Staging α → Option (List (List α) × Bool))
    (ts : List (List α)) : Prop :=
  ∀ accept staging, ∃ sent ok, path accept staging = some (sent, ok) ∧ sent <+: ts ∧
    (ok = true → sent = ts) ∧ ((∀ l, accept l = true) → ok = true)

/-- The transfers carry the presentation, with the map at an offset of the image where a record
ends; they are as long as they can be, but for the last and the one that a tail is split from; and
none ends a frame on a full packet where the dock needs a short one. -/
structure Presented (p : Parts α) (splitFullPacketFrame : Bool) (offset : ℕ)
    (ts : List (List α)) : Prop where
  bytes : ts.flatten = p.message offset
  boundary : p.params ≠ [] → p.RecordBoundary offset
  bounded : ∀ t ∈ ts, t ≠ [] ∧ t.length ≤ videoXfer
  full : ∀ (pre : List (List α)) (t u : List α) (post : List (List α)),
    ts = pre ++ t :: u :: post →
      t.length = videoXfer ∨
        splitFullPacketFrame = true ∧ post = [] ∧ u.length = frameTailBytes
  short : splitFullPacketFrame = true →
    ∀ (pre : List (List α)) (t : List α), ts = pre ++ [t] → t.length % bulkMaxPacket ≠ 0

/-- A path that runs the loop over parts that make up a message submits the cuts of it. -/
theorem submits_cuts {part : ℕ → Option (List α)} {ps : List (List α)} {wireLen : ℕ}
    (splitTail : Bool) (hpart : ∀ i < ps.length, part i = ps[i]?)
    (hlen : ps.flatten.length = wireLen) :
    Submits (fun accept staging => transferLoop part ps.length wireLen splitTail accept
      staging.bytes 0 0 0 []) (cuts splitTail ps.flatten) := by
  intro accept staging
  obtain ⟨hfront, hall, hok⟩ := submitAll_spec accept (cuts splitTail ps.flatten) []
  refine ⟨_, _, transferLoop_spec hpart splitTail accept staging.bytes 0 0 0 [] (cursor_start ps)
    staging.length_eq (by omega), hfront, hall, hok⟩

/-- What a path submits is determined. -/
theorem Submits.unique {path : (List (List α) → Bool) → Staging α → Option (List (List α) × Bool)}
    {ts us : List (List α)} (ht : Submits path ts) (hu : Submits path us) (staging : Staging α) :
    ts = us := by
  obtain ⟨sent, ok, hrun, -, hsent, hok⟩ := ht (fun _ => true) staging
  obtain ⟨sent', ok', hrun', -, hsent', hok'⟩ := hu (fun _ => true) staging
  rw [hrun] at hrun'
  obtain ⟨rfl, rfl⟩ := Prod.mk.inj (Option.some.inj hrun')
  exact (hsent (hok fun _ => rfl)).symm.trans (hsent' (hok' fun _ => rfl))

variable (p : Parts α)

theorem submitScanout_submits (splitFullPacketFrame : Bool) :
    Submits (p.submitScanout splitFullPacketFrame)
      (cuts splitFullPacketFrame (p.message p.scanoutOffset)) := by
  have hlen : p.scanoutParts.flatten.length = p.wireLen := by
    rw [p.flatten_scanoutParts, p.length_message]
  have hsubmits := submits_cuts splitFullPacketFrame (fun _ hi => p.scanoutPart_eq hi) hlen
  rwa [p.flatten_scanoutParts, p.length_scanoutParts] at hsubmits

theorem submitTraining_submits :
    Submits p.submitTraining (cuts false (p.message p.trainingOffset)) := by
  have hlen : p.wireParts.flatten.length = p.wireLen := by
    rw [p.flatten_wireParts, p.length_message]
  have hsubmits := submits_cuts false (fun _ _ => rfl) hlen
  rwa [p.flatten_wireParts] at hsubmits

theorem presented_scanout (splitFullPacketFrame : Bool) :
    Presented p splitFullPacketFrame p.scanoutOffset
      (cuts splitFullPacketFrame (p.message p.scanoutOffset)) where
  bytes := flatten_cuts _ _
  boundary := fun _ => p.recordBoundary_scanoutOffset
  bounded := fun _ h => mem_cuts h
  full := fun _ _ _ _ h => cuts_full h
  short := by
    rintro rfl pre t h
    exact cuts_short h

/-- A carrier's transfers end on a full packet exactly when the carrier does. -/
theorem presented_training_iff (splitFullPacketFrame : Bool) :
    Presented p splitFullPacketFrame p.trainingOffset (cuts false (p.message p.trainingOffset)) ↔
      (p.params ≠ [] → p.RecordBoundary p.trainingOffset) ∧
        (splitFullPacketFrame = true → p.wireLen = 0 ∨ p.wireLen % bulkMaxPacket ≠ 0) := by
  have hcuts : cuts false (p.message p.trainingOffset) =
      (p.message p.trainingOffset).toChunks videoXfer := if_neg fun h => Bool.false_ne_true h.1
  constructor
  · intro h
    refine ⟨h.boundary, fun hsplit => ?_⟩
    rcases List.eq_nil_or_concat (cuts false (p.message p.trainingOffset)) with
      hnil | ⟨pre, t, hlast⟩
    · left
      have hbytes := h.bytes
      rw [hnil, List.flatten_nil] at hbytes
      rw [← p.length_message p.trainingOffset, ← hbytes, List.length_nil]
    · right
      rw [List.concat_eq_append] at hlast
      have hshort := h.short hsplit pre t hlast
      rw [hcuts] at hlast
      rwa [toChunks_last_mod hlast, p.length_message] at hshort
  · rintro ⟨hboundary, hwire⟩
    refine ⟨flatten_cuts _ _, hboundary, fun _ h => mem_cuts h, fun _ _ _ _ h => ?_, ?_⟩
    · exact .inl ((cuts_full h).resolve_right fun h => Bool.false_ne_true h.1)
    · intro hsplit pre t hlast
      rw [hcuts] at hlast
      rw [toChunks_last_mod hlast, p.length_message]
      refine (hwire hsplit).resolve_left fun hzero => ?_
      have hnil : p.message p.trainingOffset = [] :=
        List.length_eq_zero_iff.1 (by rw [p.length_message, hzero])
      rw [hnil, toChunks_eq_cut videoXfer_pos, cut_nil videoXfer_pos] at hlast
      simp at hlast

/-- What the carriers' path submits, and when it is as it should be. -/
theorem training_iff (p : Parts UInt8) (splitFullPacketFrame : Bool) :
    (∃ ts, Submits p.submitTraining ts ∧
        Presented p splitFullPacketFrame p.trainingOffset ts) ↔
      (p.params ≠ [] → p.RecordBoundary p.trainingOffset) ∧
        (splitFullPacketFrame = true → p.wireLen = 0 ∨ p.wireLen % bulkMaxPacket ≠ 0) := by
  rw [← presented_training_iff]
  constructor
  · rintro ⟨ts, hsubmits, hpresented⟩
    have hstaging : Staging UInt8 := ⟨List.replicate videoXfer 0, List.length_replicate⟩
    rwa [← hsubmits.unique (submitTraining_submits p) hstaging]
  · exact fun h => ⟨_, submitTraining_submits p, h⟩

/-- **Frame assembly.**  The scanout path submits what it should for every presentation.  The path
of the activation carriers does exactly when the map's offset is where a record ends and, for a
dock that needs a short packet, the carrier does not end on a full one. -/
theorem assembly_iff (p : Parts UInt8) (splitFullPacketFrame : Bool) :
    (∃ ts, Submits (p.submitScanout splitFullPacketFrame) ts ∧
      Presented p splitFullPacketFrame p.scanoutOffset ts) ∧
    ((∃ ts, Submits p.submitTraining ts ∧
        Presented p splitFullPacketFrame p.trainingOffset ts) ↔
      (p.params ≠ [] → p.RecordBoundary p.trainingOffset) ∧
        (splitFullPacketFrame = true → p.wireLen = 0 ∨ p.wireLen % bulkMaxPacket ≠ 0)) :=
  ⟨⟨_, submitScanout_submits p splitFullPacketFrame, presented_scanout p _⟩,
    training_iff p splitFullPacketFrame⟩

/-- A carrier of `n` records of one size, all in one chunk. -/
def carrier (n size : ℕ) (params : List UInt8) : Parts UInt8 where
  arm := []
  opener := []
  report := []
  chunks := [List.replicate n (List.replicate size 0)]
  params := params
  trailer := List.replicate 16 0

theorem imageLen_carrier (n size : ℕ) (params : List UInt8) :
    (carrier n size params).imageLen = n * size := by
  simp [carrier, Parts.imageLen, Parts.frames]

theorem wireLen_carrier (n size : ℕ) (params : List UInt8) :
    (carrier n size params).wireLen = params.length + n * size + 16 := by
  rw [Parts.wireLen, imageLen_carrier]
  simp [carrier]

/-- The records of such a carrier end at the multiples of their size. -/
theorem dvd_of_recordBoundary_carrier {n size offset : ℕ} {params : List UInt8}
    (h : (carrier n size params).RecordBoundary offset) : size ∣ offset := by
  obtain ⟨before, behind, happ, rfl⟩ := h
  have hrecords : (carrier n size params).chunks.flatten =
      List.replicate n (List.replicate size 0) := List.flatten_singleton
  have hbefore : before = List.replicate before.length (List.replicate size 0) := by
    refine List.eq_replicate_of_mem fun r hr => ?_
    have hmem : r ∈ (carrier n size params).chunks.flatten :=
      happ ▸ List.mem_append_left _ hr
    rw [hrecords] at hmem
    exact List.eq_of_mem_replicate hmem
  rw [hbefore]
  simp

/-- **The carriers' path breaks the promise**: a carrier of 1024 bytes ends on a full packet on a
dock that needs a short one, and the map of one with records of 4000 bytes is put into the middle
of a record. -/
theorem carrier_ends_on_full_packet :
    (¬ ∃ ts, Submits (carrier 1 1008 []).submitTraining ts ∧
      Presented (carrier 1 1008 []) true (carrier 1 1008 []).trainingOffset ts) ∧
    ¬ ∃ ts, Submits (carrier 30 4000 [1]).submitTraining ts ∧
      Presented (carrier 30 4000 [1]) false (carrier 30 4000 [1]).trainingOffset ts := by
  constructor
  · rw [training_iff, wireLen_carrier]
    rintro ⟨-, hwire⟩
    exact absurd (hwire rfl) (by decide)
  · rw [training_iff, Parts.trainingOffset, imageLen_carrier]
    rintro ⟨hboundary, -⟩
    have hdvd := dvd_of_recordBoundary_carrier (hboundary (List.cons_ne_nil 1 []))
    exact absurd hdvd (by decide)

end Vino.Kms.Assembly
