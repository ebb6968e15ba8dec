import Vino.Cp.Messages
import Vino.Lib.Calendar
import Vino.Lib.Checked

/-!
# Setting the Dock's Clock

A DL7400 is told the local time as a broken-down date, which the host computes from the seconds of
its own clock: days since an epoch, 400-year eras, years that start in March, months.  The shift
that finds the era of a negative day belongs to a division that truncates, and the division used
here does not, so the eras before the year zero are found one too early.

* `civilFromDays_succeeds`: no step of the conversion overflows,
* `exists_civil`: a day whose era is found is converted to its date,
* `converts_next`: in sixty days of the year zero it is converted to the date after,
* `statesTime_iff`: the message states the local time outside those sixty days, and only there.
-/

namespace Vino.Cp.RtcSync

open Vino.Cp.Messages Vino.Haar.Records Vino.Lib.Bits Vino.Lib.Calendar Vino.Lib.Checked

/-! ### The message -/

/-- Addition that stays within a signed 64-bit word. -/
def saturatingAdd64 (a b : ℤ) : ℤ := max (-9223372036854775808) (min (a + b) 9223372036854775807)

/-- The Gregorian year, month and day from days since 1970-01-01. -/
def civilFromDays (days : ℤ) : Option (ℤ × ℤ × ℤ) := do
  let z ← add64 days 719468
  let shifted ← (if 0 ≤ z then some z else sub64 z 146096)
  let era := shifted / 146097
  let doe ← sub64 z (← mul64 era 146097)
  let counted ← sub64 doe (doe.tdiv 1460)
  let counted ← add64 counted (doe.tdiv 36524)
  let counted ← sub64 counted (doe.tdiv 146096)
  let yoe := counted.tdiv 365
  let year ← add64 yoe (← mul64 era 400)
  let before ← add64 (← mul64 365 yoe) (yoe.tdiv 4)
  let before ← sub64 before (yoe.tdiv 100)
  let doyMarch ← sub64 doe before
  let mp := (← add64 (← mul64 5 doyMarch) 2).tdiv 153
  let monthDays := (← add64 (← mul64 153 mp) 2).tdiv 5
  let day ← add64 (← sub64 doyMarch monthDays) 1
  let month ← add64 mp (if mp < 10 then 3 else -9)
  let year ← (if month ≤ 2 then add64 year 1 else some year)
  return (year, month, day)

/-- An unsigned 16-bit sum or difference, if it is representable. -/
def u16 (x : ℤ) : Option ℤ := if 0 ≤ x ∧ x ≤ 65535 then some x else none

/-- The zero-based day of the year. -/
def ydayOf (year month day : ℤ) : Option ℤ := do
  let leap := year.tmod 4 = 0 ∧ (year.tmod 100 ≠ 0 ∨ year.tmod 400 = 0)
  let index ← sub64 month 1
  let start ← (if 0 ≤ index then monthStarts[index.toNat]? else none)
  let yday ← u16 (start + (UInt16.ofInt day).toNat)
  let yday ← u16 (yday - 1)
  if leap ∧ 2 < month then u16 (yday + 1) else return yday

/-- Real-time-clock synchronization: the broken-down local time in ten bytes at offset 22. -/
def rtcSyncReq (counter : UInt16) (unixSeconds utcOffsetMinutes : ℤ) :
    Option (Except Errno (List UInt8)) := do
  let seconds := saturatingAdd64 unixSeconds (← mul64 utcOffsetMinutes 60)
  let days := seconds / 86400
  let secondOfDay := seconds % 86400
  let (year, month, day) ← civilFromDays days
  if year < 0 ∨ 65535 < year then return .error .EINVAL
  let yday ← ydayOf year month day
  let weekday := (← add64 days 4) % 7
  return .ok (message 0x001e 0x0094 counter (u16Bytes (UInt16.ofInt year) ++
    [UInt8.ofInt month, UInt8.ofInt day, UInt8.ofInt (secondOfDay.tdiv 3600),
      UInt8.ofInt ((secondOfDay.tmod 3600).tdiv 60), UInt8.ofInt (secondOfDay.tmod 60),
      UInt8.ofInt weekday] ++ u16Bytes (UInt16.ofInt yday)))

/-! ### The steps of the conversion -/

def eraOf (z : ℤ) : ℤ := (if 0 ≤ z then z else z - 146096) / 146097

def doeOf (z : ℤ) : ℤ := z - eraOf z * 146097

def yoeOf (doe : ℤ) : ℤ := (doe - doe.tdiv 1460 + doe.tdiv 36524 - doe.tdiv 146096).tdiv 365

def doyOf (doe : ℤ) : ℤ := doe - (365 * yoeOf doe + (yoeOf doe).tdiv 4 - (yoeOf doe).tdiv 100)

def mpOf (doy : ℤ) : ℤ := (5 * doy + 2).tdiv 153

def dayOf (doy : ℤ) : ℤ := doy - (153 * mpOf doy + 2).tdiv 5 + 1

def monthOf (doy : ℤ) : ℤ := mpOf doy + if mpOf doy < 10 then 3 else -9

def yearOf (z : ℤ) : ℤ :=
  let year := yoeOf (doeOf z) + eraOf z * 400
  if monthOf (doyOf (doeOf z)) ≤ 2 then year + 1 else year

theorem doeOf_range (z : ℤ) : 0 ≤ doeOf z ∧ doeOf z ≤ 292192 := by
  unfold doeOf eraOf
  split_ifs <;> omega

theorem yoeOf_eq {doe : ℤ} (h : 0 ≤ doe) :
    yoeOf doe = (doe - doe / 1460 + doe / 36524 - doe / 146096) / 365 := by
  rw [yoeOf, Int.tdiv_eq_ediv_of_nonneg h, Int.tdiv_eq_ediv_of_nonneg h,
    Int.tdiv_eq_ediv_of_nonneg h, Int.tdiv_eq_ediv_of_nonneg (by omega)]

theorem yoeOf_range {doe : ℤ} (h : 0 ≤ doe) (hle : doe ≤ 292192) :
    0 ≤ yoeOf doe ∧ yoeOf doe ≤ 800 := by
  rw [yoeOf_eq h]
  omega

theorem doyOf_eq {doe : ℤ} (h : 0 ≤ doe) (hle : doe ≤ 292192) :
    doyOf doe = doe - (365 * yoeOf doe + yoeOf doe / 4 - yoeOf doe / 100) := by
  have hyoe := (yoeOf_range h hle).1
  rw [doyOf, Int.tdiv_eq_ediv_of_nonneg hyoe, Int.tdiv_eq_ediv_of_nonneg hyoe]

theorem doyOf_range {doe : ℤ} (h : 0 ≤ doe) (hle : doe ≤ 292192) :
    -20 ≤ doyOf doe ∧ doyOf doe ≤ 400 := by
  have hyoe := yoeOf_eq h
  rw [doyOf_eq h hle]
  omega

theorem mpOf_range {doy : ℤ} (h : -20 ≤ doy) (hle : doy ≤ 400) : 0 ≤ mpOf doy ∧ mpOf doy ≤ 13 := by
  unfold mpOf
  rcases lt_or_ge (5 * doy + 2) 0 with hneg | hpos
  · have hzero : (5 * doy + 2).tdiv 153 = 0 := by
      rw [show 5 * doy + 2 = -(-(5 * doy + 2)) by omega, Int.neg_tdiv,
        Int.tdiv_eq_zero_of_lt (by omega) (by omega), Int.neg_zero]
    omega
  · rw [Int.tdiv_eq_ediv_of_nonneg hpos]
    omega

/-- **No step of the conversion overflows.** -/
theorem civilFromDays_succeeds {days : ℤ} (hlow : -200000000000000 ≤ days)
    (hhigh : days ≤ 200000000000000) :
    Succeeds (civilFromDays days) (· = (yearOf (days + 719468),
      monthOf (doyOf (doeOf (days + 719468))), dayOf (doyOf (doeOf (days + 719468))))) := by
  generalize hz : days + 719468 = z
  obtain ⟨doe, hdoe⟩ : ∃ doe, doeOf z = doe := ⟨_, rfl⟩
  obtain ⟨yoe, hyoe⟩ : ∃ yoe, yoeOf doe = yoe := ⟨_, rfl⟩
  obtain ⟨doy, hdoy⟩ : ∃ doy, doyOf doe = doy := ⟨_, rfl⟩
  obtain ⟨mp, hmp⟩ : ∃ mp, mpOf doy = mp := ⟨_, rfl⟩
  have hdoeR : 0 ≤ doe ∧ doe ≤ 292192 := hdoe ▸ doeOf_range z
  have hyoeR : 0 ≤ yoe ∧ yoe ≤ 800 := hyoe ▸ yoeOf_range hdoeR.1 hdoeR.2
  have hdoyR : -20 ≤ doy ∧ doy ≤ 400 := hdoy ▸ doyOf_range hdoeR.1 hdoeR.2
  have hmpR : 0 ≤ mp ∧ mp ≤ 13 := hmp ▸ mpOf_range hdoyR.1 hdoyR.2
  have hera : z - eraOf z * 146097 = doe := hdoe
  have hquarter : doe.tdiv 1460 = doe / 1460 := Int.tdiv_eq_ediv_of_nonneg hdoeR.1
  have hcentury : doe.tdiv 36524 = doe / 36524 := Int.tdiv_eq_ediv_of_nonneg hdoeR.1
  have hlast : doe.tdiv 146096 = doe / 146096 := Int.tdiv_eq_ediv_of_nonneg hdoeR.1
  have hyoe4 : yoe.tdiv 4 = yoe / 4 := Int.tdiv_eq_ediv_of_nonneg hyoeR.1
  have hyoe100 : yoe.tdiv 100 = yoe / 100 := Int.tdiv_eq_ediv_of_nonneg hyoeR.1
  have hmonths : (153 * mp + 2).tdiv 5 = (153 * mp + 2) / 5 :=
    Int.tdiv_eq_ediv_of_nonneg (by omega)
  have hshift : Succeeds (if 0 ≤ z then some z else sub64 z 146096)
      (· = if 0 ≤ z then z else z - 146096) := by
    split_ifs
    · exact .some rfl
    · exact succeeds_sub64 ⟨by omega, by omega⟩
  have hyear : Succeeds (if monthOf doy ≤ 2 then add64 (yoe + eraOf z * 400) 1
      else some (yoe + eraOf z * 400)) (· = yearOf z) := by
    unfold yearOf
    dsimp only
    rw [hdoe, hyoe, hdoy]
    split_ifs
    · exact succeeds_add64 ⟨by omega, by omega⟩
    · exact .some rfl
  unfold civilFromDays
  refine Succeeds.seq (a := z) (hz ▸ succeeds_add64 ⟨by omega, by omega⟩) (hshift.seq ?_)
  refine (succeeds_mul64 (a := eraOf z) ⟨by omega, by omega⟩).seq ?_
  refine Succeeds.seq (a := doe) (hera ▸ succeeds_sub64 ⟨by omega, by omega⟩) ?_
  refine (succeeds_sub64 ⟨by omega, by omega⟩).seq ?_
  refine (succeeds_add64 ⟨by omega, by omega⟩).seq ?_
  refine (succeeds_sub64 ⟨by omega, by omega⟩).seq ?_
  rw [show (doe - doe.tdiv 1460 + doe.tdiv 36524 - doe.tdiv 146096).tdiv 365 = yoe from hyoe]
  refine (succeeds_mul64 (a := eraOf z) ⟨by omega, by omega⟩).seq ?_
  refine (succeeds_add64 ⟨by omega, by omega⟩).seq ?_
  refine (succeeds_mul64 ⟨by omega, by omega⟩).seq ?_
  refine (succeeds_add64 ⟨by omega, by omega⟩).seq ?_
  refine (succeeds_sub64 ⟨by omega, by omega⟩).seq ?_
  have hdoy' : doe - (365 * yoe + yoe.tdiv 4 - yoe.tdiv 100) = doy := by
    rw [← hdoy, ← hyoe]; rfl
  refine Succeeds.seq (a := doy) (hdoy' ▸ succeeds_sub64 ⟨by omega, by omega⟩) ?_
  refine (succeeds_mul64 ⟨by omega, by omega⟩).seq ?_
  refine (succeeds_add64 ⟨by omega, by omega⟩).seq ?_
  rw [show (5 * doy + 2).tdiv 153 = mp from hmp]
  refine (succeeds_mul64 ⟨by omega, by omega⟩).seq ?_
  refine (succeeds_add64 ⟨by omega, by omega⟩).seq ?_
  refine (succeeds_sub64 ⟨by omega, by omega⟩).seq ?_
  refine (succeeds_add64 ⟨by omega, by omega⟩).seq ?_
  refine Succeeds.seq (a := monthOf doy) ?_ (hyear.seq (.some ?_))
  · have hsum : monthOf doy = mp + if mp < 10 then 3 else -9 := by rw [monthOf, hmp]
    rw [hsum]
    exact succeeds_add64 (by split_ifs <;> exact ⟨by omega, by omega⟩)
  · rw [hdoe, hdoy, dayOf, hmp]

/-! ### Where a day stands in its era -/

/-- A day of a 400-year era is a day of a year that starts in March; only a leap year has a day
365. -/
theorem exists_march {doe : ℤ} (h : 0 ≤ doe) (hlt : doe < 146097) :
    ∃ c q r doy : ℤ, 0 ≤ c ∧ c ≤ 3 ∧ 0 ≤ q ∧ q ≤ 24 ∧ 0 ≤ r ∧ r ≤ 3 ∧ 0 ≤ doy ∧ doy ≤ 365 ∧
      (doy = 365 → r = 3 ∧ (q = 24 → c = 3)) ∧ doe = 36524 * c + 1461 * q + 365 * r + doy := by
  obtain ⟨c, hc⟩ : ∃ c, c = min (doe / 36524) 3 := ⟨_, rfl⟩
  obtain ⟨d1, hd1⟩ : ∃ d, d = doe - 36524 * c := ⟨_, rfl⟩
  have hr1 : 0 ≤ c ∧ c ≤ 3 ∧ 0 ≤ d1 ∧ d1 ≤ 36524 ∧ (d1 = 36524 → c = 3) := by omega
  obtain ⟨q, hq⟩ : ∃ q, q = d1 / 1461 := ⟨_, rfl⟩
  obtain ⟨d2, hd2⟩ : ∃ d, d = d1 - 1461 * q := ⟨_, rfl⟩
  have hr2 : 0 ≤ q ∧ q ≤ 24 ∧ 0 ≤ d2 ∧ d2 ≤ 1460 ∧ (d2 = 1460 → q = 24 → c = 3) := by omega
  obtain ⟨r, hr⟩ : ∃ r, r = min (d2 / 365) 3 := ⟨_, rfl⟩
  refine ⟨c, q, r, d2 - 365 * r, ?_⟩
  have hr3 : 0 ≤ r ∧ r ≤ 3 ∧ 0 ≤ d2 - 365 * r ∧ d2 - 365 * r ≤ 365 ∧
      (d2 - 365 * r = 365 → r = 3 ∧ d2 = 1460) := by omega
  refine ⟨hr1.1, hr1.2.1, hr2.1, hr2.2.1, hr3.1, hr3.2.1, hr3.2.2.1, hr3.2.2.2.1, ?_, by omega⟩
  intro hlast
  exact ⟨(hr3.2.2.2.2 hlast).1, hr2.2.2.2.2 (hr3.2.2.2.2 hlast).2⟩

/-- **The year of the era** is the one the day belongs to. -/
theorem yoeOf_march {c q r doy : ℤ} (hc : 0 ≤ c ∧ c ≤ 3) (hq : 0 ≤ q ∧ q ≤ 24)
    (hr : 0 ≤ r ∧ r ≤ 3) (hdoy : 0 ≤ doy ∧ doy ≤ 365)
    (hleap : doy = 365 → r = 3 ∧ (q = 24 → c = 3)) :
    yoeOf (36524 * c + 1461 * q + 365 * r + doy) = 100 * c + 4 * q + r := by
  rw [yoeOf_eq (by omega)]
  have hquarter : (36524 * c + 1461 * q + 365 * r + doy) / 1460 =
      25 * c + q + (24 * c + q + 365 * r + doy) / 1460 := by omega
  have hcentury : (36524 * c + 1461 * q + 365 * r + doy) / 36524 =
      c + (1461 * q + 365 * r + doy) / 36524 := by omega
  have hA : 0 ≤ (24 * c + q + 365 * r + doy) / 1460 ∧ (24 * c + q + 365 * r + doy) / 1460 ≤ 1 ∧
      (doy = 0 → (24 * c + q + 365 * r + doy) / 1460 = 0) ∧
      (doy = 365 → (24 * c + q + 365 * r + doy) / 1460 = 1) := by omega
  -- Only the last day of the era ends a century, and it ends the era as well.
  have hB : (1461 * q + 365 * r + doy) / 36524 =
      (36524 * c + 1461 * q + 365 * r + doy) / 146096 := by
    by_cases hend : q = 24 ∧ r = 3 ∧ doy = 365
    · obtain ⟨rfl, rfl, rfl⟩ := hend
      obtain rfl : c = 3 := (hleap rfl).2 rfl
      norm_num
    · have hcent : 1461 * q + 365 * r + doy < 36524 := by omega
      rw [Int.ediv_eq_zero_of_lt (by omega) hcent, Int.ediv_eq_zero_of_lt (by omega) (by omega)]
  rw [hquarter, hcentury, hB]
  omega

/-- The day of the year that starts in March. -/
theorem doyOf_march {c q r doy : ℤ} (hc : 0 ≤ c ∧ c ≤ 3) (hq : 0 ≤ q ∧ q ≤ 24)
    (hr : 0 ≤ r ∧ r ≤ 3) (hdoy : 0 ≤ doy ∧ doy ≤ 365)
    (hleap : doy = 365 → r = 3 ∧ (q = 24 → c = 3)) :
    doyOf (36524 * c + 1461 * q + 365 * r + doy) = doy := by
  rw [doyOf_eq (by omega) (by omega), yoeOf_march hc hq hr hdoy hleap]
  omega

/-- **A day of a year that starts in March has a month and a day of it**: those from March on
belong to the year, the rest to the next. -/
theorem march_month {n : ℕ} (h : n < 366) :
    ∃ m d : ℕ, monthOf n = m ∧ dayOf n = d ∧ 1 ≤ m ∧ m ≤ 12 ∧ 1 ≤ d ∧
      (n < 306 → 2 < m ∧ monthStarts.getD (m - 1) 0 + (d - 1) = 59 + n) ∧
      (306 ≤ n → m ≤ 2 ∧ monthStarts.getD (m - 1) 0 + (d - 1) + 306 = n) ∧
      (n < 365 → d ≤ monthLength 1 m) ∧ (n = 365 → m = 2 ∧ d = 29) := by
  refine ⟨(monthOf n).toNat, (dayOf n).toNat, ?_⟩
  revert n
  decide +kernel

/-- **The date of a day whose era is found**, from its place in the era. -/
theorem exists_civil {z : ℤ} (hlt : doeOf z < 146097) :
    ∃ d : Date, d.dayNumber = z - 719468 ∧ yearOf z = d.year ∧
      monthOf (doyOf (doeOf z)) = d.month ∧ dayOf (doyOf (doeOf z)) = d.day := by
  obtain ⟨c, q, r, doy, hc0, hc, hq0, hq, hr0, hr, hdoy0, hdoy, hleap, hdoe⟩ :=
    exists_march (doeOf_range z).1 hlt
  have hyoe : yoeOf (doeOf z) = 100 * c + 4 * q + r := by
    rw [hdoe]
    exact yoeOf_march ⟨hc0, hc⟩ ⟨hq0, hq⟩ ⟨hr0, hr⟩ ⟨hdoy0, hdoy⟩ hleap
  have hdoyOf : doyOf (doeOf z) = doy := by
    rw [hdoe]
    exact doyOf_march ⟨hc0, hc⟩ ⟨hq0, hq⟩ ⟨hr0, hr⟩ ⟨hdoy0, hdoy⟩ hleap
  obtain ⟨n, rfl⟩ : ∃ n : ℕ, doy = n := ⟨doy.toNat, by omega⟩
  obtain ⟨m, d, hm, hd, hm1, hm12, hd1, hearly, hlate, hcommon, hlast⟩ :=
    march_month (n := n) (by omega)
  have hz : z = 146097 * eraOf z + doeOf z := by unfold doeOf; omega
  obtain ⟨y, hy⟩ : ∃ y, y = 100 * c + 4 * q + r + eraOf z * 400 := ⟨_, rfl⟩
  have hmarch := yearStart_march y
  have hplace : 365 * y + y / 4 - y / 100 + y / 400 + n = z := by
    have h4 : y / 4 = 25 * c + q + 100 * eraOf z := by omega
    have h100 : y / 100 = c + 4 * eraOf z := by omega
    have h400 : y / 400 = eraOf z := by omega
    omega
  have hyear : yearOf z = if m ≤ 2 then y + 1 else y := by
    unfold yearOf
    simp only [hdoyOf, hm, hyoe, ← hy]
    norm_cast
  rcases Nat.lt_or_ge n 306 with hn | hn
  · obtain ⟨hm2, hstart⟩ := hearly hn
    refine ⟨⟨y, m, d, hm1, hm12, hd1,
      (hcommon (by omega)).trans (monthLength_common_le y m)⟩, ?_, ?_, ?_, ?_⟩
    · have hm3 := monthStart_eq y (m := 3) (by omega) (by omega)
      have hmm := monthStart_eq y hm1 hm12
      have hflag : (if Leap y ∧ 2 < m then 1 else 0) = if Leap y ∧ 2 < 3 then 1 else 0 := by
        simp [hm2]
      rw [hflag] at hmm
      have h59 : monthStarts.getD (3 - 1) 0 = 59 := rfl
      unfold Date.dayNumber Date.yday
      dsimp only
      omega
    · rw [hyear, if_neg (by omega)]
    · rw [hdoyOf, hm]
    · rw [hdoyOf, hd]
  · obtain ⟨hm2, hstart⟩ := hlate hn
    have hlength : d ≤ monthLength (y + 1) m := by
      rcases Nat.lt_or_ge n 365 with hn' | hn'
      · exact (hcommon hn').trans (monthLength_common_le (y + 1) m)
      · obtain ⟨rfl, rfl⟩ := hlast (by omega)
        have hl := hleap (by omega)
        have hleapYear : Leap (y + 1) := by unfold Leap; omega
        simp [monthLength, hleapYear]
    refine ⟨⟨y + 1, m, d, hm1, hm12, hd1, hlength⟩, ?_, ?_, ?_, ?_⟩
    · have hmm := monthStart_eq (y + 1) hm1 hm12
      rw [if_neg (by omega)] at hmm
      have hnext := yearStart_succ_march y
      unfold Date.dayNumber Date.yday
      dsimp only
      omega
    · rw [hyear, if_pos hm2]
    · rw [hdoyOf, hm]
    · rw [hdoyOf, hd]

/-- Where the era is found: on every day from the first of March of the year zero on, and before
that on the last day of each era only. -/
theorem doeOf_lt {z : ℤ} (h : -1 ≤ z) : doeOf z < 146097 := by
  unfold doeOf eraOf
  split_ifs <;> omega

/-! ### The bytes of the message -/

/-- The message for a date, a second of the day and a day of the week. -/
def rtcBytes (counter : UInt16) (d : Date) (secondOfDay weekday : ℕ) : List UInt8 :=
  message 0x001e 0x0094 counter (u16Bytes (UInt16.ofNat d.year.toNat) ++
    [UInt8.ofNat d.month, UInt8.ofNat d.day, UInt8.ofNat (secondOfDay / 3600),
      UInt8.ofNat (secondOfDay % 3600 / 60), UInt8.ofNat (secondOfDay % 60),
      UInt8.ofNat weekday] ++ u16Bytes (UInt16.ofNat d.yday))

theorem leap_iff {y : ℤ} (hy : 0 ≤ y) :
    (y.tmod 4 = 0 ∧ (y.tmod 100 ≠ 0 ∨ y.tmod 400 = 0)) ↔ Leap y := by
  rw [Int.tmod_eq_emod_of_nonneg hy, Int.tmod_eq_emod_of_nonneg hy,
    Int.tmod_eq_emod_of_nonneg hy, Leap]

theorem day_le_31 (d : Date) : d.day ≤ 31 := by
  have h := d.day_le
  unfold monthLength at h
  split_ifs at h <;> omega

/-- **The day of the year is the date's.** -/
theorem ydayOf_date (d : Date) (hyear : 0 ≤ d.year) :
    ydayOf d.year d.month d.day = some (d.yday : ℤ) := by
  have hm1 := d.month_pos
  have hm12 := d.month_le
  have hd1 := d.day_pos
  have hd31 := day_le_31 d
  have hstart := monthStart_eq d.year hm1 hm12
  have hidx : (((d.month : ℤ) - 1).toNat) = d.month - 1 := by omega
  have hlen : d.month - 1 < monthStarts.length := by
    show d.month - 1 < 12
    omega
  have hget : monthStarts[d.month - 1]? = some (monthStarts.getD (d.month - 1) 0) := by
    rw [List.getElem?_eq_getElem hlen, List.getD_eq_getElem _ _ hlen]
  have hsmall : monthStarts.getD (d.month - 1) 0 ≤ 334 := by
    have : ∀ i < 12, monthStarts.getD i 0 ≤ 334 := by decide
    exact this _ (by omega)
  have hday : ((UInt16.ofInt d.day).toNat : ℤ) = d.day := by
    rw [UInt16.ofInt, UInt16.toNat_ofNat']
    omega
  have hyday : (d.yday : ℤ) = monthStarts.getD (d.month - 1) 0 + (d.day : ℤ) - 1 +
      if Leap d.year ∧ 2 < d.month then 1 else 0 := by
    unfold Date.yday
    rw [hstart]
    split_ifs <;> push_cast <;> omega
  generalize monthStarts.getD (d.month - 1) 0 = start at *
  have hu (x : ℤ) (h : 0 ≤ x ∧ x ≤ 65535) : u16 x = some x := if_pos h
  unfold ydayOf
  simp only [leap_iff hyear, sub64, i64, if_pos (show I64 ((d.month : ℤ) - 1) from
    ⟨by omega, by omega⟩), Option.bind_eq_bind, Option.bind_some, hidx, hget, hday,
    if_pos (show (0 : ℤ) ≤ (d.month : ℤ) - 1 by omega)]
  rw [hu _ (by omega), Option.bind_some, hu _ (by omega), Option.bind_some, hyday]
  by_cases hl : Leap d.year ∧ 2 < d.month
  · rw [if_pos hl, if_pos ⟨hl.1, by exact_mod_cast hl.2⟩]
    exact hu _ (by omega)
  · rw [if_neg hl, if_neg fun h => hl ⟨h.1, by exact_mod_cast h.2⟩, add_zero]
    rfl

theorem ofInt8_natCast (n : ℕ) : UInt8.ofInt n = UInt8.ofNat n := by
  refine UInt8.toNat_inj.1 ?_
  rw [UInt8.ofInt, UInt8.toNat_ofNat', UInt8.toNat_ofNat']
  omega

theorem ofInt16_natCast (n : ℕ) : UInt16.ofInt n = UInt16.ofNat n := by
  refine UInt16.toNat_inj.1 ?_
  rw [UInt16.ofInt, UInt16.toNat_ofNat', UInt16.toNat_ofNat']
  omega

section Request

variable {counter : UInt16} {unixSeconds utcOffsetMinutes : ℤ}

/-- The local time, from clock and offset, within a signed 64-bit word. -/
def localSeconds (unixSeconds utcOffsetMinutes : ℤ) : ℤ :=
  saturatingAdd64 unixSeconds (utcOffsetMinutes * 60)

/-- The day of the local time. -/
def localDays (unixSeconds utcOffsetMinutes : ℤ) : ℤ :=
  localSeconds unixSeconds utcOffsetMinutes / 86400

theorem localDays_range (unixSeconds utcOffsetMinutes : ℤ) :
    -200000000000000 ≤ localDays unixSeconds utcOffsetMinutes ∧
      localDays unixSeconds utcOffsetMinutes ≤ 200000000000000 := by
  unfold localDays localSeconds saturatingAdd64
  omega

/-- A year outside sixteen bits is refused, whatever the rest of the conversion gave. -/
theorem rtcSyncReq_refused (hoff : I32 utcOffsetMinutes) {y m d : ℤ}
    (hcivil : civilFromDays (localDays unixSeconds utcOffsetMinutes) = some (y, m, d))
    (hyear : y < 0 ∨ 65535 < y) :
    rtcSyncReq counter unixSeconds utcOffsetMinutes = some (.error .EINVAL) := by
  obtain ⟨hlow, hhigh⟩ := hoff
  have hmul : mul64 utcOffsetMinutes 60 = some (utcOffsetMinutes * 60) :=
    if_pos ⟨by omega, by omega⟩
  unfold localDays localSeconds at hcivil
  unfold rtcSyncReq
  simp only [hmul, Option.bind_eq_bind, Option.bind_some, hcivil, if_pos hyear]
  rfl

/-- **A year of sixteen bits is sent**, with the date the conversion gave. -/
theorem rtcSyncReq_sent (hoff : I32 utcOffsetMinutes) {d : Date}
    (hcivil : civilFromDays (localDays unixSeconds utcOffsetMinutes) =
      some (d.year, (d.month : ℤ), (d.day : ℤ)))
    (hyear : 0 ≤ d.year ∧ d.year ≤ 65535) :
    rtcSyncReq counter unixSeconds utcOffsetMinutes = some (.ok (rtcBytes counter d
      (localSeconds unixSeconds utcOffsetMinutes % 86400).toNat
      ((localDays unixSeconds utcOffsetMinutes + 4) % 7).toNat)) := by
  obtain ⟨hlow, hhigh⟩ := hoff
  have hmul : mul64 utcOffsetMinutes 60 = some (utcOffsetMinutes * 60) :=
    if_pos ⟨by omega, by omega⟩
  have hrange := localDays_range unixSeconds utcOffsetMinutes
  have hseconds : saturatingAdd64 unixSeconds (utcOffsetMinutes * 60) =
    localSeconds unixSeconds utcOffsetMinutes := rfl
  have hdays : localSeconds unixSeconds utcOffsetMinutes / 86400 =
    localDays unixSeconds utcOffsetMinutes := rfl
  have hweek : add64 (localDays unixSeconds utcOffsetMinutes) 4 =
      some (localDays unixSeconds utcOffsetMinutes + 4) := if_pos ⟨by omega, by omega⟩
  obtain ⟨s, hs⟩ : ∃ s : ℕ, localSeconds unixSeconds utcOffsetMinutes % 86400 = s :=
    ⟨(localSeconds unixSeconds utcOffsetMinutes % 86400).toNat, by omega⟩
  obtain ⟨k, hk⟩ : ∃ k : ℕ, (localDays unixSeconds utcOffsetMinutes + 4) % 7 = k :=
    ⟨((localDays unixSeconds utcOffsetMinutes + 4) % 7).toNat, by omega⟩
  obtain ⟨y, hy⟩ : ∃ y : ℕ, d.year = y := ⟨d.year.toNat, by omega⟩
  have hquot (n : ℕ) : (s : ℤ).tdiv n = (s / n : ℕ) := rfl
  have hrem (n : ℕ) : (s : ℤ).tmod n = (s % n : ℕ) := rfl
  have hminute : ((s : ℤ).tmod 3600).tdiv 60 = (s % 3600 / 60 : ℕ) := rfl
  unfold rtcSyncReq
  simp only [hmul, Option.bind_eq_bind, Option.bind_some, hseconds, hdays, hcivil,
    if_neg (show ¬ (d.year < 0 ∨ 65535 < d.year) by omega), ydayOf_date d hyear.1, hweek,
    hs, hk, rtcBytes, Int.toNat_natCast]
  rw [hminute, show (s : ℤ).tdiv 3600 = (s / 3600 : ℕ) from hquot 3600,
    show (s : ℤ).tmod 60 = (s % 60 : ℕ) from hrem 60, hy]
  simp only [ofInt8_natCast, ofInt16_natCast, Int.toNat_natCast]
  rfl

/-! ### Which days are right -/

/-- The conversion, as the request sees it. -/
theorem civilFromDays_eq (days : ℤ) (hlow : -200000000000000 ≤ days)
    (hhigh : days ≤ 200000000000000) :
    civilFromDays days = some (yearOf (days + 719468), monthOf (doyOf (doeOf (days + 719468))),
      dayOf (doyOf (doeOf (days + 719468)))) := by
  obtain ⟨fields, hsome, rfl⟩ := civilFromDays_succeeds hlow hhigh
  exact hsome

/-- The date is converted to the fields of `d`. -/
def Converts (days : ℤ) (d : Date) : Prop :=
  civilFromDays days = some (d.year, (d.month : ℤ), (d.day : ℤ))

/-- From the leap day of the year zero on, a day is converted to its date. -/
theorem converts_date {days : ℤ} (hlow : -719469 ≤ days) (hhigh : days ≤ 200000000000000) :
    ∃ d : Date, d.dayNumber = days ∧ Converts days d := by
  obtain ⟨d, hnumber, hyear, hmonth, hday⟩ := exists_civil (doeOf_lt (z := days + 719468) (by omega))
  refine ⟨d, by omega, ?_⟩
  rw [Converts, civilFromDays_eq days (by omega) hhigh, hyear, hmonth, hday]

/-- **In the sixty days before, a day is converted to the date after its own**: the era is found one
too early. -/
theorem converts_next {days : ℤ} (hlow : -719529 ≤ days) (hhigh : days ≤ -719470) :
    ∃ d : Date, d.dayNumber = days + 1 ∧ d.year = 0 ∧ Converts days d := by
  obtain ⟨n, hn⟩ : ∃ n : ℕ, (n : ℤ) = days + 719835 := ⟨(days + 719835).toNat, by omega⟩
  have hera : eraOf (days + 719468) = -2 := by
    unfold eraOf
    rw [if_neg (by omega)]
    omega
  have hdoe : doeOf (days + 719468) = n + 291827 := by
    rw [doeOf, hera]
    omega
  have hyoe : yoeOf (n + 291827) = 799 := by
    rw [yoeOf_eq (by omega)]
    omega
  have hdoy : doyOf (n + 291827) = n := by
    rw [doyOf_eq (by omega) (by omega), hyoe]
    omega
  obtain ⟨m, d, hm, hd, hm1, hm12, hd1, -, hlate, hcommon, hlast⟩ :=
    march_month (n := n) (by omega)
  obtain ⟨hm2, hstart⟩ := hlate (by omega)
  have hlength : d ≤ monthLength 0 m := by
    rcases Nat.lt_or_ge n 365 with hn' | hn'
    · exact (hcommon hn').trans (monthLength_common_le 0 m)
    · obtain ⟨rfl, rfl⟩ := hlast (by omega)
      decide
  have hyear : yearOf (days + 719468) = 0 := by
    unfold yearOf
    rw [hdoe, hdoy, hyoe, hera, hm]
    dsimp only
    rw [if_pos (by omega)]
    rfl
  refine ⟨⟨0, m, d, hm1, hm12, hd1, hlength⟩, ?_, rfl, ?_⟩
  · have hmm := monthStart_eq 0 hm1 hm12
    rw [if_neg (by omega)] at hmm
    have hzero : yearStart 0 = -719528 := by decide
    unfold Date.dayNumber Date.yday
    dsimp only
    omega
  · rw [Converts, civilFromDays_eq days (by omega) (by omega), hyear, hdoe, hdoy, hm, hd]

/-- Before those, a day is converted to some year below zero, as it should be. -/
theorem year_neg {days : ℤ} (hhigh : days ≤ -719530) : yearOf (days + 719468) < 0 := by
  have hdoe := doeOf_range (days + 719468)
  have hyoe := yoeOf_eq hdoe.1
  have hdoy := doyOf_eq hdoe.1 hdoe.2
  have hdoyR := doyOf_range hdoe.1 hdoe.2
  have hmp := mpOf_range hdoyR.1 hdoyR.2
  have hz : doeOf (days + 719468) = days + 719468 - eraOf (days + 719468) * 146097 := rfl
  have hera : eraOf (days + 719468) ≤ -2 := by
    unfold eraOf
    rw [if_neg (by omega)]
    omega
  unfold yearOf
  dsimp only
  rcases lt_or_ge (yoeOf (doeOf (days + 719468))) 799 with hlt | hge
  · split_ifs <;> omega
  · rcases lt_or_ge (eraOf (days + 719468)) (-2) with hearly | hlate
    · have hle := (yoeOf_range hdoe.1 hdoe.2).2
      split_ifs <;> omega
    · -- The last year of the era found: its January has not begun.
      have hyear : yoeOf (doeOf (days + 719468)) = 799 := by omega
      have hmonth : ¬ monthOf (doyOf (doeOf (days + 719468))) ≤ 2 := by
        have hle : doyOf (doeOf (days + 719468)) ≤ 305 := by omega
        have hnine : mpOf (doyOf (doeOf (days + 719468))) < 10 := by
          unfold mpOf at hmp ⊢
          rcases lt_or_ge (5 * doyOf (doeOf (days + 719468)) + 2) 0 with hneg | hpos
          · omega
          · rw [Int.tdiv_eq_ediv_of_nonneg hpos]
            omega
        rw [monthOf, if_pos hnine]
        omega
      rw [if_neg hmonth]
      omega

/-! ### The message and the calendar -/

/-- The message states the local time: it is refused exactly if the year does not fit sixteen bits,
and otherwise carries the date of the day, the time of day and the day of the week. -/
def StatesTime (counter : UInt16) (unixSeconds utcOffsetMinutes : ℤ) : Prop :=
  ∃ d : Date, d.dayNumber = (unixSeconds + 60 * utcOffsetMinutes) / 86400 ∧
    rtcSyncReq counter unixSeconds utcOffsetMinutes =
      if 0 ≤ d.year ∧ d.year ≤ 65535 then
        some (.ok (rtcBytes counter d ((unixSeconds + 60 * utcOffsetMinutes) % 86400).toNat d.weekday))
      else some (.error .EINVAL)

theorem localSeconds_eq (hlocal : I64 (unixSeconds + 60 * utcOffsetMinutes)) :
    localSeconds unixSeconds utcOffsetMinutes = unixSeconds + 60 * utcOffsetMinutes := by
  obtain ⟨hlow, hhigh⟩ := hlocal
  unfold localSeconds saturatingAdd64
  omega

/-- The day of the year can be read off the message. -/
theorem yday_rtcBytes (d : Date) (s k : ℕ) :
    u16At 30 (rtcBytes counter d s k) = some (UInt16.ofNat d.yday) :=
  u16At_eq (m := []) rfl

theorem statesTime_of_late (hoff : I32 utcOffsetMinutes)
    (hlocal : I64 (unixSeconds + 60 * utcOffsetMinutes))
    (hlow : -719469 ≤ localDays unixSeconds utcOffsetMinutes) :
    StatesTime counter unixSeconds utcOffsetMinutes := by
  obtain ⟨d, hd, hconv⟩ :=
    converts_date hlow (localDays_range unixSeconds utcOffsetMinutes).2
  have hseconds := localSeconds_eq hlocal
  refine ⟨d, by rw [hd, localDays, hseconds], ?_⟩
  split_ifs with hyear
  · rw [rtcSyncReq_sent hoff hconv hyear, hseconds, ← hd]
    rfl
  · exact rtcSyncReq_refused hoff hconv (by omega)

theorem statesTime_of_early (hoff : I32 utcOffsetMinutes)
    (hlocal : I64 (unixSeconds + 60 * utcOffsetMinutes))
    (hhigh : localDays unixSeconds utcOffsetMinutes ≤ -719530) :
    StatesTime counter unixSeconds utcOffsetMinutes := by
  obtain ⟨d, hd⟩ := Date.exists_dayNumber (localDays unixSeconds utcOffsetMinutes)
  have hyear : d.year < 0 := by
    by_contra hge
    have hstart := yearStart_strictMono.monotone (show (0 : ℤ) ≤ d.year by omega)
    have hmem := d.dayNumber_mem
    have hzero : yearStart 0 = -719528 := by decide
    omega
  refine ⟨d, by rw [hd, localDays, localSeconds_eq hlocal], ?_⟩
  rw [if_neg (by omega)]
  have hrange := localDays_range unixSeconds utcOffsetMinutes
  exact rtcSyncReq_refused hoff (civilFromDays_eq _ hrange.1 hrange.2) (Or.inl (year_neg hhigh))

theorem not_statesTime (hoff : I32 utcOffsetMinutes)
    (hlocal : I64 (unixSeconds + 60 * utcOffsetMinutes))
    (hlow : -719529 ≤ localDays unixSeconds utcOffsetMinutes)
    (hhigh : localDays unixSeconds utcOffsetMinutes ≤ -719470) :
    ¬ StatesTime counter unixSeconds utcOffsetMinutes := by
  rintro ⟨d, hd, hreq⟩
  obtain ⟨e, he, hyear, hconv⟩ := converts_next hlow hhigh
  have hday : d.dayNumber + 1 = e.dayNumber := by
    rw [he, hd, localDays, localSeconds_eq hlocal]
  rw [rtcSyncReq_sent hoff hconv (by omega)] at hreq
  split_ifs at hreq with hd0
  · have hbytes := Except.ok.inj (Option.some.inj hreq)
    have hyday := congrArg (u16At 30) hbytes
    rw [yday_rtcBytes, yday_rtcBytes] at hyday
    have hyday' := congrArg UInt16.toNat (Option.some.inj hyday)
    have hlt := d.yday_lt
    have hlt' := e.yday_lt
    have hsmall (y : ℤ) : yearLength y ≤ 366 := by unfold yearLength; split_ifs <;> omega
    have h1 := hsmall d.year
    have h2 := hsmall e.year
    rw [UInt16.toNat_ofNat', UInt16.toNat_ofNat', Nat.mod_eq_of_lt (by omega),
      Nat.mod_eq_of_lt (by omega)] at hyday'
    have hyears := Date.year_le_of_dayNumber_le (d := d) (e := e) (by omega)
    have hsame : d.year = e.year := by omega
    unfold Date.dayNumber at hday
    rw [hsame] at hday
    omega
  · cases hreq

/-- **When the clock is set right.**  Building the message never overflows nor reads outside the
table of months.  It states the local time unless the local day is one of the sixty from the last of
December of the year -1 to the twenty-eighth of February of the year 0. -/
theorem statesTime_iff (counter : UInt16) (hoff : I32 utcOffsetMinutes)
    (hlocal : I64 (unixSeconds + 60 * utcOffsetMinutes)) :
    (rtcSyncReq counter unixSeconds utcOffsetMinutes).isSome = true ∧
    (StatesTime counter unixSeconds utcOffsetMinutes ↔
      ¬ (-719529 ≤ (unixSeconds + 60 * utcOffsetMinutes) / 86400 ∧
        (unixSeconds + 60 * utcOffsetMinutes) / 86400 ≤ -719470)) := by
  have hdays : localDays unixSeconds utcOffsetMinutes =
      (unixSeconds + 60 * utcOffsetMinutes) / 86400 := by
    rw [localDays, localSeconds_eq hlocal]
  have hstates : StatesTime counter unixSeconds utcOffsetMinutes →
      (rtcSyncReq counter unixSeconds utcOffsetMinutes).isSome = true := by
    rintro ⟨d, -, hreq⟩
    rw [hreq]
    split_ifs <;> rfl
  rw [← hdays]
  rcases lt_or_ge (localDays unixSeconds utcOffsetMinutes) (-719529) with hearly | hlow
  · have h : StatesTime counter unixSeconds utcOffsetMinutes :=
      statesTime_of_early hoff hlocal (by omega)
    exact ⟨hstates h, fun _ => by omega, fun _ => h⟩
  rcases lt_or_ge (-719470) (localDays unixSeconds utcOffsetMinutes) with hlate | hhigh
  · have h : StatesTime counter unixSeconds utcOffsetMinutes :=
      statesTime_of_late hoff hlocal (by omega)
    exact ⟨hstates h, fun _ => by omega, fun _ => h⟩
  · obtain ⟨e, -, hyear, hconv⟩ := converts_next hlow hhigh
    have hnot : ¬ StatesTime counter unixSeconds utcOffsetMinutes :=
      not_statesTime hoff hlocal hlow hhigh
    exact ⟨by rw [rtcSyncReq_sent hoff hconv (by omega)]; rfl,
      fun h => absurd h hnot, fun h => absurd ⟨hlow, hhigh⟩ h⟩

/-- An afternoon in August 2026, five and a half hours east. -/
theorem afternoon_stated :
    (rtcSyncReq 7 1785752077 330).isSome = true ∧
    (StatesTime 7 1785752077 330 ↔ ¬ (-719529 ≤ (1785752077 + 60 * 330 : ℤ) / 86400 ∧
      (1785752077 + 60 * 330 : ℤ) / 86400 ≤ -719470)) :=
  statesTime_iff 7 (by decide) (by decide)

/-- On the twenty-eighth of February of the year 0 the message says the twenty-ninth. -/
theorem leap_day_early :
    rtcSyncReq 0 (-62162208000) 0 = some (.ok (rtcBytes 0
      ⟨0, 2, 29, by decide, by decide, by decide, by decide⟩ 0 1)) ∧
    Date.dayNumber ⟨0, 2, 28, by decide, by decide, by decide, by decide⟩ =
      (-62162208000 + 60 * 0) / 86400 ∧
    ¬ ∀ (counter : UInt16) (unixSeconds utcOffsetMinutes : ℤ), I64 unixSeconds →
      I32 utcOffsetMinutes → I64 (unixSeconds + 60 * utcOffsetMinutes) →
      StatesTime counter unixSeconds utcOffsetMinutes := by
  refine ⟨by decide +kernel, by decide +kernel, fun h => ?_⟩
  exact not_statesTime (by decide) (by decide) (by decide) (by decide)
    (h 0 (-62162208000) 0 (by decide) (by decide) (by decide))

end Request

end Vino.Cp.RtcSync
