import Mathlib

/-!
# The Proleptic Gregorian Calendar

Dates of all years, the day after a date, and the numbers of days that agree with it.  The day
number of a date counts from the first of January 1970; the years before the introduction of the
calendar, the year zero and those before it follow the same rules.

* `dayNumber_next`: the numbers advance by one from a date to the next,
* `dayNumber_injective`, `exists_dayNumber`: every number belongs to exactly one date,
* `yearStart_march`: the number of the first of March, from which a year's leap day is its last.
-/

namespace Vino.Lib.Calendar

/-! ### Years and months -/

/-- Every fourth year, but of the centuries only every fourth. -/
def Leap (y : ℤ) : Prop := y % 4 = 0 ∧ (y % 100 ≠ 0 ∨ y % 400 = 0)

instance (y : ℤ) : Decidable (Leap y) := inferInstanceAs (Decidable (_ ∧ _))

def yearLength (y : ℤ) : ℕ := if Leap y then 366 else 365

def monthLength (y : ℤ) (m : ℕ) : ℕ :=
  if m = 2 then if Leap y then 29 else 28
  else if m = 4 ∨ m = 6 ∨ m = 9 ∨ m = 11 then 30
  else 31

/-- The days of a year ahead of its month `m`. -/
def monthStart (y : ℤ) (m : ℕ) : ℕ := ((List.range' 1 (m - 1)).map (monthLength y)).sum

/-- The number of the first of January. -/
def yearStart (y : ℤ) : ℤ := 365 * (y - 1970) + (y - 1) / 4 - (y - 1) / 100 + (y - 1) / 400 - 477

/-- **A year starts where the year before it ends.** -/
theorem yearStart_succ (y : ℤ) : yearStart (y + 1) = yearStart y + yearLength y := by
  by_cases h : Leap y
  · simp only [yearStart, yearLength, if_pos h]
    unfold Leap at h
    push_cast
    omega
  · simp only [yearStart, yearLength, if_neg h]
    unfold Leap at h
    push_cast
    omega

theorem monthStart_succ (y : ℤ) {m : ℕ} (hm : 1 ≤ m) :
    monthStart y (m + 1) = monthStart y m + monthLength y m := by
  obtain ⟨k, rfl⟩ : ∃ k, m = k + 1 := ⟨m - 1, by omega⟩
  simp only [monthStart, Nat.add_sub_cancel, List.range'_concat, List.map_append, List.sum_append,
    List.map_cons, List.map_nil, List.sum_cons, List.sum_nil]
  rw [Nat.one_mul, Nat.add_zero, Nat.add_comm k 1]

theorem monthStart_end (y : ℤ) : monthStart y 13 = yearLength y := by
  unfold monthStart yearLength monthLength
  split_ifs <;> decide

/-- The days ahead of each month of a common year. -/
def monthStarts : List ℕ := [0, 31, 59, 90, 120, 151, 181, 212, 243, 273, 304, 334]

/-- **The months of a year start where they do in a common year**, one day later behind the
twenty-ninth of February. -/
theorem monthStart_eq (y : ℤ) {m : ℕ} (hpos : 1 ≤ m) (hle : m ≤ 12) :
    monthStart y m = monthStarts.getD (m - 1) 0 + if Leap y ∧ 2 < m then 1 else 0 := by
  have hlength : monthLength y = fun m => if m = 2 then if Leap y then 29 else 28
      else if m = 4 ∨ m = 6 ∨ m = 9 ∨ m = 11 then 30 else 31 := rfl
  rw [monthStart, hlength]
  by_cases h : Leap y
  · simp only [h, true_and, if_true]
    interval_cases m <;> decide
  · simp only [h, false_and, if_false]
    interval_cases m <;> decide

/-- The number of the first of March: a year that starts there ends with its leap day. -/
theorem yearStart_march (y : ℤ) :
    yearStart y + monthStart y 3 = 365 * y + y / 4 - y / 100 + y / 400 - 719468 := by
  rw [monthStart_eq y (by omega) (by omega)]
  by_cases h : Leap y
  · rw [if_pos ⟨h, by omega⟩]
    unfold Leap at h
    simp only [yearStart, monthStarts, List.getD_cons_succ, List.getD_cons_zero, Nat.reduceSub]
    push_cast
    omega
  · rw [if_neg fun hm => h hm.1]
    unfold Leap at h
    simp only [yearStart, monthStarts, List.getD_cons_succ, List.getD_cons_zero, Nat.reduceSub]
    push_cast
    omega

/-- The next year begins 306 days after the first of March. -/
theorem yearStart_succ_march (y : ℤ) :
    yearStart (y + 1) = yearStart y + monthStart y 3 + 306 := by
  rw [yearStart_succ, monthStart_eq y (by omega) (by omega), yearLength]
  simp only [monthStarts, List.getD_cons_succ, List.getD_cons_zero, Nat.reduceSub]
  by_cases h : Leap y
  · rw [if_pos h, if_pos ⟨h, by omega⟩]
    push_cast
    omega
  · rw [if_neg h, if_neg fun hm => h hm.1]
    push_cast
    omega

/-- Only February is longer in a leap year. -/
theorem monthLength_common_le (y : ℤ) (m : ℕ) : monthLength 1 m ≤ monthLength y m := by
  have hone : ¬ Leap 1 := by decide
  unfold monthLength
  rw [if_neg hone]
  split_ifs <;> omega

theorem monthStart_mono (y : ℤ) {m n : ℕ} (hm : 1 ≤ m) (hmn : m ≤ n) :
    monthStart y m ≤ monthStart y n := by
  induction n, hmn using Nat.le_induction with
  | base => exact le_rfl
  | succ n hn ih =>
    rw [monthStart_succ y (by omega)]
    omega

theorem yearStart_strictMono : StrictMono yearStart := by
  refine strictMono_int_of_lt_succ fun y => ?_
  rw [yearStart_succ]
  unfold yearLength
  split_ifs <;> omega

/-! ### Dates -/

/-- A date of the calendar. -/
@[ext]
structure Date where
  year : ℤ
  month : ℕ
  day : ℕ
  month_pos : 1 ≤ month
  month_le : month ≤ 12
  day_pos : 1 ≤ day
  day_le : day ≤ monthLength year month

namespace Date

/-- The zero-based day of the year. -/
def yday (d : Date) : ℕ := monthStart d.year d.month + (d.day - 1)

/-- The number of the date, counted from the first of January 1970. -/
def dayNumber (d : Date) : ℤ := yearStart d.year + d.yday

/-- The day of the week, Sunday zero; the first of January 1970 was a Thursday. -/
def weekday (d : Date) : ℕ := ((d.dayNumber + 4) % 7).toNat

/-- The day after. -/
def next (d : Date) : Date :=
  if hday : d.day < monthLength d.year d.month then
    { d with day := d.day + 1, day_pos := by omega, day_le := hday }
  else if hmonth : d.month < 12 then
    { year := d.year, month := d.month + 1, day := 1, month_pos := by omega, month_le := by omega,
      day_pos := le_rfl, day_le := by unfold monthLength; split_ifs <;> omega }
  else
    { year := d.year + 1, month := 1, day := 1, month_pos := le_rfl, month_le := by omega,
      day_pos := le_rfl, day_le := by unfold monthLength; split_ifs <;> omega }

/-- **The day after has the next number.** -/
theorem dayNumber_next (d : Date) : d.next.dayNumber = d.dayNumber + 1 := by
  have hpos := d.day_pos
  have hle := d.day_le
  have hmonth := monthStart_succ d.year d.month_pos
  unfold next
  split_ifs with hday hlast
  · simp only [dayNumber, yday]
    omega
  · simp only [dayNumber, yday]
    omega
  · have htwelve : d.month = 12 := by have := d.month_le; omega
    have hyear := yearStart_succ d.year
    have hend := monthStart_end d.year
    have hfirst : monthStart (d.year + 1) 1 = 0 := rfl
    rw [htwelve] at hday hle
    rw [htwelve, show 12 + 1 = 13 from rfl] at hmonth
    simp only [dayNumber, yday, htwelve]
    omega

theorem yday_lt (d : Date) : d.yday < yearLength d.year := by
  have hle := d.day_le
  have hpos := d.day_pos
  have hmonth := monthStart_succ d.year d.month_pos
  have hend := monthStart_mono d.year (m := d.month + 1) (n := 13) (by omega)
    (by have := d.month_le; omega)
  rw [monthStart_end] at hend
  unfold yday
  omega

/-- The number of a date lies within its year. -/
theorem dayNumber_mem (d : Date) :
    yearStart d.year ≤ d.dayNumber ∧ d.dayNumber < yearStart (d.year + 1) := by
  have hlt := d.yday_lt
  rw [yearStart_succ]
  unfold dayNumber
  omega

theorem year_le_of_dayNumber_le {d e : Date} (h : d.dayNumber ≤ e.dayNumber) :
    d.year ≤ e.year := by
  by_contra hlt
  have hstart := yearStart_strictMono.monotone (show e.year + 1 ≤ d.year by omega)
  have hd := d.dayNumber_mem
  have he := e.dayNumber_mem
  omega

theorem month_le_of_yday_le {d e : Date} (hyear : d.year = e.year) (h : d.yday ≤ e.yday) :
    d.month ≤ e.month := by
  by_contra hlt
  have hstart := monthStart_mono e.year (m := e.month + 1) (n := d.month) (by omega) (by omega)
  rw [monthStart_succ e.year e.month_pos] at hstart
  have hle := e.day_le
  have hpos := e.day_pos
  unfold yday at h
  rw [hyear] at h
  omega

/-- **A number belongs to one date.** -/
theorem dayNumber_injective : Function.Injective dayNumber := by
  intro d e h
  have hyear : d.year = e.year :=
    le_antisymm (year_le_of_dayNumber_le h.le) (year_le_of_dayNumber_le h.ge)
  have hyday : d.yday = e.yday := by
    unfold dayNumber at h
    rw [hyear] at h
    omega
  have hmonth : d.month = e.month :=
    le_antisymm (month_le_of_yday_le hyear hyday.le) (month_le_of_yday_le hyear.symm hyday.ge)
  have hday : d.day = e.day := by
    have hd := d.day_pos
    have he := e.day_pos
    unfold yday at hyday
    rw [hyear, hmonth] at hyday
    omega
  exact Date.ext hyear hmonth hday

/-- The first of January. -/
def newYear (y : ℤ) : Date where
  year := y
  month := 1
  day := 1
  month_pos := le_rfl
  month_le := by omega
  day_pos := le_rfl
  day_le := by unfold monthLength; split_ifs <;> omega

theorem dayNumber_iterate_next (d : Date) (n : ℕ) :
    (next^[n] d).dayNumber = d.dayNumber + n := by
  induction n with
  | zero => simp
  | succ n ih =>
    rw [Function.iterate_succ_apply', dayNumber_next, ih]
    push_cast
    omega

/-- **Every number belongs to a date**: the calendar starts as early as one likes. -/
theorem exists_dayNumber (n : ℤ) : ∃ d : Date, d.dayNumber = n := by
  have hstart : (newYear (1970 - n.natAbs)).dayNumber ≤ n := by
    have hyday : (newYear (1970 - n.natAbs)).yday = 0 := rfl
    unfold dayNumber
    rw [hyday]
    show yearStart (1970 - n.natAbs) + 0 ≤ n
    unfold yearStart
    omega
  refine ⟨next^[(n - (newYear (1970 - n.natAbs)).dayNumber).toNat] (newYear (1970 - n.natAbs)), ?_⟩
  rw [dayNumber_iterate_next]
  omega

end Date

end Vino.Lib.Calendar
