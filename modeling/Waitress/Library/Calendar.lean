import Mathlib.Data.Nat.Notation
import Mathlib.Tactic.Common
import Mathlib.Tactic.IntervalCases

/-!
# The Gregorian calendar

The proleptic calendar, days numbered from 1 January of year 1, which has the
number 1.
-/

namespace Calendar

def isLeap (year : Nat) : Bool := year % 4 = 0 && (year % 100 ≠ 0 || year % 400 = 0)

def daysInYear (year : Nat) : Nat := if isLeap year then 366 else 365

def daysInMonth (year month : Nat) : Nat :=
  if month = 2 then if isLeap year then 29 else 28
  else [31, 28, 31, 30, 31, 30, 31, 31, 30, 31, 30, 31].getD (month - 1) 0

def daysBeforeYear (year : Nat) : Nat :=
  let years := year - 1
  years * 365 + years / 4 - years / 100 + years / 400

def daysBeforeMonth (year month : Nat) : Nat :=
  [0, 31, 59, 90, 120, 151, 181, 212, 243, 273, 304, 334].getD (month - 1) 0 +
    if 2 < month && isLeap year then 1 else 0

def toordinal (year month day : Nat) : Nat :=
  daysBeforeYear year + daysBeforeMonth year month + day

/-- A quotient grows by one at the multiples. -/
theorem succ_div_eq (n k : Nat) : (n + 1) / k = n / k + if (n + 1) % k = 0 then 1 else 0 := by
  rw [Nat.succ_div]
  simp only [Nat.dvd_iff_mod_eq_zero]

theorem daysBeforeYear_succ {year : Nat} (positive : 1 ≤ year) :
    daysBeforeYear (year + 1) = daysBeforeYear year + daysInYear year := by
  obtain ⟨years, rfl⟩ := Nat.exists_eq_add_of_le' positive
  have fewer : years / 100 ≤ years / 4 := Nat.div_le_div_left (by decide) (by decide)
  have century : (years + 1) % 100 = 0 → (years + 1) % 4 = 0 := by omega
  have fourth : (years + 1) % 400 = 0 → (years + 1) % 100 = 0 := by omega
  simp only [daysBeforeYear, daysInYear, isLeap, Nat.add_sub_cancel, succ_div_eq]
  generalize years / 4 = leaps at fewer ⊢
  generalize years / 100 = centuries at fewer ⊢
  generalize years / 400 = fourths
  by_cases isFourth : (years + 1) % 400 = 0
  · simp only [isFourth, fourth isFourth, century (fourth isFourth)]
    simp
    omega
  · by_cases isCentury : (years + 1) % 100 = 0
    · simp [isFourth, isCentury, century isCentury]
      omega
    · by_cases isMultiple : (years + 1) % 4 = 0
      · simp [isFourth, isCentury, isMultiple]
        omega
      · simp [isFourth, isCentury, isMultiple]
        omega

theorem daysBeforeMonth_succ {year month : Nat} (first : 1 ≤ month) (last : month < 12) :
    daysBeforeMonth year (month + 1) = daysBeforeMonth year month + daysInMonth year month := by
  rw [daysBeforeMonth, daysBeforeMonth, daysInMonth]
  generalize isLeap year = leap
  interval_cases month <;> cases leap <;> rfl

/-! ### Finding a period -/

/-- Periods of different lengths that follow one another: the period in which a day
falls, and the days of the period before it. -/
def locate (length : Nat → Nat) : Nat → Nat → Nat → Nat × Nat
  | 0, period, days => (period, days)
  | fuel + 1, period, days =>
      if days < length period then (period, days)
      else locate length fuel (period + 1) (days - length period)

section Locating

variable {length before : Nat → Nat} {fuel period days : Nat}

theorem locate_period : period ≤ (locate length fuel period days).1 ∧
    (locate length fuel period days).1 ≤ period + fuel := by
  induction fuel generalizing period days with
  | zero => exact ⟨Nat.le_refl _, Nat.le_refl _⟩
  | succ fuel inductionHypothesis =>
      rw [locate]
      split
      · exact ⟨Nat.le_refl _, Nat.le_add_right _ _⟩
      · obtain ⟨low, high⟩ := @inductionHypothesis (period + 1) (days - length period)
        exact ⟨by omega, by omega⟩

/-- No days are lost. -/
theorem locate_total
    (follows : ∀ p, period ≤ p → p < period + fuel → before (p + 1) = before p + length p) :
    before (locate length fuel period days).1 + (locate length fuel period days).2 =
      before period + days := by
  induction fuel generalizing period days with
  | zero => rfl
  | succ fuel inductionHypothesis =>
      rw [locate]
      split
      · rfl
      · rename_i outside
        rw [inductionHypothesis fun p low high => follows p (by omega) (by omega),
          follows period (Nat.le_refl _) (by omega)]
        omega

theorem locate_days
    (follows : ∀ p, period ≤ p → p < period + fuel → before (p + 1) = before p + length p)
    (inside : before period + days < before (period + fuel) + length (period + fuel)) :
    (locate length fuel period days).2 < length (locate length fuel period days).1 := by
  induction fuel generalizing period days with
  | zero => exact Nat.lt_of_add_lt_add_left inside
  | succ fuel inductionHypothesis =>
      rw [locate]
      split
      · assumption
      · have next := follows period (Nat.le_refl _) (by omega)
        have end_eq : period + 1 + fuel = period + (fuel + 1) := by omega
        refine inductionHypothesis (fun p low high => follows p (by omega) (by omega)) ?_
        rw [end_eq]
        omega

end Locating

/-! ### Dates from days -/

/-- The year of a day and its day in the year, so many days after 1 January 1970. -/
def yearOfDay (days : Nat) : Nat × Nat := locate daysInYear days 1970 days

def monthOfDay (year dayOfYear : Nat) : Nat × Nat := locate (daysInMonth year) 11 1 dayOfYear

def civil (days : Nat) : Nat × Nat × Nat :=
  let (year, dayOfYear) := yearOfDay days
  let (month, dayOfMonth) := monthOfDay year dayOfYear
  (year, month, dayOfMonth + 1)

theorem daysInYear_pos (year : Nat) : 0 < daysInYear year := by
  rw [daysInYear]
  split <;> decide

/-- Every year adds a day at least. -/
theorem le_daysBeforeYear (n : Nat) :
    daysBeforeYear 1970 + n ≤ daysBeforeYear (1970 + n) := by
  induction n with
  | zero => exact Nat.le_refl _
  | succ n inductionHypothesis =>
      have next : daysBeforeYear (1970 + n + 1) = daysBeforeYear (1970 + n) + daysInYear (1970 + n) :=
        daysBeforeYear_succ (by omega)
      have positive := daysInYear_pos (1970 + n)
      rw [← Nat.add_assoc, ← Nat.add_assoc, next]
      omega

theorem yearOfDay_spec (days : Nat) :
    1970 ≤ (yearOfDay days).1 ∧ (yearOfDay days).2 < daysInYear (yearOfDay days).1 ∧
      daysBeforeYear (yearOfDay days).1 + (yearOfDay days).2 = daysBeforeYear 1970 + days := by
  have follows : ∀ p, 1970 ≤ p → p < 1970 + days →
      daysBeforeYear (p + 1) = daysBeforeYear p + daysInYear p :=
    fun p low _ => daysBeforeYear_succ (by omega)
  refine ⟨locate_period.1, locate_days follows ?_, locate_total follows⟩
  have enough := le_daysBeforeYear days
  have positive := daysInYear_pos (1970 + days)
  omega

theorem daysInYear_eq (year : Nat) :
    daysInYear year = daysBeforeMonth year 12 + daysInMonth year 12 := by
  rw [daysInYear, daysBeforeMonth, daysInMonth]
  cases isLeap year <;> rfl

theorem monthOfDay_spec {year dayOfYear : Nat} (inside : dayOfYear < daysInYear year) :
    1 ≤ (monthOfDay year dayOfYear).1 ∧ (monthOfDay year dayOfYear).1 ≤ 12 ∧
      (monthOfDay year dayOfYear).2 < daysInMonth year (monthOfDay year dayOfYear).1 ∧
      daysBeforeMonth year (monthOfDay year dayOfYear).1 + (monthOfDay year dayOfYear).2 =
        dayOfYear := by
  have follows : ∀ p, 1 ≤ p → p < 1 + 11 →
      daysBeforeMonth year (p + 1) = daysBeforeMonth year p + daysInMonth year p :=
    fun p low high => daysBeforeMonth_succ low (by omega)
  have first : daysBeforeMonth year 1 + dayOfYear = dayOfYear := Nat.zero_add _
  refine ⟨locate_period.1, locate_period.2, locate_days follows ?_,
    (locate_total follows).trans first⟩
  rw [first]
  exact daysInYear_eq year ▸ inside

theorem daysInMonth_le {year month : Nat} (first : 1 ≤ month) (last : month ≤ 12) :
    daysInMonth year month ≤ 31 := by
  rw [daysInMonth]
  generalize isLeap year = leap
  interval_cases month <;> cases leap <;> decide

/-- The fields of a date are in their ranges and have the ordinal of the day. -/
theorem civil_spec (days : Nat) :
    1970 ≤ (civil days).1 ∧ 1 ≤ (civil days).2.1 ∧ (civil days).2.1 ≤ 12 ∧
      1 ≤ (civil days).2.2 ∧ (civil days).2.2 ≤ 31 ∧
      toordinal (civil days).1 (civil days).2.1 (civil days).2.2 = toordinal 1970 1 1 + days := by
  obtain ⟨low, inYear, years⟩ := yearOfDay_spec days
  obtain ⟨first, last, inMonth, months⟩ := monthOfDay_spec inYear
  have length := @daysInMonth_le (yearOfDay days).1 _ first last
  have before : daysBeforeMonth 1970 1 = 0 := rfl
  refine ⟨low, first, last, Nat.le_add_left _ _, Nat.lt_of_lt_of_le inMonth length, ?_⟩
  simp only [toordinal, civil]
  omega

end Calendar
