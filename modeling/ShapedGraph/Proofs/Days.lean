import ShapedGraph.Proofs.Calendar
import Mathlib.Logic.Function.Iterate

/-! The calendar as days that follow one another. The number of a day says how many steps from a day
to the day after it lead to it from the first of January 1970, or from it to there if it is earlier,
and every number is the number of exactly one day that exists. -/

namespace ShapedGraph.Calendar

/-- The first of January 1970. -/
def epoch : Date := ⟨1970, 1, 1⟩

/-- The day after a day. -/
def next (date : Date) : Date :=
  if date.day < daysInMonth (isLeapYear date.year) date.month then
    ⟨date.year, date.month, date.day + 1⟩
  else if date.month < 12 then ⟨date.year, date.month + 1, 1⟩
  else ⟨date.year + 1, 1, 1⟩

/-- `date` exists and is `days` days after the first of January 1970, or before it where `days` is
negative. -/
structure IsDay (days : Int) (date : Date) : Prop where
  valid : isValid date = true
  reached : next^[days.toNat] epoch = next^[(-days).toNat] date

/-! ## Steps -/

theorem isValid_next {date : Date} (valid : isValid date = true) : isValid (next date) = true := by
  rw [isValid_iff] at valid
  obtain ⟨firstMonth, lastMonth, firstDay, lastDay⟩ := valid
  unfold next
  split
  · rw [isValid_iff]; simp only; omega
  · split
    · have := daysInMonth_bounds (isLeapYear date.year) (date.month + 1)
      rw [isValid_iff]; simp only; omega
    · have := daysInMonth_bounds (isLeapYear (date.year + 1)) 1
      rw [isValid_iff]; simp only; omega

/-- The first day of a year follows the last day of December. -/
theorem daysBeforeYear_eq_december (year : Int) : daysBeforeYear (year + 1) = daysBeforeYear year +
    (daysBeforeMonth (isLeapYear year) 12 + daysInMonth (isLeapYear year) 12 : Nat) := by
  rw [daysBeforeYear_succ, daysBeforeMonth_twelve]
  split <;> rfl

theorem dayNumber_next {date : Date} (valid : isValid date = true) :
    dayNumber (next date) = dayNumber date + 1 := by
  rw [isValid_iff] at valid
  obtain ⟨firstMonth, lastMonth, firstDay, lastDay⟩ := valid
  by_cases inMonth : date.day < daysInMonth (isLeapYear date.year) date.month
  · rw [next, if_pos inMonth]
    simp only [dayNumber]; omega
  by_cases inYear : date.month < 12
  · have month := daysBeforeMonth_succ (isLeapYear date.year) firstMonth
    rw [next, if_neg inMonth, if_pos inYear]
    simp only [dayNumber]; omega
  · have december : date.month = 12 := by omega
    have year := daysBeforeYear_eq_december date.year
    have january : daysBeforeMonth (isLeapYear (date.year + 1)) 1 = 0 := rfl
    rw [next, if_neg inMonth, if_neg inYear]
    rw [december] at inMonth lastDay
    simp only [dayNumber, december, january]; omega

theorem isValid_iterate_next {date : Date} (valid : isValid date = true) (count : Nat) :
    isValid (next^[count] date) = true := by
  induction count with
  | zero => exact valid
  | succ count ih =>
    rw [Function.iterate_succ_apply']
    exact isValid_next ih

theorem dayNumber_iterate_next {date : Date} (valid : isValid date = true) (count : Nat) :
    dayNumber (next^[count] date) = dayNumber date + count := by
  induction count with
  | zero => exact (Int.add_zero _).symm
  | succ count ih =>
    rw [Function.iterate_succ_apply', dayNumber_next (isValid_iterate_next valid count), ih]
    omega

/-! ## Numbers and days -/

theorem eq_of_dayNumber_eq {first second : Date} (valid : isValid first = true)
    (valid' : isValid second = true) (same : dayNumber first = dayNumber second) :
    first = second := by
  rw [← dateOf_dayNumber valid, same, dateOf_dayNumber valid']

theorem isValid_epoch : isValid epoch = true := by decide

theorem dayNumber_epoch : dayNumber epoch = 0 := by decide

/-- The number of a day counts the steps. -/
theorem isDay_iff {days : Int} {date : Date} :
    IsDay days date ↔ isValid date = true ∧ dayNumber date = days := by
  have forwards := dayNumber_iterate_next isValid_epoch days.toNat
  rw [dayNumber_epoch] at forwards
  constructor
  · intro ⟨valid, reached⟩
    have backwards := dayNumber_iterate_next valid (-days).toNat
    rw [reached] at forwards
    exact ⟨valid, by omega⟩
  · intro ⟨valid, number⟩
    have backwards := dayNumber_iterate_next valid (-days).toNat
    exact ⟨valid, eq_of_dayNumber_eq (isValid_iterate_next isValid_epoch _)
      (isValid_iterate_next valid _) (by omega)⟩

/-- The date of a number is the day with this number. -/
theorem isDay_dateOf (days : Int) : IsDay days (dateOf days) := by
  obtain ⟨start, finish⟩ := yearOf_bounds (days + epochOffset)
  rw [daysBeforeYear_succ] at finish
  generalize rest : (days + epochOffset - daysBeforeYear (yearOf (days + epochOffset))).toNat = day
  have short : day < if isLeapYear (yearOf (days + epochOffset)) then 366 else 365 := by
    cases leap : isLeapYear (yearOf (days + epochOffset)) <;> simp [leap] at finish ⊢ <;> omega
  obtain ⟨firstMonth, lastMonth, lower, upper⟩ := monthOf_bounds short
  rw [isDay_iff, isValid_iff]
  simp only [dateOf, dayNumber, rest]
  omega

/-- Every number is the number of exactly one day. -/
theorem isDay_iff_eq_dateOf {days : Int} {date : Date} : IsDay days date ↔ date = dateOf days := by
  constructor
  · intro day
    obtain ⟨valid, rfl⟩ := isDay_iff.mp day
    exact (dateOf_dayNumber valid).symm
  · rintro rfl
    exact isDay_dateOf days

end ShapedGraph.Calendar
