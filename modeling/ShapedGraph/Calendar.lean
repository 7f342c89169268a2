/-! The Gregorian calendar, extended to all years before and after its adoption. Days are numbered
from the first of January 1970, and years count through zero to the negative ones. -/

namespace ShapedGraph

/-- A day of the calendar; months and days count from one. -/
structure Date where
  year : Int
  month : Nat
  day : Nat
deriving DecidableEq

namespace Calendar

def isLeapYear (year : Int) : Bool := year % 4 = 0 ∧ (year % 100 ≠ 0 ∨ year % 400 = 0)

/-- The number of days from the start of year zero to the start of `year`. -/
def daysBeforeYear (year : Int) : Int :=
  365 * year + (year + 3) / 4 - (year + 99) / 100 + (year + 399) / 400

def daysInMonth (leap : Bool) : Nat → Nat
  | 2 => if leap then 29 else 28
  | 4 | 6 | 9 | 11 => 30
  | _ => 31

/-- The number of days from the start of a year to the start of a month. -/
def daysBeforeMonth (leap : Bool) : Nat → Nat
  | 0 | 1 => 0
  | month + 2 => daysBeforeMonth leap (month + 1) + daysInMonth leap (month + 1)

/-- The day number of the start of year zero, counted backwards from 1970. -/
def epochOffset : Int := 719528

/-- The date exists: its month is one of the year's and its day one of the month's. -/
def isValid (date : Date) : Bool :=
  1 ≤ date.month ∧ date.month ≤ 12 ∧
    1 ≤ date.day ∧ date.day ≤ daysInMonth (isLeapYear date.year) date.month

/-- The number of a day, with the first of January 1970 as day zero. -/
def dayNumber (date : Date) : Int :=
  daysBeforeYear date.year + daysBeforeMonth (isLeapYear date.year) date.month + date.day - 1 -
    epochOffset

/-- The year that holds a day counted from the start of year zero. The mean length of a year gives
an estimate that is off by one at most. -/
def yearOf (day : Int) : Int :=
  let estimate := day * 400 / 146097
  if day < daysBeforeYear estimate then estimate - 1
  else if daysBeforeYear (estimate + 1) ≤ day then estimate + 1
  else estimate

/-- The last month that starts on or before a day of the year counted from zero. -/
def monthOf (leap : Bool) (day : Nat) : Nat :=
  ([12, 11, 10, 9, 8, 7, 6, 5, 4, 3, 2].find? (daysBeforeMonth leap · ≤ day)).getD 1

def dateOf (number : Int) : Date :=
  let day := number + epochOffset
  let year := yearOf day
  let leap := isLeapYear year
  let rest := (day - daysBeforeYear year).toNat
  let month := monthOf leap rest
  ⟨year, month, rest - daysBeforeMonth leap month + 1⟩

end Calendar

end ShapedGraph
