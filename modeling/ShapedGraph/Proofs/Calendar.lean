import ShapedGraph.Calendar

/-! The calendar's two directions undo each other: the date of the day number of a date that exists
is that date. Years are found from an estimate and months by a search: a day lies in the year and in
the month that are found for it, and it lies in no other. -/

namespace ShapedGraph.Calendar

theorem isValid_iff {date : Date} : isValid date = true ↔
    1 ≤ date.month ∧ date.month ≤ 12 ∧
      1 ≤ date.day ∧ date.day ≤ daysInMonth (isLeapYear date.year) date.month := by
  rw [isValid, decide_eq_true_eq]

theorem daysInMonth_bounds (leap : Bool) (month : Nat) :
    28 ≤ daysInMonth leap month ∧ daysInMonth leap month ≤ 31 := by
  unfold daysInMonth
  split <;> (try split) <;> omega

/-- A year is as long as its months together. -/
theorem daysBeforeYear_succ (year : Int) :
    daysBeforeYear (year + 1) = daysBeforeYear year + if isLeapYear year then 366 else 365 := by
  unfold daysBeforeYear isLeapYear
  split <;> simp_all <;> omega

theorem daysBeforeYear_mono {year later : Int} (h : year ≤ later) :
    daysBeforeYear year ≤ daysBeforeYear later := by
  unfold daysBeforeYear; omega

/-- Every day lies in the year that is found for it: the estimate is off by one year at most, so one
step corrects it. -/
theorem yearOf_bounds (day : Int) :
    daysBeforeYear (yearOf day) ≤ day ∧ day < daysBeforeYear (yearOf day + 1) := by
  have lower : daysBeforeYear (day * 400 / 146097 - 1) ≤ day := by
    unfold daysBeforeYear; omega
  have upper : day < daysBeforeYear (day * 400 / 146097 + 2) := by
    unfold daysBeforeYear; omega
  unfold yearOf
  generalize day * 400 / 146097 = estimate at lower upper ⊢
  simp only
  split
  · rw [show estimate - 1 + 1 = estimate by omega]
    omega
  · split
    · rw [show estimate + 1 + 1 = estimate + 2 by omega]
      omega
    · omega

/-- A day of a year lies in no other year. -/
theorem yearOf_eq {year day : Int} (start : daysBeforeYear year ≤ day)
    (finish : day < daysBeforeYear (year + 1)) : yearOf day = year := by
  obtain ⟨lower, upper⟩ := yearOf_bounds day
  obtain earlier | same | later := Int.lt_trichotomy (yearOf day) year
  · have := daysBeforeYear_mono (show yearOf day + 1 ≤ year by omega)
    omega
  · exact same
  · have := daysBeforeYear_mono (show year + 1 ≤ yearOf day by omega)
    omega

theorem daysBeforeMonth_succ (leap : Bool) {month : Nat} (first : 1 ≤ month) :
    daysBeforeMonth leap (month + 1) = daysBeforeMonth leap month + daysInMonth leap month := by
  obtain ⟨month, rfl⟩ : ∃ m, month = m + 1 := ⟨month - 1, by omega⟩
  rfl

/-- A month is over before a later one starts. -/
theorem daysBeforeMonth_add_le_of_lt (leap : Bool) {month later : Nat} (first : 1 ≤ month)
    (h : month < later) :
    daysBeforeMonth leap month + daysInMonth leap month ≤ daysBeforeMonth leap later := by
  induction h with
  | refl => exact Nat.le_of_eq (daysBeforeMonth_succ leap first).symm
  | @step between after ih =>
    have : 1 ≤ between := Nat.le_trans (Nat.le_add_left 1 month) after
    rw [daysBeforeMonth_succ leap this]
    exact Nat.le_add_right_of_le ih

/-- A year ends with its twelfth month. -/
theorem daysBeforeMonth_twelve (leap : Bool) :
    daysBeforeMonth leap 12 + daysInMonth leap 12 = if leap then 366 else 365 := by
  cases leap <;> rfl

theorem daysBeforeMonth_add_le (leap : Bool) {month : Nat} (first : 1 ≤ month)
    (last : month ≤ 12) :
    daysBeforeMonth leap month + daysInMonth leap month ≤ if leap then 366 else 365 := by
  rw [← daysBeforeMonth_twelve]
  obtain before | rfl : month < 12 ∨ month = 12 := by omega
  · exact Nat.le_add_right_of_le (daysBeforeMonth_add_le_of_lt leap first before)
  · exact Nat.le_refl _

/-- Every day of a year lies in the month that is found for it. -/
theorem monthOf_bounds {leap : Bool} {day : Nat} (short : day < if leap then 366 else 365) :
    1 ≤ monthOf leap day ∧ monthOf leap day ≤ 12 ∧ daysBeforeMonth leap (monthOf leap day) ≤ day ∧
      day < daysBeforeMonth leap (monthOf leap day) + daysInMonth leap (monthOf leap day) := by
  have all : ∀ leap, ∀ d < 366, (d < if leap then 366 else 365) →
      1 ≤ monthOf leap d ∧ monthOf leap d ≤ 12 ∧ daysBeforeMonth leap (monthOf leap d) ≤ d ∧
        d < daysBeforeMonth leap (monthOf leap d) + daysInMonth leap (monthOf leap d) := by
    decide +kernel
  exact all leap day (by split at short <;> omega) short

/-- A day of a month lies in no other month. -/
theorem monthOf_eq {leap : Bool} {month day : Nat} (first : 1 ≤ month) (last : month ≤ 12)
    (short : day < daysInMonth leap month) :
    monthOf leap (daysBeforeMonth leap month + day) = month := by
  have room := daysBeforeMonth_add_le leap first last
  obtain ⟨first', -, lower, upper⟩ :=
    monthOf_bounds (show daysBeforeMonth leap month + day < if leap then 366 else 365 by omega)
  obtain earlier | same | later :=
    Nat.lt_trichotomy (monthOf leap (daysBeforeMonth leap month + day)) month
  · have := daysBeforeMonth_add_le_of_lt leap first' earlier
    omega
  · exact same
  · have := daysBeforeMonth_add_le_of_lt leap first later
    omega

/-- The date of the day number of a date that exists is that date. -/
theorem dateOf_dayNumber {date : Date} (valid : isValid date = true) :
    dateOf (dayNumber date) = date := by
  obtain ⟨year, month, day⟩ := date
  simp only [isValid_iff] at valid
  obtain ⟨firstMonth, lastMonth, firstDay, lastDay⟩ := valid
  have room := daysBeforeMonth_add_le (isLeapYear year) firstMonth lastMonth
  have short : day - 1 < daysInMonth (isLeapYear year) month := by omega
  have number : dayNumber ⟨year, month, day⟩ + epochOffset =
      daysBeforeYear year + (daysBeforeMonth (isLeapYear year) month + (day - 1) : Nat) := by
    unfold dayNumber; simp only; omega
  have here : yearOf (dayNumber ⟨year, month, day⟩ + epochOffset) = year := by
    apply yearOf_eq
    · omega
    · rw [daysBeforeYear_succ]
      cases leap : isLeapYear year <;> simp [leap] at room number short ⊢ <;> omega
  have rest : (dayNumber ⟨year, month, day⟩ + epochOffset - daysBeforeYear year).toNat =
      daysBeforeMonth (isLeapYear year) month + (day - 1) := by omega
  unfold dateOf
  simp only [here, rest, monthOf_eq firstMonth lastMonth short]
  congr 1
  omega

end ShapedGraph.Calendar
