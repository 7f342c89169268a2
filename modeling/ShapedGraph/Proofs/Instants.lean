import ShapedGraph.Proofs.DateTime

/-! Which texts are date-times, and which date-times their text keeps. A text is read if and only if
it is a literal whose day and times exist, as the point in time that it means. What was read is
written as the text that it was read from, but for the form of the offset, and read back from it. A
date-time that was made from a timestamp and an offset comes back from its text if and only if the
text has room for it. The hour and the minute of an offset tell all of it but the sign of an offset
below an hour. -/

namespace ShapedGraph.DateTime

/-! ## Texts that are read -/

theorem Literal.Proper.exists_means {l : Literal} (proper : l.Proper) : ∃ t, l.Means t :=
  ⟨⟨Calendar.dayNumber l.date * 86400 + (l.hour * 3600 + l.minute * 60 + min l.second 59 : Nat) -
      l.zone.seconds, l.zone.seconds, decide (l.second = 60), proper.zone.bounds.1⟩,
    rfl, ⟨_, Calendar.isDay_iff.mpr ⟨proper.isValid, rfl⟩, rfl⟩, rfl⟩

theorem parse?_eq_some_iff {s : String} {t : DateTime} : parse? s = some t ↔
    ∃ l : Literal, l.Proper ∧ s.toList = l.chars ∧ l.Means t := by
  simp only [parse?, ofChars?_eq_some_iff, Bool.false_eq_true, false_implies, true_and]

theorem parseStamp?_eq_some_iff {s : String} {t : DateTime} : parseStamp? s = some t ↔
    ∃ l : Literal, l.Proper ∧ s.toList = l.chars ∧ l.zone ≠ .missing ∧ l.Means t := by
  simp only [parseStamp?, ofChars?_eq_some_iff, true_implies]

theorem parse?_of_parseStamp? {s : String} {t : DateTime} (read : parseStamp? s = some t) :
    parse? s = some t := by
  obtain ⟨l, proper, written, -, means⟩ := parseStamp?_eq_some_iff.mp read
  exact parse?_eq_some_iff.mpr ⟨l, proper, written, means⟩

/-- The offset of a date-time that was read is a whole number of minutes. -/
theorem emod_of_parse? {s : String} {t : DateTime} (read : parse? s = some t) :
    t.offset % 60 = 0 := by
  obtain ⟨l, proper, -, means⟩ := parse?_eq_some_iff.mp read
  exact means.offset ▸ proper.zone.bounds.2

/-- The literals whose day and times exist are read, as stamps only where they have an offset, and
nothing else is. What is read is what the literal means. -/
theorem parse?_iff_literal (s : String) :
    ((parse? s).isSome = true ↔ ∃ l : Literal, l.Proper ∧ s.toList = l.chars) ∧
      ((parseStamp? s).isSome = true ↔
        ∃ l : Literal, l.Proper ∧ s.toList = l.chars ∧ l.zone ≠ .missing) ∧
      ∀ (l : Literal) (t : DateTime), l.Proper → s.toList = l.chars →
        parse? s = some t ∨ parseStamp? s = some t → l.Means t := by
  refine ⟨?_, ?_, ?_⟩
  · rw [Option.isSome_iff_exists]
    constructor
    · rintro ⟨t, read⟩
      obtain ⟨l, proper, written, -⟩ := parse?_eq_some_iff.mp read
      exact ⟨l, proper, written⟩
    · rintro ⟨l, proper, written⟩
      obtain ⟨t, means⟩ := proper.exists_means
      exact ⟨t, parse?_eq_some_iff.mpr ⟨l, proper, written, means⟩⟩
  · rw [Option.isSome_iff_exists]
    constructor
    · rintro ⟨t, read⟩
      obtain ⟨l, proper, written, given, -⟩ := parseStamp?_eq_some_iff.mp read
      exact ⟨l, proper, written, given⟩
    · rintro ⟨l, proper, written, given⟩
      obtain ⟨t, means⟩ := proper.exists_means
      exact ⟨t, parseStamp?_eq_some_iff.mpr ⟨l, proper, written, given, means⟩⟩
  · intro l t proper written read
    have read : parse? s = some t := read.elim id parse?_of_parseStamp?
    obtain ⟨t', means⟩ := proper.exists_means
    have read' := parse?_eq_some_iff.mpr ⟨l, proper, written, means⟩
    rw [read] at read'
    exact Option.some.inj read' ▸ means

/-- A second added to the leap day of the year zero, on a clock almost a day behind. -/
theorem leapDay_read : ∃ (l : Literal) (t : DateTime), l.Proper ∧
    "0000-02-29T23:59:60-23:59".toList = l.chars ∧ parse? "0000-02-29T23:59:60-23:59" = some t ∧
      l.Means t ∧ t.offset = -86340 ∧ t.timestamp = -62161948861 := by
  have proper : Literal.Proper ⟨0, 2, 29, 23, 59, 60, .signed true 23 59⟩ :=
    ⟨by decide, by decide, by decide, by decide, by decide, by decide, by decide, by decide⟩
  have read : parse? "0000-02-29T23:59:60-23:59" =
      some ⟨-62161948861, -86340, true, by decide⟩ := rfl
  exact ⟨_, _, proper, rfl, read, (parse?_iff_literal _).2.2 _ _ proper rfl (.inl read), rfl, rfl⟩

/-! ## The text of what was read -/

/-- A date-time that a literal means is read back from its text, as a stamp too. -/
theorem parseStamp?_text {l : Literal} {t : DateTime} (proper : l.Proper) (means : l.Means t) :
    parseStamp? t.text = some t := by
  rw [parseStamp?, toList_text]
  exact ofChars?_chars_of_means proper means true

/-- A date-time that was read is written with the date and the time of day that it was read from,
and with the same offset, where universal time has its letter. That text is read as the same
date-time, as a stamp too, and is the text of what is read from it. -/
theorem text_of_parse? {s : String} {t : DateTime} (read : parse? s = some t) :
    t.text.toList = s.toList.take 19 ++
        (if s.toList.drop 19 = [] ∨ t.offset = 0 then ['Z'] else s.toList.drop 19) ∧
      parse? t.text = some t ∧ parseStamp? t.text = some t ∧
        ∀ u, parse? t.text = some u ∨ parseStamp? t.text = some u → u.text = t.text := by
  obtain ⟨l, proper, source, means⟩ := parse?_eq_some_iff.mp read
  have front : s.toList.take 19 = l.clock := source ▸ List.take_left' l.length_clock
  have back : s.toList.drop 19 = l.zone.chars := source ▸ List.drop_left' l.length_clock
  have stamp := parseStamp?_text proper means
  have again := parse?_of_parseStamp? stamp
  refine ⟨?_, again, stamp, ?_⟩
  · rw [toList_text, chars_of_means proper means, front, back, means.offset,
      ← l.zone.chars_canonical]
    rfl
  · intro u reread
    have reread : parse? t.text = some u := reread.elim id parse?_of_parseStamp?
    rw [Option.some.inj (again.symm.trans reread)]

/-- An offset of no minutes, ahead or behind, becomes the letter of universal time, and the second
that was added stays. -/
theorem addedSecond_kept : ∃ t, parse? "2016-12-31T23:59:60-00:00" = some t ∧
    t.text = "2016-12-31T23:59:60Z" ∧ parseStamp? t.text = some t := by
  have read : parse? "2016-12-31T23:59:60-00:00" =
      some ⟨1483228799, 0, true, by decide⟩ := by decide +kernel
  obtain ⟨text, -, stamp, -⟩ := text_of_parse? read
  refine ⟨_, read, String.toList_injective (text.trans ?_), stamp⟩
  rw [if_pos (.inr rfl)]
  rfl

/-! ## The text of what was made -/

theorem ofTimestamp?_eq_some {timestamp offset : Int} {t : DateTime}
    (made : ofTimestamp? timestamp offset = some t) :
    t.timestamp = timestamp ∧ t.offset = offset ∧ t.isLeapSecond = false := by
  unfold ofTimestamp? at made
  split at made
  · split at made
    · cases made
      exact ⟨rfl, rfl, rfl⟩
    · cases made
  · cases made

/-- No text that begins with a sign is read. -/
theorem ofChars?_cons_eq_none (required : Bool) {sign : Char} (digit : sign.isDigit = false)
    (cs : List Char) : ofChars? required (sign :: cs) = none := by
  simp [ofChars?, readDigits, digit]

/-- A year without a sign in front of it has at most four digits. -/
theorem year_of_ofChars?_chars {required : Bool} {t u : DateTime}
    (read : ofChars? required t.chars = some u) :
    0 ≤ (Calendar.dateOf ((t.timestamp + t.offset) / 86400)).year ∧
      (Calendar.dateOf ((t.timestamp + t.offset) / 86400)).year ≤ 9999 := by
  rw [chars, yearChars] at read
  split at read
  · rw [List.cons_append, ofChars?_cons_eq_none required (by decide)] at read
    cases read
  · split at read
    · rw [List.cons_append, ofChars?_cons_eq_none required (by decide)] at read
      cases read
    · omega

/-- Some literal means the point in time if its offset is a whole number of minutes and the local
clock shows a year of four digits. -/
theorem exists_literal {t : DateTime} {date : Date}
    (today : Calendar.IsDay ((t.timestamp + t.offset) / 86400) date)
    (plain : t.isLeapSecond = false) (minutes : t.offset % 60 = 0) (start : 0 ≤ date.year)
    (finish : date.year ≤ 9999) : ∃ l : Literal, l.Proper ∧ l.Means t := by
  obtain ⟨zone, proper, seconds⟩ := Zone.exists_proper t.offset_lt minutes
  obtain ⟨year, month, day⟩ := date
  obtain ⟨year, rfl⟩ := Int.eq_ofNat_of_zero_le start
  have year4 : year ≤ 9999 := Int.ofNat_le.mp finish
  obtain ⟨firstMonth, lastMonth, days⟩ := Calendar.isValid_iff.mp today.valid
  generalize spent : ((t.timestamp + t.offset) % 86400).toNat = second
  have short : second < 86400 := by omega
  refine ⟨⟨year, month, day, second / 3600, second / 60 % 60, second % 60, zone⟩, ?_, ?_⟩
  · exact ⟨year4, ⟨firstMonth, lastMonth⟩, days, show second / 3600 ≤ 23 by omega,
      show second / 60 % 60 ≤ 59 by omega, show second % 60 ≤ 60 by omega, proper⟩
  · refine ⟨seconds.symm, ⟨_, today, ?_⟩, ?_⟩
    · simp only [seconds]; omega
    · have added : second % 60 ≠ 60 := by omega
      rw [plain, decide_eq_false added]

/-- A date-time that was made from a timestamp and an offset is read back from its text, with this
timestamp and offset, if and only if the offset is a whole number of minutes and the local clock
shows a year of four digits. -/
theorem reread_ofTimestamp?_iff {timestamp offset : Int} {t : DateTime}
    (made : ofTimestamp? timestamp offset = some t) :
    ∃ date, Calendar.IsDay ((timestamp + offset) / 86400) date ∧
      ((∃ u, parse? t.text = some u ∧ u.timestamp = timestamp ∧ u.offset = offset) ↔
        offset % 60 = 0 ∧ 0 ≤ date.year ∧ date.year ≤ 9999) := by
  obtain ⟨rfl, rfl, plain⟩ := ofTimestamp?_eq_some made
  have today := Calendar.isDay_dateOf ((t.timestamp + t.offset) / 86400)
  refine ⟨_, today, ?_, ?_⟩
  · rintro ⟨u, read, -, same⟩
    have minutes := emod_of_parse? read
    rw [parse?, toList_text] at read
    exact ⟨same ▸ minutes, year_of_ofChars?_chars read⟩
  · rintro ⟨minutes, start, finish⟩
    obtain ⟨l, proper, means⟩ := exists_literal today plain minutes start finish
    exact ⟨t, parse?_of_parseStamp? (parseStamp?_text proper means), rfl, rfl⟩

/-- The last second of the year 9999 on a clock almost a day behind, which in universal time lies in
the year 10000. -/
theorem lastYear_kept : ∃ t u, ofTimestamp? 253402387139 (-86340) = some t ∧
    parse? t.text = some u ∧ u.timestamp = 253402387139 ∧ u.offset = -86340 := by
  have made : ofTimestamp? 253402387139 (-86340) =
      some ⟨253402387139, -86340, false, by decide⟩ := rfl
  obtain ⟨date, today, rereads⟩ := reread_ofTimestamp?_iff made
  rw [Calendar.isDay_iff_eq_dateOf] at today
  subst today
  obtain ⟨u, read, same⟩ := rereads.mpr (by decide)
  exact ⟨_, u, made, read, same⟩

/-! ## Hour and minute of an offset -/

theorem offsetHour_eq (t : DateTime) : t.offsetHour =
    if t.offset < 0 then -((t.offset.natAbs / 3600 : Nat) : Int)
    else (t.offset.natAbs / 3600 : Nat) := by
  unfold offsetHour
  generalize t.offset = offset
  split
  · rename_i negative
    obtain ⟨n, rfl⟩ : ∃ n : Nat, offset = -(n : Int) := ⟨offset.natAbs, by omega⟩
    rw [Int.neg_tdiv, Int.natAbs_neg, Int.natAbs_natCast]
    rfl
  · obtain ⟨n, rfl⟩ : ∃ n : Nat, offset = n := ⟨offset.natAbs, by omega⟩
    rfl

/-- The hour has the sign of the offset, unless it is zero. -/
theorem sign_offsetHour (t : DateTime) :
    t.offsetHour.sign = if t.offset.natAbs < 3600 then 0 else t.offset.sign := by
  rw [t.offsetHour_eq]
  by_cases short : t.offset.natAbs < 3600
  · rw [if_pos short, Nat.div_eq_of_lt short]
    split <;> rfl
  · rw [if_neg short]
    split
    · rw [Int.sign_eq_neg_one_of_neg (by omega), Int.sign_eq_neg_one_of_neg (by omega)]
    · rw [Int.sign_eq_one_of_pos (by omega), Int.sign_eq_one_of_pos (by omega)]

/-- Hour and minute tell the offset of a date-time that was read, but not the sign of an offset
below an hour. The minute counts forward whatever the sign, and an hour that is not zero has the
sign of the offset. -/
theorem offsetHour_offsetMinute_eq_iff {s s' : String} {t t' : DateTime}
    (read : parse? s = some t) (read' : parse? s' = some t') :
    (t.offsetHour = t'.offsetHour ∧ t.offsetMinute = t'.offsetMinute ↔
      t.offset = t'.offset ∨ t.offset = -t'.offset ∧ t.offset.natAbs < 3600) ∧
    t.offset.natAbs = t.offsetHour.natAbs * 3600 + t.offsetMinute * 60 ∧
      t.offsetHour.sign = if t.offset.natAbs < 3600 then 0 else t.offset.sign := by
  have minutes := emod_of_parse? read
  have minutes' := emod_of_parse? read'
  refine ⟨?_, ?_, t.sign_offsetHour⟩
  · rw [t.offsetHour_eq, t'.offsetHour_eq, offsetMinute, offsetMinute]
    constructor
    · rintro ⟨hour, minute⟩
      split at hour <;> split at hour <;> omega
    · intro same
      split <;> split <;> omega
  · rw [t.offsetHour_eq, offsetMinute]
    split <;> omega

/-- Five and a half hours behind differ from five and a half hours ahead in the hour. -/
theorem behind_told : ∃ t t', parse? "2024-01-01T00:00:00-05:30" = some t ∧
    parse? "2024-01-01T00:00:00+05:30" = some t' ∧
      ¬(t.offsetHour = t'.offsetHour ∧ t.offsetMinute = t'.offsetMinute) ∧
        t.offsetHour.sign = -1 ∧ t.offsetMinute = 30 := by
  have read : parse? "2024-01-01T00:00:00-05:30" =
      some ⟨1704087000, -19800, false, by decide⟩ := by decide +kernel
  have read' : parse? "2024-01-01T00:00:00+05:30" =
      some ⟨1704047400, 19800, false, by decide⟩ := by decide +kernel
  obtain ⟨told, -, sign⟩ := offsetHour_offsetMinute_eq_iff read read'
  exact ⟨_, _, read, read', told.not.mpr (by decide), sign, rfl⟩

/-- Half an hour ahead and half an hour behind have the same hour and minute. -/
theorem halfHours_alike : ∃ t t', parse? "2024-01-01T00:00:00+00:30" = some t ∧
    parse? "2024-01-01T00:00:00-00:30" = some t' ∧ t.offsetHour = t'.offsetHour ∧
      t.offsetMinute = t'.offsetMinute ∧ t.offset ≠ t'.offset := by
  have read : parse? "2024-01-01T00:00:00+00:30" =
      some ⟨1704065400, 1800, false, by decide⟩ := by decide +kernel
  have read' : parse? "2024-01-01T00:00:00-00:30" =
      some ⟨1704069000, -1800, false, by decide⟩ := by decide +kernel
  exact ⟨_, _, read, read', rfl, rfl, by decide⟩

end ShapedGraph.DateTime
