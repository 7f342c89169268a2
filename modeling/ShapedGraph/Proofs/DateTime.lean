import ShapedGraph.DateTime
import ShapedGraph.Proofs.Days
import ShapedGraph.Proofs.Decimal

/-! Text of date-times. A literal is a text of the one form that is read, taken apart into numbers,
and what it means is counted in days of the calendar. The literals whose numbers are those of a
calendar and of a clock are read, as what they mean, and no other text is. A date-time that was read
has a text of its own, which may differ from the one it was read from, and reading that text gives
the same date-time again. -/

namespace ShapedGraph.DateTime

open Decimal (fixed)

/-! ## Numbers and marks -/

theorem padded_length {width n : Nat} (fits : (Decimal.chars n).length ≤ width) :
    (padded width n).length = width := by
  simp [padded]; omega

theorem padded_isDigit {width n : Nat} {c : Char} (h : c ∈ padded width n) :
    c.isDigit = true := by
  rw [padded, List.mem_append] at h
  rcases h with h | h
  · rw [List.eq_of_mem_replicate h]; decide
  · exact Decimal.chars_isDigit h

theorem ofChars_padded (width n : Nat) : Decimal.ofChars (padded width n) = n := by
  rw [padded, Decimal.ofChars_zeros_append, Decimal.ofChars_chars]

theorem padded_eq_fixed {width n : Nat} (positive : 0 < width) (small : n < Nat.pow 10 width) :
    padded width n = fixed width n := by
  have fits : (Decimal.chars n).length ≤ width := by
    simpa [Decimal.chars] using Decimal.digits_length_le positive small
  apply Decimal.ofChars_inj
  · rw [padded_length fits, Decimal.length_fixed]
  · exact List.all_eq_true.mpr fun _ => padded_isDigit
  · exact Decimal.isDigit_fixed width n
  · rw [ofChars_padded, Decimal.ofChars_fixed small]

theorem padded_two {n : Nat} (small : n < 100) : padded 2 n = fixed 2 n :=
  padded_eq_fixed (by decide) small

/-- What is read at a width is a number of that width, in its digits. -/
theorem readDigits_eq_some_iff {width n : Nat} {cs rest : List Char} :
    readDigits width cs = some (n, rest) ↔ n < Nat.pow 10 width ∧ cs = fixed width n ++ rest := by
  constructor
  · intro h
    simp only [readDigits] at h
    split at h
    · rename_i front
      obtain ⟨length, digits⟩ := front
      obtain ⟨rfl, rfl⟩ := Prod.mk.inj (Option.some.inj h)
      have small := Decimal.ofChars_lt digits
      have same := Decimal.fixed_ofChars digits
      rw [length] at small same
      exact ⟨small, by rw [same, List.take_append_drop]⟩
    · cases h
  · rintro ⟨small, rfl⟩
    have front : (fixed width n ++ rest).take width = fixed width n :=
      List.take_left' (Decimal.length_fixed width n)
    have back : (fixed width n ++ rest).drop width = rest :=
      List.drop_left' (Decimal.length_fixed width n)
    simp only [readDigits, front, back, Decimal.ofChars_fixed small]
    rw [if_pos ⟨Decimal.length_fixed width n, Decimal.isDigit_fixed width n⟩]

theorem readDigits_fixed {width n : Nat} (small : n < Nat.pow 10 width) (rest : List Char) :
    readDigits width (fixed width n ++ rest) = some (n, rest) :=
  readDigits_eq_some_iff.mpr ⟨small, rfl⟩

theorem readMark_eq_some_iff {c : Char} {cs rest : List Char} :
    readMark c cs = some rest ↔ cs = c :: rest := by
  cases cs with
  | nil => simp [readMark]
  | cons d cs =>
    by_cases same : d = c
    · simp [readMark, same]
    · simp [readMark, same]

/-! ## Offsets -/

/-- What stands behind the time of day: nothing, the letter of universal time, or a sign with hours
and minutes. -/
inductive Zone where
  | missing
  | universal
  | signed (negative : Bool) (hours minutes : Nat)

namespace Zone

def chars : Zone → List Char
  | missing => []
  | universal => ['Z']
  | signed negative hours minutes =>
    (if negative then '-' else '+') :: (fixed 2 hours ++ ':' :: fixed 2 minutes)

/-- The seconds that the local clock is ahead of universal time. -/
def seconds : Zone → Int
  | missing => 0
  | universal => 0
  | signed negative hours minutes =>
    let ahead : Int := (hours * 3600 + minutes * 60 : Nat)
    if negative then -ahead else ahead

/-- Hours and minutes are those of a clock. -/
def Proper : Zone → Prop
  | missing => True
  | universal => True
  | signed _ hours minutes => hours ≤ 23 ∧ minutes ≤ 59

/-- The form in which the offset is written: zero has a letter of its own. -/
def canonical (zone : Zone) : Zone := if zone.seconds = 0 then universal else zone

variable {zone : Zone}

theorem Proper.bounds (proper : zone.Proper) :
    zone.seconds.natAbs < 86400 ∧ zone.seconds % 60 = 0 := by
  cases zone with
  | missing => decide
  | universal => decide
  | signed negative hours minutes =>
    obtain ⟨hours, minutes⟩ := proper
    cases negative <;> simp only [seconds] <;> constructor <;> omega

/-- Every offset of whole minutes has a form. -/
theorem exists_proper {offset : Int} (small : offset.natAbs < 86400) (minutes : offset % 60 = 0) :
    ∃ zone : Zone, zone.Proper ∧ zone.seconds = offset := by
  refine ⟨.signed (decide (offset < 0)) (offset.natAbs / 3600) (offset.natAbs / 60 % 60),
    ⟨by omega, by omega⟩, ?_⟩
  by_cases negative : offset < 0
  · simp only [seconds, negative, decide_true, if_true]; omega
  · simp only [seconds, negative, decide_false, Bool.false_eq_true, if_false]; omega

theorem seconds_canonical (zone : Zone) : zone.canonical.seconds = zone.seconds := by
  unfold canonical
  split
  · rename_i zero; rw [zero]; rfl
  · rfl

theorem Proper.canonical (proper : zone.Proper) : zone.canonical.Proper := by
  unfold Zone.canonical
  split
  · trivial
  · exact proper

theorem canonical_ne_missing (zone : Zone) : zone.canonical ≠ missing := by
  unfold canonical
  split
  · nofun
  · rename_i nonzero
    rintro rfl
    exact nonzero rfl

theorem canonical_of_ne {zone : Zone} (nonzero : zone.seconds ≠ 0) : zone.canonical = zone :=
  if_neg nonzero

/-- An offset that is missing or zero has the letter of universal time in its canonical form, and
another one stays as it is. -/
theorem chars_canonical (zone : Zone) : zone.canonical.chars =
    if zone.chars = [] ∨ zone.seconds = 0 then ['Z'] else zone.chars := by
  by_cases zero : zone.seconds = 0
  · rw [if_pos (.inr zero), canonical, if_pos zero]
    rfl
  · have given : zone.chars ≠ [] := by
      cases zone with
      | missing => exact absurd rfl zero
      | universal => nofun
      | signed negative hours minutes => nofun
    rw [if_neg (not_or.mpr ⟨given, zero⟩), canonical_of_ne zero]

/-- An offset is written in its canonical form. -/
theorem Proper.offsetChars_seconds (proper : zone.Proper) :
    offsetChars zone.seconds = zone.canonical.chars := by
  by_cases zero : zone.seconds = 0
  · rw [offsetChars, if_pos zero, Zone.canonical, if_pos zero]
    rfl
  · rw [offsetChars, if_neg zero, canonical_of_ne zero]
    cases zone with
    | missing => exact absurd rfl zero
    | universal => exact absurd rfl zero
    | signed negative hours minutes =>
      obtain ⟨hhours, hminutes⟩ := proper
      have size : (signed negative hours minutes).seconds.natAbs = hours * 3600 + minutes * 60 := by
        cases negative <;> simp [seconds] <;> omega
      have sign : (signed negative hours minutes).seconds < 0 ↔ negative = true := by
        cases negative <;> simp [seconds] at zero ⊢ <;> omega
      have written : (hours * 3600 + minutes * 60 + 30) / 60 / 60 = hours ∧
          (hours * 3600 + minutes * 60 + 30) / 60 % 60 = minutes := by omega
      simp only [size, sign, written, chars, padded_two (show hours < 100 by omega),
        padded_two (show minutes < 100 by omega)]

end Zone

theorem readOffset_signed (required : Bool) {sign : Char} (h : sign = '+' ∨ sign = '-')
    (cs : List Char) :
    readOffset required (sign :: cs) =
      (readDigits 2 cs).bind fun (hours, cs) => (readMark ':' cs).bind fun cs =>
        (readDigits 2 cs).bind fun (minutes, cs) =>
          if cs = [] ∧ minutes < 60 then
            some (if sign = '-' then -((hours * 3600 + minutes * 60 : Nat) : Int)
              else (hours * 3600 + minutes * 60 : Nat))
          else none := by
  rcases h with rfl | rfl <;> simp [readOffset]

/-- Exactly the offsets of less than a day whose minutes are those of a clock are read. -/
theorem readOffset_eq_some_iff {required : Bool} {cs : List Char} {offset : Int} :
    (readOffset required cs = some offset ∧ offset.natAbs < 86400) ↔
      ∃ zone : Zone, zone.Proper ∧ cs = zone.chars ∧ zone.seconds = offset ∧
        (required = true → zone ≠ .missing) := by
  constructor
  · rintro ⟨h, small⟩
    cases cs with
    | nil =>
      simp only [readOffset] at h
      split at h
      · cases h
      · rename_i optional
        cases h
        exact ⟨.missing, trivial, rfl, rfl, fun required => absurd required optional⟩
    | cons sign cs =>
      by_cases signed : sign = '+' ∨ sign = '-'
      · rw [readOffset_signed required signed] at h
        simp only [Option.bind_eq_some_iff, Prod.exists, readDigits_eq_some_iff,
          readMark_eq_some_iff] at h
        obtain ⟨hours, _, ⟨-, rfl⟩, _, rfl, minutes, _, ⟨-, rfl⟩, h⟩ := h
        split at h
        · rename_i ends
          obtain ⟨rfl, less⟩ := ends
          cases h
          refine ⟨.signed (decide (sign = '-')) hours minutes, ⟨?_, by omega⟩, ?_, ?_, nofun⟩
          · split at small <;> omega
          · rcases signed with rfl | rfl <;> simp [Zone.chars]
          · simp only [Zone.seconds, decide_eq_true_eq]
        · cases h
      · -- Without a sign only the letter for universal time is left.
        unfold readOffset at h
        split at h
        · rename_i nil; cases nil
        · rename_i letter
          cases h
          exact ⟨.universal, trivial, letter, rfl, nofun⟩
        · rename_i same
          obtain ⟨rfl, rfl⟩ := List.cons.inj same
          simp only [if_pos (not_or.mp signed)] at h
          cases h
  · rintro ⟨zone, proper, rfl, rfl, given⟩
    refine ⟨?_, proper.bounds.1⟩
    cases zone with
    | missing =>
      cases required with
      | false => rfl
      | true => exact absurd rfl (given rfl)
    | universal => rfl
    | signed negative hours minutes =>
      obtain ⟨hhours, hminutes⟩ := proper
      have digits : readDigits 2 (fixed 2 minutes ++ []) = some (minutes, []) :=
        readDigits_fixed (show minutes < 100 by omega) []
      rw [List.append_nil] at digits
      rw [Zone.chars, readOffset_signed required (by cases negative <;> simp),
        readDigits_fixed (show hours < 100 by omega)]
      simp only [Option.bind_some, readMark, if_true, digits]
      rw [if_pos ⟨trivial, by omega⟩]
      cases negative <;> rfl

/-! ## Literals -/

/-- The numbers of a text of the form that is read, and what stands behind them. -/
structure Literal where
  year : Nat
  month : Nat
  day : Nat
  hour : Nat
  minute : Nat
  second : Nat
  zone : Zone

namespace Literal

def date (l : Literal) : Date := ⟨l.year, l.month, l.day⟩

/-- Date and time of day: nineteen characters. -/
def clock (l : Literal) : List Char :=
  fixed 4 l.year ++ '-' :: (fixed 2 l.month ++ '-' :: (fixed 2 l.day ++
    'T' :: (fixed 2 l.hour ++ ':' :: (fixed 2 l.minute ++ ':' :: fixed 2 l.second))))

def chars (l : Literal) : List Char := l.clock ++ l.zone.chars

/-- The day exists in the calendar and the times exist on a clock, where the second 60 may be added
to any minute. -/
structure Proper (l : Literal) : Prop where
  year : l.year ≤ 9999
  month : 1 ≤ l.month ∧ l.month ≤ 12
  day : 1 ≤ l.day ∧ l.day ≤ Calendar.daysInMonth (Calendar.isLeapYear l.year) l.month
  hour : l.hour ≤ 23
  minute : l.minute ≤ 59
  second : l.second ≤ 60
  zone : l.zone.Proper

/-- What a literal means: seconds from the first of January 1970 to its day and time, with the
second 60 counted as the one before it, less the offset. -/
structure Means (l : Literal) (t : DateTime) : Prop where
  offset : t.offset = l.zone.seconds
  timestamp : ∃ days, Calendar.IsDay days l.date ∧ t.timestamp =
    days * 86400 + (l.hour * 3600 + l.minute * 60 + min l.second 59 : Nat) - l.zone.seconds
  leap : t.isLeapSecond = decide (l.second = 60)

/-- The literal with its offset in the form in which it is written. -/
def canonical (l : Literal) : Literal := { l with zone := l.zone.canonical }

variable {l : Literal} {t : DateTime}

theorem length_clock (l : Literal) : l.clock.length = 19 := by
  simp [clock]

theorem Proper.isValid (proper : l.Proper) : Calendar.isValid l.date = true :=
  Calendar.isValid_iff.mpr ⟨proper.month.1, proper.month.2, proper.day.1, proper.day.2⟩

theorem Proper.canonical (proper : l.Proper) : l.canonical.Proper :=
  { proper with zone := proper.zone.canonical }

theorem Means.canonical (means : l.Means t) : l.canonical.Means t := by
  obtain ⟨offset, timestamp, leap⟩ := means
  exact ⟨offset.trans l.zone.seconds_canonical.symm,
    by rwa [Literal.canonical, l.zone.seconds_canonical], leap⟩

end Literal

/-! ## Reading and writing -/

theorem ofLocal?_eq_some_iff {date : Date} {hour minute second : Nat} {offset : Int}
    {t : DateTime} : ofLocal? date hour minute second offset = some t ↔
      offset.natAbs < 86400 ∧ (Calendar.isValid date = true ∧ hour < 24 ∧ minute < 60 ∧
        second ≤ 60) ∧ t.offset = offset ∧ t.timestamp = Calendar.dayNumber date * 86400 +
          (hour * 3600 + minute * 60 + min second 59 : Nat) - offset ∧
            t.isLeapSecond = decide (second = 60) := by
  obtain ⟨timestamp, offset', leap, small⟩ := t
  unfold ofLocal?
  split
  · rename_i fits
    split
    · rename_i valid
      simp only [Option.some.injEq, DateTime.mk.injEq]
      constructor
      · rintro ⟨rfl, rfl, rfl⟩
        exact ⟨fits, valid, rfl, rfl, rfl⟩
      · rintro ⟨-, -, rfl, rfl, rfl⟩
        exact ⟨rfl, rfl, rfl⟩
    · rename_i invalid
      exact iff_of_false nofun fun h => invalid h.2.1
  · rename_i far
    exact iff_of_false nofun fun h => far h.1

/-- Exactly the literals whose numbers are those of a calendar and a clock are read, as what they
mean. -/
theorem ofChars?_eq_some_iff {required : Bool} {cs : List Char} {t : DateTime} :
    ofChars? required cs = some t ↔ ∃ l : Literal, l.Proper ∧ cs = l.chars ∧
      (required = true → l.zone ≠ .missing) ∧ l.Means t := by
  simp only [ofChars?, Option.bind_eq_bind, Option.bind_eq_some_iff, Prod.exists,
    readDigits_eq_some_iff, readMark_eq_some_iff]
  constructor
  · rintro ⟨year, _, ⟨hyear, rfl⟩, _, rfl, month, _, ⟨-, rfl⟩, _, rfl, day, _, ⟨-, rfl⟩, _, rfl,
      hour, _, ⟨-, rfl⟩, _, rfl, minute, _, ⟨-, rfl⟩, _, rfl, second, _, ⟨-, rfl⟩, offset, read, h⟩
    obtain ⟨small, ⟨valid, hhour, hminute, hsecond⟩, rfl, timestamp, leap⟩ :=
      ofLocal?_eq_some_iff.mp h
    obtain ⟨zone, proper, rfl, seconds, given⟩ := readOffset_eq_some_iff.mp ⟨read, small⟩
    obtain ⟨first, last, day⟩ := Calendar.isValid_iff.mp valid
    refine ⟨⟨year, month, _, hour, minute, second, zone⟩, ⟨Nat.le_of_lt_succ hyear, ⟨first, last⟩,
      day, Nat.le_of_lt_succ hhour, Nat.le_of_lt_succ hminute, hsecond, proper⟩, ?_, given,
      seconds.symm, ⟨_, Calendar.isDay_iff.mpr ⟨valid, rfl⟩, ?_⟩, leap⟩
    · simp [Literal.chars, Literal.clock]
    · rw [timestamp, seconds]; rfl
  · rintro ⟨l, proper, rfl, given, offset, ⟨days, isDay, timestamp⟩, leap⟩
    obtain ⟨valid, rfl⟩ := Calendar.isDay_iff.mp isDay
    obtain ⟨read, small⟩ :=
      readOffset_eq_some_iff.mpr ⟨l.zone, proper.zone, rfl, rfl, given⟩
    have := Calendar.daysInMonth_bounds (Calendar.isLeapYear l.year) l.month
    obtain ⟨year, ⟨-, month⟩, ⟨-, day⟩, hour, minute, second, -⟩ := proper
    refine ⟨l.year, _, ⟨Nat.lt_succ_of_le year, ?_⟩, _, rfl, l.month, _, ⟨?_, rfl⟩, _, rfl,
      l.day, _, ⟨?_, rfl⟩, _, rfl, l.hour, _, ⟨?_, rfl⟩, _, rfl, l.minute, _, ⟨?_, rfl⟩, _, rfl,
      l.second, l.zone.chars, ⟨?_, rfl⟩, l.zone.seconds, read, ofLocal?_eq_some_iff.mpr ⟨small,
        ⟨valid, by omega, by omega, second⟩, offset, timestamp, leap⟩⟩
    · simp [Literal.chars, Literal.clock]
    all_goals show _ < 100; omega

theorem toList_text (t : DateTime) : t.text.toList = t.chars := String.toList_ofList

/-- A date-time is written as the literal that means it, with the offset in its canonical form. -/
theorem chars_of_means {l : Literal} {t : DateTime} (proper : l.Proper) (means : l.Means t) :
    t.chars = l.canonical.chars := by
  obtain ⟨offset, ⟨days, isDay, timestamp⟩, leap⟩ := means
  obtain ⟨valid, number⟩ := Calendar.isDay_iff.mp isDay
  have zone : offsetChars t.offset = _ := offset ▸ proper.zone.offsetChars_seconds
  have bound := Calendar.daysInMonth_bounds (Calendar.isLeapYear l.year) l.month
  obtain ⟨year, ⟨-, month⟩, ⟨-, day⟩, hour, minute, second, -⟩ := proper
  generalize spent : l.hour * 3600 + l.minute * 60 + min l.second 59 = seconds at timestamp
  have days' : (t.timestamp + t.offset) / 86400 = days := by omega
  have seconds' : ((t.timestamp + t.offset) % 86400).toNat = seconds := by omega
  have date : Calendar.dateOf days = l.date := (Calendar.isDay_iff_eq_dateOf.mp isDay).symm
  have year4 : yearChars (l.year : Int) = fixed 4 l.year := by
    simp only [yearChars, Int.natAbs_natCast]
    rw [if_neg (by omega), if_neg (by omega),
      padded_eq_fixed (by decide) (show l.year < 10000 by omega)]
  have hours : seconds / 3600 = l.hour := by omega
  have minutes : seconds / 60 % 60 = l.minute := by omega
  have last : seconds % 60 + (if t.isLeapSecond = true then 1 else 0) = l.second := by
    rw [leap]
    by_cases h : l.second = 60 <;> simp [h] <;> omega
  simp only [chars, days', seconds', date, Literal.date, year4, hours, minutes, last, zone,
    padded_two (show l.month < 100 by omega), padded_two (show l.day < 100 by omega),
    padded_two (show l.hour < 100 by omega), padded_two (show l.minute < 100 by omega),
    padded_two (show l.second < 100 by omega)]
  simp [Literal.chars, Literal.clock, Literal.canonical]

/-- A date-time that a literal means is read back from its text, whether an offset is required or
not. -/
theorem ofChars?_chars_of_means {l : Literal} {t : DateTime} (proper : l.Proper)
    (means : l.Means t) (required : Bool) : ofChars? required t.chars = some t :=
  ofChars?_eq_some_iff.mpr ⟨l.canonical, proper.canonical, chars_of_means proper means,
    fun _ => l.zone.canonical_ne_missing, means.canonical⟩

/-- A date-time that was read is read back from its text, whether an offset is required or not. -/
theorem ofChars?_chars {required : Bool} {cs : List Char} {t : DateTime}
    (h : ofChars? required cs = some t) (required' : Bool) :
    ofChars? required' t.chars = some t := by
  obtain ⟨l, proper, -, -, means⟩ := ofChars?_eq_some_iff.mp h
  exact ofChars?_chars_of_means proper means required'

end ShapedGraph.DateTime
