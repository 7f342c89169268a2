import ShapedGraph.Calendar
import ShapedGraph.Decimal

/-! Points in time with the offset from universal time they were expressed in, and their text. A
leap second shares the timestamp of the second before it and is told apart only in the text. -/

namespace ShapedGraph

structure DateTime where
  /-- Seconds since the start of 1970 in universal time. -/
  timestamp : Int
  /-- Seconds that the local clock is ahead of universal time, less than a day. -/
  offset : Int
  /-- The sixtieth second of the minute is meant, not the one before it. -/
  isLeapSecond : Bool
  offset_lt : offset.natAbs < 86400
deriving DecidableEq

namespace DateTime

/-- The point in time with a timestamp and an offset, if it is one the calendar's years from
-262143 to 262142 hold and the offset is less than a day. -/
def ofTimestamp? (timestamp offset : Int) : Option DateTime :=
  if h : offset.natAbs < 86400 then
    if -8334601228800 ≤ timestamp ∧ timestamp ≤ 8210266876799 then
      some ⟨timestamp, offset, false, h⟩
    else none
  else none

/-- The hours of the offset, with its sign. -/
def offsetHour (t : DateTime) : Int := t.offset.tdiv 3600

/-- The minutes of the offset past the hour, never negative. -/
def offsetMinute (t : DateTime) : Nat := t.offset.natAbs % 3600 / 60

def isUtc (t : DateTime) : Bool := t.offset = 0

/-- A number in decimal, filled up with zeros to a width. -/
def padded (width n : Nat) : List Char :=
  let cs := Decimal.chars n
  List.replicate (width - cs.length) '0' ++ cs

/-- Years that do not have four digits carry a sign. -/
def yearChars (year : Int) : List Char :=
  let digits := padded 4 year.natAbs
  if year < 0 then '-' :: digits else if 9999 < year then '+' :: digits else digits

/-- The offset to the nearest minute; universal time has a letter of its own. -/
def offsetChars (offset : Int) : List Char :=
  if offset = 0 then ['Z']
  else
    let minutes := (offset.natAbs + 30) / 60
    (if offset < 0 then '-' else '+') ::
      (padded 2 (minutes / 60) ++ ':' :: padded 2 (minutes % 60))

/-- Date and time of day on the local clock, then the offset. -/
def chars (t : DateTime) : List Char :=
  let clock := t.timestamp + t.offset
  let date := Calendar.dateOf (clock / 86400)
  let second := (clock % 86400).toNat
  yearChars date.year ++ '-' :: (padded 2 date.month ++ '-' :: (padded 2 date.day ++
    'T' :: (padded 2 (second / 3600) ++ ':' :: (padded 2 (second / 60 % 60) ++
      ':' :: (padded 2 (second % 60 + if t.isLeapSecond then 1 else 0) ++
        offsetChars t.offset)))))

def text (t : DateTime) : String := String.ofList t.chars

/-- A number of exactly `width` digits at the front of a text, and what follows it. -/
def readDigits (width : Nat) (cs : List Char) : Option (Nat × List Char) :=
  let ds := cs.take width
  if ds.length = width ∧ ds.all Char.isDigit then some (Decimal.ofChars ds, cs.drop width)
  else none

/-- What follows the character `c` at the front of a text. -/
def readMark (c : Char) : List Char → Option (List Char)
  | [] => none
  | d :: cs => if d = c then some cs else none

/-- The offset at the end of a text: a letter for universal time, or a sign with hours and
minutes. A text may have none where it is not required. -/
def readOffset (required : Bool) : List Char → Option Int
  | [] => if required then none else some 0
  | ['Z'] => some 0
  | sign :: cs => do
    if sign ≠ '+' ∧ sign ≠ '-' then none
    let (hours, cs) ← readDigits 2 cs
    let cs ← readMark ':' cs
    let (minutes, cs) ← readDigits 2 cs
    if cs = [] ∧ minutes < 60 then
      let seconds : Int := (hours * 3600 + minutes * 60 : Nat)
      some (if sign = '-' then -seconds else seconds)
    else none

/-- The point in time that a date, a time of day and an offset give. -/
def ofLocal? (date : Date) (hour minute second : Nat) (offset : Int) : Option DateTime :=
  if h : offset.natAbs < 86400 then
    if Calendar.isValid date ∧ hour < 24 ∧ minute < 60 ∧ second ≤ 60 then
      let seconds : Nat := hour * 3600 + minute * 60 + min second 59
      some ⟨Calendar.dayNumber date * 86400 + seconds - offset, offset, second = 60, h⟩
    else none
  else none

/-- The point in time that a text writes. -/
def ofChars? (offsetRequired : Bool) (cs : List Char) : Option DateTime := do
  let (year, cs) ← readDigits 4 cs
  let cs ← readMark '-' cs
  let (month, cs) ← readDigits 2 cs
  let cs ← readMark '-' cs
  let (day, cs) ← readDigits 2 cs
  let cs ← readMark 'T' cs
  let (hour, cs) ← readDigits 2 cs
  let cs ← readMark ':' cs
  let (minute, cs) ← readDigits 2 cs
  let cs ← readMark ':' cs
  let (second, cs) ← readDigits 2 cs
  let offset ← readOffset offsetRequired cs
  ofLocal? ⟨year, month, day⟩ hour minute second offset

/-- Reads a date-time, whose offset may be left out and is then zero. -/
def parse? (text : String) : Option DateTime := ofChars? false text.toList

/-- Reads a date-time stamp, whose offset may not be left out. -/
def parseStamp? (text : String) : Option DateTime := ofChars? true text.toList

end DateTime

end ShapedGraph
