import ShapedGraph.Binary64.Text
import ShapedGraph.Json.Basic

/-! JSON text of values, compact or with one element a line. Only quotes, backslashes and control
characters are escaped. -/

namespace ShapedGraph.Json

def hexDigit (n : Nat) : Char := if n < 10 then Char.ofNat (48 + n) else Char.ofNat (87 + n)

def escape (c : Char) : List Char :=
  if c = '"' then ['\\', '"']
  else if c = '\\' then ['\\', '\\']
  else if c = '\x08' then ['\\', 'b']
  else if c = '\x0c' then ['\\', 'f']
  else if c = '\n' then ['\\', 'n']
  else if c = '\r' then ['\\', 'r']
  else if c = '\t' then ['\\', 't']
  else if c.toNat < 32 then
    ['\\', 'u', '0', '0', hexDigit (c.toNat / 16), hexDigit (c.toNat % 16)]
  else [c]

def quoted (text : String) : List Char := '"' :: (text.toList.flatMap escape ++ ['"'])

/-- The shortest digits that read back as the number. Magnitudes from `10 ^ (-5)` up to `10 ^ 16`
are written with a point and a fraction, others with one leading digit and a signed exponent.
Values that are not finite have no numeral. -/
def numeral : Binary64 → List Char
  | .finite negative rank =>
    let x := Binary64.shortest .toEven rank
    let ds := Decimal.chars x.digits
    let leading : Int := x.exponent + ds.length - 1
    Binary64.signed negative <|
      if -5 ≤ leading ∧ leading < 16 then
        x.positional ++ if 0 ≤ x.exponent then ['.', '0'] else []
      else
        ds.take 1 ++ (if ds.length = 1 then [] else '.' :: ds.drop 1) ++
          'e' :: (if 0 ≤ leading then '+' else '-') :: Decimal.chars leading.natAbs
  | _ => "null".toList

def integerText (n : Int) : List Char := Binary64.signed (n < 0) (Decimal.chars n.natAbs)

mutual

def compactChars : Json → List Char
  | .null => "null".toList
  | .bool value => if value then "true".toList else "false".toList
  | .integer value => integerText value
  | .float value => numeral value
  | .string value => quoted value
  | .list items => '[' :: (compactItems items ++ [']'])
  | .object members => '\x7b' :: (compactMembers members ++ ['\x7d'])
termination_by structural value => value

/-- The elements of a list with commas between them. -/
def compactItems : List Json → List Char
  | [] => []
  | item :: rest =>
    compactChars item ++
      match rest with
      | [] => []
      | _ :: _ => ',' :: compactItems rest
termination_by structural items => items

/-- The members of an object with commas between them. -/
def compactMembers : List (String × Json) → List Char
  | [] => []
  | (key, value) :: rest =>
    quoted key ++ ':' :: (compactChars value ++
      match rest with
      | [] => []
      | _ :: _ => ',' :: compactMembers rest)
termination_by structural members => members

end

/-- A new line with two blanks for each level of nesting. -/
def newLine (level : Nat) : List Char := '\n' :: List.replicate (2 * level) ' '

mutual

/-- The text with one element a line, nested at `level`; empty containers stay closed up. -/
def prettyChars : Json → Nat → List Char
  | .list [], _ => ['[', ']']
  | .list (item :: items), level =>
    '[' :: (newLine (level + 1) ++ prettyChars item (level + 1) ++
      prettyItems items (level + 1) ++ newLine level ++ [']'])
  | .object [], _ => ['\x7b', '\x7d']
  | .object ((key, value) :: members), level =>
    '\x7b' :: (newLine (level + 1) ++ quoted key ++ ':' :: ' ' :: prettyChars value (level + 1) ++
      prettyMembers members (level + 1) ++ newLine level ++ ['\x7d'])
  | value, _ => compactChars value
termination_by structural value => value

def prettyItems : List Json → Nat → List Char
  | [], _ => []
  | item :: items, level =>
    ',' :: (newLine level ++ prettyChars item level ++ prettyItems items level)
termination_by structural items => items

def prettyMembers : List (String × Json) → Nat → List Char
  | [], _ => []
  | (key, value) :: members, level =>
    ',' :: (newLine level ++ quoted key ++ ':' :: ' ' :: prettyChars value level ++
      prettyMembers members level)
termination_by structural members => members

end

def text (value : Json) : String := String.ofList (compactChars value)

/-- The text of a value with one element a line. -/
def prettyText (value : Json) : String := String.ofList (prettyChars value 0)

end ShapedGraph.Json
