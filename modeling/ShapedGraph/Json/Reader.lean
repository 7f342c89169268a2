import ShapedGraph.Binary64.Powers
import ShapedGraph.Binary64.Text
import ShapedGraph.Json.Basic

/-! Strict reading of JSON text. Blanks may surround every token, a repeated key keeps its last
value, and the nesting of containers is limited. Integers of 64 bits, with or without sign, are
read exactly. Every other number is put together as a floating point number from the digits that
fit 64 bits and a power of ten, so it is not always rounded to the nearest one. -/

namespace ShapedGraph.Json

def isBlank (c : Char) : Bool := c = ' ' ∨ c = '\t' ∨ c = '\n' ∨ c = '\r'

def skipBlanks (cs : List Char) : List Char := cs.dropWhile isBlank

def hexValue? (c : Char) : Option Nat :=
  if '0' ≤ c ∧ c ≤ '9' then some (c.toNat - 48)
  else if 'a' ≤ c ∧ c ≤ 'f' then some (c.toNat - 87)
  else if 'A' ≤ c ∧ c ≤ 'F' then some (c.toNat - 55)
  else none

def hexQuad? (a b c d : Char) : Option Nat := do
  some ((((← hexValue? a) * 16 + (← hexValue? b)) * 16 + (← hexValue? c)) * 16 + (← hexValue? d))

def shortEscape? : Char → Option Char
  | '"' => some '"'
  | '\\' => some '\\'
  | '/' => some '/'
  | 'b' => some '\x08'
  | 'f' => some '\x0c'
  | 'n' => some '\n'
  | 'r' => some '\r'
  | 't' => some '\t'
  | _ => none

/-- The character of the two halves of a surrogate pair. -/
def pair? (high low : Nat) : Option Char :=
  if 0xD800 ≤ high ∧ high < 0xDC00 ∧ 0xDC00 ≤ low ∧ low < 0xE000 then
    some (Char.ofNat (0x10000 + (high - 0xD800) * 0x400 + (low - 0xDC00)))
  else none

/-- The rest of a string up to its closing quote, behind the characters in `done`, which are in
reverse. -/
def readString : List Char → List Char → Option (String × List Char)
  | [], _ => none
  | '"' :: rest, done => some (String.ofList done.reverse, rest)
  | '\\' :: 'u' :: a :: b :: c :: d :: rest, done => do
    let code ← hexQuad? a b c d
    if 0xD800 ≤ code ∧ code < 0xE000 then
      match rest with
      | '\\' :: 'u' :: e :: f :: g :: h :: rest => do
        readString rest ((← pair? code (← hexQuad? e f g h)) :: done)
      | _ => none
    else readString rest (Char.ofNat code :: done)
  | '\\' :: c :: rest, done => do
    readString rest ((← shortEscape? c) :: done)
  | c :: rest, done => if c.toNat < 32 ∨ c = '\\' then none else readString rest (c :: done)
termination_by structural cs => cs

/-- The number that is made of `n` and of the digits that still fit 64 bits behind it, and the
digits that are left. -/
def absorb (n : Nat) : List Char → Nat × List Char
  | [] => (n, [])
  | c :: cs =>
    let more := 10 * n + Decimal.charDigit c
    if more < UInt64.size then absorb more cs else (n, c :: cs)

/-- The floating point number that a numeral in its parts is read as. Digits of the whole part that
do not fit count as powers of ten. Those of the fraction are dropped, but as many as fit are taken
even where the whole part did not fit. -/
def rounded (negative : Bool) (whole fraction : List Char) (exponent : Int) : Binary64 :=
  let (front, left) := absorb 0 whole
  let (digits, dropped) := absorb front fraction
  .ofScaled negative digits (exponent + left.length + dropped.length - fraction.length)

/-- The value of a numeral in its parts. An integer is kept if it fits 64 bits; the integer zero
with a minus sign, and anything with a fraction or an exponent, is a floating point number, which
must not overflow. -/
def number? (negative : Bool) (whole fraction : List Char) (exponent : Option Int) : Option Json :=
  let magnitude := Decimal.ofChars whole
  let exact := fraction = [] ∧ exponent = none ∧
    if negative then magnitude ≠ 0 ∧ Int64.minValue.toInt ≤ -magnitude
    else magnitude < UInt64.size
  if exact then some (.integer (if negative then -magnitude else magnitude))
  else
    match rounded negative whole fraction (exponent.getD 0) with
    | .infinite _ => none
    | x => some (.float x)

/-- The fraction of a numeral, empty if there is none. A point needs a digit after it. -/
def readFraction : List Char → Option (List Char × List Char)
  | '.' :: cs =>
    match cs.takeWhile Char.isDigit with
    | [] => none
    | ds => some (ds, cs.dropWhile Char.isDigit)
  | cs => some ([], cs)

/-- The exponent of a numeral, if there is one. A mark needs a digit after it. -/
def readExponent : List Char → Option (Option Int × List Char)
  | [] => some (none, [])
  | c :: cs =>
    if c = 'e' ∨ c = 'E' then
      let (negative, cs) := Binary64.splitSign cs
      match cs.takeWhile Char.isDigit with
      | [] => none
      | ds =>
        let magnitude : Int := (Decimal.ofChars ds : Nat)
        some (some (if negative then -magnitude else magnitude), cs.dropWhile Char.isDigit)
    else some (none, c :: cs)

/-- A numeral without its sign; a leading zero stands alone. -/
def readUnsigned (negative : Bool) (cs : List Char) : Option (Json × List Char) := do
  let whole ←
    match cs.takeWhile Char.isDigit with
    | [] => none
    | '0' :: _ => some ['0']
    | ds => some ds
  let (fraction, cs) ← readFraction (cs.drop whole.length)
  let (exponent, cs) ← readExponent cs
  some (← number? negative whole fraction exponent, cs)

def readNumber : List Char → Option (Json × List Char)
  | '-' :: cs => readUnsigned true cs
  | cs => readUnsigned false cs

mutual

/-- The value at the front of a text without leading blanks, and what follows it. The first
argument bounds the steps and the second the nesting of containers. -/
def readValue : Nat → Nat → List Char → Option (Json × List Char)
  | 0, _, _ => none
  | steps + 1, depth, cs =>
    match cs with
    | 'n' :: 'u' :: 'l' :: 'l' :: rest => some (.null, rest)
    | 't' :: 'r' :: 'u' :: 'e' :: rest => some (.bool true, rest)
    | 'f' :: 'a' :: 'l' :: 's' :: 'e' :: rest => some (.bool false, rest)
    | '"' :: rest => (readString rest []).map fun (text, rest) => (.string text, rest)
    | '[' :: rest =>
      if depth = 0 then none
      else
        match skipBlanks rest with
        | ']' :: rest => some (.list [], rest)
        | rest => (readItems steps (depth - 1) rest []).map fun (items, rest) =>
            (.list items, rest)
    | '\x7b' :: rest =>
      if depth = 0 then none
      else
        match skipBlanks rest with
        | '\x7d' :: rest => some (.object [], rest)
        | rest => (readMembers steps (depth - 1) rest []).map fun (members, rest) =>
            (.object members, rest)
    | cs => readNumber cs
termination_by structural steps => steps

/-- The elements of a list up to its closing bracket, after those in `done`, which are in
reverse. -/
def readItems : Nat → Nat → List Char → List Json → Option (List Json × List Char)
  | 0, _, _, _ => none
  | steps + 1, depth, cs, done => do
    let (item, rest) ← readValue steps depth cs
    match skipBlanks rest with
    | ',' :: rest => readItems steps depth (skipBlanks rest) (item :: done)
    | ']' :: rest => some ((item :: done).reverse, rest)
    | _ => none
termination_by structural steps => steps

/-- The members of an object up to its closing brace, put into the table `done`. -/
def readMembers : Nat → Nat → List Char → Members Json → Option (Members Json × List Char)
  | 0, _, _, _ => none
  | steps + 1, depth, cs, done =>
    match cs with
    | '"' :: cs => do
      let (key, rest) ← readString cs []
      match skipBlanks rest with
      | ':' :: rest =>
        let (value, rest) ← readValue steps depth (skipBlanks rest)
        match skipBlanks rest with
        | ',' :: rest => readMembers steps depth (skipBlanks rest) (done.insert key value)
        | '\x7d' :: rest => some (done.insert key value, rest)
        | _ => none
      | _ => none
    | _ => none
termination_by structural steps => steps

end

/-- The value that a whole text writes, with containers nested at most `depth` deep. -/
def parse? (depth : Nat) (text : String) : Option Json := do
  let cs := skipBlanks text.toList
  let (value, rest) ← readValue (2 * cs.length + 2) depth cs
  if skipBlanks rest = [] then some value else none

/-- Containers of a document may be nested this deep. -/
def documentDepth : Nat := 127

/-- The value that the bytes of a document write. They must be UTF-8 without a byte order mark. -/
def ofBytes? (bytes : ByteArray) : Option Json := do
  parse? documentDepth (← String.fromUTF8? bytes)

end ShapedGraph.Json
