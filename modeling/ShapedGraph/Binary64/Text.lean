import ShapedGraph.Binary64.Shortest

/-! Text forms of floating point numbers. The positional form is written without an exponent and
without a fraction where there is none; reading accepts an exponent, and the names of the values
that are not finite in any letter case. -/

namespace ShapedGraph

namespace Scientific

/-- The magnitude without an exponent: a fraction is written only where there is one. -/
def positional (x : Scientific) : List Char :=
  let cs := Decimal.chars x.digits
  if 0 ≤ x.exponent then cs ++ List.replicate x.exponent.toNat '0'
  else
    let places := (-x.exponent).toNat
    if places < cs.length then
      cs.take (cs.length - places) ++ '.' :: cs.drop (cs.length - places)
    else
      '0' :: '.' :: (List.replicate (places - cs.length) '0' ++ cs)

end Scientific

namespace Binary64

/-- A minus sign in front of negative numbers, zero included. -/
def signed (negative : Bool) (cs : List Char) : List Char := if negative then '-' :: cs else cs

/-- The shortest positional digits that read back as the number. -/
def text : Binary64 → String
  | .nan => "NaN"
  | .infinite negative => String.ofList (signed negative "inf".toList)
  | .finite negative rank =>
    String.ofList (signed negative (shortest .upward rank).positional)

/-- Splits off a sign. A missing sign is positive. -/
def splitSign : List Char → Bool × List Char
  | '-' :: cs => (true, cs)
  | '+' :: cs => (false, cs)
  | cs => (false, cs)

/-- Digits at the end of a text, with an optional sign. -/
def readExponent (cs : List Char) : Option Int :=
  let (negative, ds) := splitSign cs
  if ds ≠ [] ∧ ds.all Char.isDigit then
    let magnitude : Int := (Decimal.ofChars ds : Nat)
    some (if negative then -magnitude else magnitude)
  else none

/-- An exponent mark with its digits, or nothing. -/
def readScale : List Char → Option Int
  | [] => some 0
  | c :: cs => if c = 'e' ∨ c = 'E' then readExponent cs else none

/-- A decimal without its sign: digits, perhaps a point and more digits, perhaps an exponent. There
is a digit on one side of the point at least. -/
def readDecimal (cs : List Char) : Option Scientific :=
  let whole := cs.takeWhile Char.isDigit
  let (fraction, rest) :=
    match cs.dropWhile Char.isDigit with
    | '.' :: more => (more.takeWhile Char.isDigit, more.dropWhile Char.isDigit)
    | rest => ([], rest)
  if whole = [] ∧ fraction = [] then none
  else (readScale rest).map fun exponent =>
    ⟨Decimal.ofChars (whole ++ fraction), exponent - fraction.length⟩

def parse? (text : String) : Option Binary64 :=
  let (negative, cs) := splitSign text.toList
  let word := cs.map Char.toLower
  if word = "nan".toList then some .nan
  else if word = "inf".toList ∨ word = "infinity".toList then some (.infinite negative)
  else (readDecimal cs).map fun x => ofDecimal negative x.digits x.exponent

end Binary64

end ShapedGraph
