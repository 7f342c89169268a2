import ShapedGraph.Decimal

/-! Binary floating point numbers of 64 bits, as values. The finite magnitudes are numbered upwards
from zero, so a number is a sign and a rank, and each magnitude is a whole count of the smallest
one. Rounding takes an exact ratio to the nearest rank. -/

namespace ShapedGraph

/-- The number of magnitudes from a power of two up to the next one. -/
abbrev binadeSize : Nat := 0x10000000000000

abbrev rankCount : Nat := 2047 * binadeSize

/-- A floating point number. There is one value that is not a number, and zero has two signs. -/
inductive Binary64 where
  | nan
  | infinite (negative : Bool)
  | finite (negative : Bool) (rank : Fin rankCount)
deriving DecidableEq

namespace Binary64

/-- The whole number that the fraction bits of a rank stand for, with the leading bit of a normal
magnitude. -/
def significand (rank : Nat) : Nat :=
  if rank < binadeSize then rank else binadeSize + rank % binadeSize

/-- How often the significand of a rank is doubled. -/
def scale (rank : Nat) : Nat := rank / binadeSize - 1

/-- The magnitude of a rank, counted in units of the smallest one that is not zero. -/
def units (rank : Nat) : Nat := significand rank <<< scale rank

/-- The number of units in one: the unit is `2 ^ (-1074)`. -/
def unitsInOne : Nat := 1 <<< 1074

/-- The rank nearest to the magnitude `num / den`; a magnitude halfway between two ranks goes to
the even one. Magnitudes too large for any rank give a number past the last rank. -/
def nearestRank (num den : Nat) : Nat :=
  let exact := num * unitsInOne
  let doublings := (exact / den).log2 - 52
  let step := den <<< doublings
  let below := exact / step
  let rest := exact % step
  doublings * binadeSize +
    if step < 2 * rest ∨ (step = 2 * rest ∧ below % 2 = 1) then below + 1 else below

/-- The number with this sign and rank, infinite past the last rank. -/
def ofRank (negative : Bool) (rank : Nat) : Binary64 :=
  if h : rank < rankCount then .finite negative ⟨rank, h⟩ else .infinite negative

/-- The number nearest to the ratio of two naturals, with a sign. -/
def ofRatio (negative : Bool) (num den : Nat) : Binary64 := ofRank negative (nearestRank num den)

def ofInt (n : Int) : Binary64 := ofRatio (n < 0) n.natAbs 1

/-- The number nearest to `digits * 10 ^ exponent`, with a sign. Exponents that no magnitude can
balance are settled without computing the power. -/
def ofDecimal (negative : Bool) (digits : Nat) (exponent : Int) : Binary64 :=
  let size := (Decimal.digits digits).length + exponent
  if digits = 0 then ofRank negative 0
  else if 310 < size then .infinite negative
  else if size < -330 then ofRank negative 0
  else if 0 ≤ exponent then ofRatio negative (digits * Nat.pow 10 exponent.toNat) 1
  else ofRatio negative digits (Nat.pow 10 (-exponent).toNat)

def isNegative : Binary64 → Bool
  | .nan => false
  | .infinite negative => negative
  | .finite negative _ => negative

/-- The integer that the number is, if it is one. -/
def toInt? : Binary64 → Option Int
  | .finite negative rank =>
    if units rank % unitsInOne = 0 then
      let magnitude : Int := (units rank / unitsInOne : Nat)
      some (if negative then -magnitude else magnitude)
    else none
  | _ => none

end Binary64

end ShapedGraph
