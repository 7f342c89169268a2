import ShapedGraph.Binary64.Basic

/-! The shortest decimal digits that read back as a given magnitude. For one digit, two digits and
so on, the two neighbours of the magnitude on that decimal grid are rounded back; the first grid
with a hit wins, and of two hits the nearer. -/

namespace ShapedGraph

/-- A decimal magnitude, `digits * 10 ^ exponent`. -/
structure Scientific where
  digits : Nat
  exponent : Int
deriving DecidableEq

namespace Scientific

def numerator (x : Scientific) : Nat := x.digits * Nat.pow 10 x.exponent.toNat

def denominator (x : Scientific) : Nat := Nat.pow 10 (-x.exponent).toNat

/-- The same magnitude without trailing zeros in its digits; the first argument bounds the steps. -/
def trim : Nat → Scientific → Scientific
  | 0, x => x
  | steps + 1, x =>
    if x.digits ≠ 0 ∧ x.digits % 10 = 0 then trim steps ⟨x.digits / 10, x.exponent + 1⟩ else x

end Scientific

namespace Binary64

/-- Where the digits of two neighbours fit equally well, which of them is written. -/
inductive Tie where
  | upward
  | toEven
deriving DecidableEq

def readsBack (rank : Nat) (x : Scientific) : Bool :=
  nearestRank x.numerator x.denominator == rank

/-- A neighbour of a magnitude on a grid, and whether it reads back. -/
structure Neighbour where
  value : Scientific
  hits : Bool

/-- Of the two neighbours of a magnitude on a grid, the one that is written: one that reads back,
and the nearer one if both do. The magnitude lies `rest / den` of a step above the first. -/
def chooseNeighbour (tie : Tie) (den rest : Nat) : Neighbour → Neighbour → Option Scientific
  | ⟨below, true⟩, ⟨above, true⟩ =>
    let up := den < 2 * rest ∨ (den = 2 * rest ∧ (tie = .upward ∨ below.digits % 2 = 1))
    some (if up then above else below)
  | ⟨below, true⟩, ⟨_, false⟩ => some below
  | ⟨_, false⟩, ⟨above, true⟩ => some above
  | ⟨_, false⟩, ⟨_, false⟩ => none

/-- The digits with the fewest places on the grid `10 ^ exponent` that read back as `rank`. -/
def onGrid (tie : Tie) (rank : Nat) (exponent : Int) : Option Scientific :=
  let num := units rank * Nat.pow 10 (-exponent).toNat
  let den := unitsInOne * Nat.pow 10 exponent.toNat
  let below : Scientific := ⟨num / den, exponent⟩
  let above : Scientific := ⟨num / den + 1, exponent⟩
  chooseNeighbour tie den (num % den) ⟨below, readsBack rank below⟩ ⟨above, readsBack rank above⟩

/-- The number of digits of the magnitude's whole part, negative for leading zeros after the point:
the magnitude lies from `10 ^ (k - 1)` up to `10 ^ k`. -/
def wholePlaces (rank : Nat) : Int :=
  (Decimal.digits (units rank * Nat.pow 10 330 / unitsInOne)).length - 330

def allDigits (rank : Nat) : Scientific := ⟨units rank * Nat.pow 5 1074, -1074⟩

/-- The shortest digits that read back as `rank`. Seventeen always suffice, and every digit would
be written if they did not. -/
def shortest (tie : Tie) (rank : Nat) : Scientific :=
  if rank = 0 then ⟨0, 0⟩ else
  let places := wholePlaces rank
  let hit := (List.range 17).findSome? fun (i : Nat) => onGrid tie rank (places - (i + 1 : Nat))
  let x := hit.getD (allDigits rank)
  x.trim (Decimal.digits x.digits).length

end Binary64

end ShapedGraph
