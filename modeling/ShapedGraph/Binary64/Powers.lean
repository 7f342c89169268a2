import ShapedGraph.Binary64.Basic

/-! Decimals that are put together from floating point numbers: the digits are rounded first, and
then the product or the quotient with a power of ten, which is itself rounded. This is not always
the number nearest to the decimal. -/

namespace ShapedGraph.Binary64

/-- The rank nearest to the product of two magnitudes. -/
def product (rank rank' : Nat) : Nat :=
  nearestRank (units rank * units rank') (unitsInOne * unitsInOne)

/-- The rank nearest to the quotient of two magnitudes. -/
def quotient (rank rank' : Nat) : Nat := nearestRank (units rank) (units rank')

/-- The largest exponent of a power of ten that a floating point number is kept for. -/
def lastPower : Nat := 308

def powerOfTen (exponent : Nat) : Nat := nearestRank (Nat.pow 10 exponent) 1

/-- The magnitude divided by the last power of ten, again and again. It may come to zero before. -/
def lowered : Nat → Nat → Nat
  | 0, rank => rank
  | times + 1, rank =>
    if rank = 0 then 0 else lowered times (quotient rank (powerOfTen lastPower))

/-- The number that is put together for `digits * 10 ^ exponent`, with a sign. A power that is too
small is divided by in steps; one that is too large gives a number past all others. -/
def ofScaled (negative : Bool) (digits : Nat) (exponent : Int) : Binary64 :=
  let rank := nearestRank digits 1
  if 0 ≤ exponent then
    if exponent ≤ lastPower then ofRank negative (product rank (powerOfTen exponent.toNat))
    else if rank = 0 then ofRank negative 0
    else .infinite negative
  else
    let places := (-exponent).toNat
    let times := (places - 1) / lastPower
    ofRank negative (quotient (lowered times rank) (powerOfTen (places - times * lastPower)))

end ShapedGraph.Binary64
