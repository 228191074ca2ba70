import Flowplan.Decimal.Binary64

namespace Flowplan.Decimal

/-- A positive decimal: its digits, the first and last not zero, and the place of the point
counted from their start. -/
structure Digits where
  digits : List Char
  point : Int
deriving DecidableEq, Repr

def dropTrailingZeros (ds : List Char) : List Char :=
  (ds.reverse.dropWhile (· == '0')).reverse

/-- The digits of an integer times a power of ten. -/
def Digits.ofScaled (n : Nat) (exponent : Int) : Digits :=
  let ds := Nat.toDigits 10 n
  ⟨dropTrailingZeros ds, ds.length + exponent⟩

namespace Binary64

/-- The power of ten just above a positive finite number. -/
def magnitude (x : Binary64) : Int :=
  (digitCount (x.units * tenTo 400 / unitsOfOne) : Int) - 400

/-- The two neighbours of a positive number on the grid of so many digits, the nearer one first. -/
def neighbours (x : Binary64) (count : Nat) : List Nat :=
  let shift := count - x.magnitude
  let num := x.units * tenTo shift.toNat
  let den := unitsOfOne * tenTo (-shift).toNat
  let below := num / den
  let nearest := divNearest num den
  [nearest, if nearest = below then below + 1 else below]

/-- The nearer neighbour that reads back as the number. -/
def readsBack? (x : Binary64) (count : Nat) : Option (Nat × Int) :=
  let exponent := x.magnitude - count
  ((x.neighbours count).find? fun n => ofDecimal false n exponent == x).map (·, exponent)

/-- The fewest digits that read back as a positive finite number, and of those the nearest; were
there none of seventeen digits, all of its digits. -/
def shortest (x : Binary64) : Digits :=
  let found := ((List.range' 1 17).findSome? x.readsBack?).getD
    (x.units * Nat.pow 5 unitExponent, -unitExponent)
  .ofScaled found.1 found.2

end Binary64
end Flowplan.Decimal
