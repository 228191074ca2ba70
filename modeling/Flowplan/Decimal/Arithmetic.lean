import Flowplan.Decimal.Binary64

namespace Flowplan.Decimal.Binary64

/-- The number nearest to a multiple of the unit. -/
def ofUnits (n : Int) : Binary64 := ofRatio (n < 0) n.natAbs unitsOfOne

def add (x y : Binary64) : Binary64 :=
  if x.isNaN || y.isNaN then nan
  else if !x.isFinite then (if !y.isFinite && x.negative != y.negative then nan else x)
  else if !y.isFinite then y
  else if x.signedUnits + y.signedUnits = 0 then zero (x.negative && y.negative)
  else ofUnits (x.signedUnits + y.signedUnits)

def neg (x : Binary64) : Binary64 := withSign (!x.negative) (x.bits.toNat % signBit)

def sub (x y : Binary64) : Binary64 := x.add y.neg

def mul (x y : Binary64) : Binary64 :=
  let negative := x.negative != y.negative
  if x.isNaN || y.isNaN then nan
  else if !x.isFinite then (if y.isFinite && y.units == 0 then nan else infinity negative)
  else if !y.isFinite then (if x.units == 0 then nan else infinity negative)
  else ofRatio negative (x.units * y.units) (unitsOfOne * unitsOfOne)

/-- The quotient of finite numbers, the second not zero. -/
def div (x y : Binary64) : Binary64 := ofRatio (x.negative != y.negative) x.units y.units

/-- The greatest whole number up to half of a finite number. -/
def halfFloor (x : Binary64) : Binary64 :=
  let n := Int.fdiv x.signedUnits (2 * unitsOfOne : Nat)
  if n = 0 then zero x.negative else ofInt n

end Flowplan.Decimal.Binary64
