namespace Flowplan.Decimal

def twoTo (n : Nat) : Nat := Nat.pow 2 n

def tenTo (n : Nat) : Nat := Nat.pow 10 n

/-- Numerator over denominator, rounded to the nearest integer, a tie to the even one. -/
def divNearest (num den : Nat) : Nat :=
  let q := num / den
  let twice := 2 * (num % den)
  if twice < den then q
  else if den < twice then q + 1
  else if q % 2 = 0 then q else q + 1

/-- A number in the 64-bit binary interchange format, by its bits. -/
structure Binary64 where
  bits : UInt64
deriving DecidableEq, Inhabited, Repr

namespace Binary64

/-- Finite magnitudes are whole multiples of the least positive number, two to this power down. -/
def unitExponent : Nat := 1074

/-- How many of the least positive number make one. -/
def unitsOfOne : Nat := twoTo unitExponent

/-- Where the bit of the sign stands. -/
def signBit : Nat := twoTo 63

/-- Where the bits of the exponent begin. -/
def exponentBit : Nat := twoTo 52

def exponentRange : Nat := twoTo 11

/-- The bits of what is infinite, which stand above those of all that is finite. -/
def infiniteBits : Nat := 2047 * exponentBit

def negative (x : Binary64) : Bool := signBit ≤ x.bits.toNat

def exponentField (x : Binary64) : Nat := x.bits.toNat / exponentBit % exponentRange

def fraction (x : Binary64) : Nat := x.bits.toNat % exponentBit

def isFinite (x : Binary64) : Bool := x.exponentField < 2047

def isNaN (x : Binary64) : Bool := x.exponentField == 2047 && x.fraction != 0

/-- The magnitude in units, for a finite number. -/
def units (x : Binary64) : Nat :=
  if x.exponentField = 0 then x.fraction
  else (exponentBit + x.fraction) * twoTo (x.exponentField - 1)

def withSign (neg : Bool) (magnitude : Nat) : Binary64 :=
  ⟨UInt64.ofNat (if neg then signBit + magnitude else magnitude)⟩

def infinity (neg : Bool) : Binary64 := withSign neg infiniteBits

def nan : Binary64 := withSign false (infiniteBits + exponentBit / 2)

def zero (neg : Bool) : Binary64 := withSign neg 0

/-- How many low bits a quotient of this size loses. -/
def lostBits (q : Nat) : Nat := q.log2 - 52

/-- The number nearest to a ratio, a tie to the even one; a magnitude too large is infinite. -/
def ofRatio (neg : Bool) (num den : Nat) : Binary64 :=
  let scaled := num * unitsOfOne
  let lost := lostBits (scaled / den)
  let magnitude := lost * exponentBit + divNearest scaled (den * twoTo lost)
  withSign neg (min magnitude infiniteBits)

def digitCount (n : Nat) : Nat := (Nat.toDigits 10 n).length

/-- The number nearest to an integer times a power of ten. -/
def ofDecimal (neg : Bool) (digits : Nat) (exponent : Int) : Binary64 :=
  let size := exponent + digitCount digits
  if digits = 0 then zero neg
  else if 310 < size then infinity neg
  else if size < -330 then zero neg
  else ofRatio neg (digits * tenTo exponent.toNat) (tenTo (-exponent).toNat)

def ofInt (n : Int) : Binary64 := ofRatio (n < 0) n.natAbs 1

/-- The signed magnitude in units, for a finite number. -/
def signedUnits (x : Binary64) : Int :=
  if x.negative then -(x.units : Int) else x.units

def isInteger (x : Binary64) : Bool :=
  x.isFinite && x.units % unitsOfOne == 0

/-- The whole part, toward zero, of a finite number. -/
def truncate (x : Binary64) : Int :=
  Int.tdiv x.signedUnits unitsOfOne

/-- Equal as a number. -/
def equalsInt (x : Binary64) (n : Int) : Bool :=
  x.isFinite && x.signedUnits == n * unitsOfOne

/-- Equal as numbers: the two zeros are equal, and no not-a-number equals anything. -/
def equals (x y : Binary64) : Bool :=
  if x.isFinite && y.isFinite then x.signedUnits == y.signedUnits
  else x == y && !x.isNaN

end Binary64
end Flowplan.Decimal
