import Flowplan.Decimal.Shortest

namespace Flowplan.Decimal

def zeros (n : Nat) : String := String.ofList (List.replicate n '0')

/-- The texts that a format gives to what has no digits. -/
structure Specials where
  nan : String
  infinity : String

namespace Digits

/-- Positional notation, with at least one digit on each side of the point. -/
def positional (d : Digits) : String :=
  let count := d.digits.length
  if d.point ≤ 0 then "0." ++ zeros (-d.point).toNat ++ String.ofList d.digits
  else
    let before := d.point.toNat
    if count ≤ before then String.ofList d.digits ++ zeros (before - count) ++ ".0"
    else String.ofList (d.digits.take before) ++ "." ++ String.ofList (d.digits.drop before)

def twoDigits (n : Nat) : String :=
  if n < 10 then "0" ++ toString n else toString n

/-- One digit before the point, and an exponent with a sign and at least two digits. -/
def scientific (d : Digits) : String :=
  let exponent := d.point - 1
  let mantissa := match d.digits with
    | [] => "0"
    | [c] => String.singleton c
    | c :: rest => String.singleton c ++ "." ++ String.ofList rest
  mantissa ++ (if exponent < 0 then "e-" else "e+") ++ twoDigits exponent.natAbs

/-- Positional from 0.0001 up to, but not including, ten to the sixteenth. -/
def text (d : Digits) : String :=
  if -4 < d.point && d.point ≤ 16 then d.positional else d.scientific

end Digits

/-- The shortest text that reads back as the number. -/
def Binary64.text (names : Specials) (x : Binary64) : String :=
  if x.isNaN then names.nan
  else
    let magnitude :=
      if !x.isFinite then names.infinity
      else if x.units = 0 then "0.0"
      else (withoutSign x).shortest.text
    if x.negative then "-" ++ magnitude else magnitude
where
  withoutSign (x : Binary64) : Binary64 := Binary64.withSign false (x.bits.toNat % signBit)

end Flowplan.Decimal
