import Flowplan.Decimal.Shortest
import Flowplan.Format.Directive

namespace Flowplan.Format

open Flowplan.Decimal

/-- A number as it is written: its sign, a mark for its base, and the rest. -/
structure Written where
  negative : Bool
  mark : String := ""
  digits : String
deriving DecidableEq, Repr

namespace Written

def upper (w : Written) : Written :=
  { w with mark := w.mark.map Char.toUpper, digits := w.digits.map Char.toUpper }

def signText (flags : Flags) (w : Written) : String :=
  if w.negative then "-" else if flags.sign then "+" else if flags.blank then " " else ""

/-- Zeros stand after the sign and the mark, blanks before or after all of them. -/
def padded (flags : Flags) (width : Nat) (w : Written) : String :=
  let head := w.signText flags ++ w.mark
  let missing := width - head.length - w.digits.length
  if flags.left then head ++ w.digits ++ Text.replicate missing ' '
  else if flags.zero then head ++ Text.replicate missing '0' ++ w.digits
  else Text.replicate missing ' ' ++ head ++ w.digits

end Written

def leadingZeros (count : Nat) (digits : List Char) : List Char :=
  List.replicate (count - digits.length) '0' ++ digits

/-- An integer with at least so many digits. -/
def integer (base : Nat) (mark : String) (count : Nat) (n : Int) : Written where
  negative := n < 0
  mark := mark
  digits := String.ofList (leadingZeros count (Nat.toDigits base n.natAbs))

/-- Digits with a point before the last so many; without any after it, the point itself may go. -/
def pointed (places : Nat) (keepPoint : Bool) (n : Nat) : String :=
  let digits := leadingZeros (places + 1) (Nat.toDigits 10 n)
  let before := digits.take (digits.length - places)
  let after := digits.drop (digits.length - places)
  String.ofList before ++ (if places = 0 && !keepPoint then "" else ".") ++ String.ofList after

/-- The magnitude times a power of ten, rounded. -/
def scaled (x : Binary64) (exponent : Int) : Nat :=
  divNearest (x.units * tenTo exponent.toNat) (Binary64.unitsOfOne * tenTo (-exponent).toNat)

/-- So many digits after the first one, and the exponent of that one. -/
def significant (places : Nat) (x : Binary64) : Nat × Int :=
  if x.units = 0 then (0, 0)
  else
    let exponent := x.magnitude - 1
    let n := scaled x (places - exponent)
    if n = tenTo (places + 1) then (tenTo places, exponent + 1) else (n, exponent)

def exponentText (e : Int) : String :=
  (if e < 0 then "e-" else "e+") ++ String.ofList (leadingZeros 2 (Nat.toDigits 10 e.natAbs))

def withoutTrailingZeros (s : String) : String :=
  if s.toList.contains '.' then
    let cs := dropTrailingZeros s.toList
    String.ofList (if cs.getLast? = some '.' then cs.dropLast else cs)
  else s

def fixed (places : Nat) (keepPoint : Bool) (x : Binary64) : String :=
  pointed places keepPoint (scaled x places)

def scientific (places : Nat) (keepPoint : Bool) (x : Binary64) : String :=
  let (n, e) := significant places x
  pointed places keepPoint n ++ exponentText e

/-- So many digits in all, positional from 0.0001 up to where they end; zeros at the end go unless
they are to be kept. -/
def general (count : Nat) (keep : Bool) (x : Binary64) : String :=
  let places := count - 1
  let (n, e) := significant places x
  let shorter (s : String) : String := if keep then s else withoutTrailingZeros s
  if -4 ≤ e && e ≤ places then
    let after := (places - e).toNat
    shorter (pointed after keep (scaled x after))
  else shorter (pointed places keep n) ++ exponentText e

/-- A binary number by what writes its magnitude. -/
def real (magnitude : Binary64 → String) (x : Binary64) : Written :=
  if x.isNaN then ⟨false, "", "nan"⟩
  else ⟨x.negative, "", if x.isFinite then magnitude x else "inf"⟩

end Flowplan.Format
