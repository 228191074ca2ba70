import Flowplan.Decimal.Arithmetic
import Flowplan.Json.Basic

namespace Flowplan.Layout

open Decimal (Binary64)

/-- A measure of the layout: an integer, or a number with a fraction. -/
inductive Amount where
  | int (n : Int)
  | real (x : Binary64)
deriving DecidableEq, Repr

/-- Why an amount has no value or no place. -/
inductive AmountFault where
  | tooLarge
  | infinite
  | notANumber
deriving DecidableEq, Repr

def AmountFault.message : AmountFault → String
  | .tooLarge => "int too large to convert to float"
  | .infinite => "cannot convert float infinity to integer"
  | .notANumber => "cannot convert float NaN to integer"

namespace Amount

def toReal : Amount → Except AmountFault Binary64
  | .int n =>
    let x := Binary64.ofInt n
    if x.isFinite then .ok x else .error .tooLarge
  | .real x => .ok x

/-- Integers stay exact; with a fraction on either side the result is rounded. -/
def combine (exact : Int → Int → Int) (rounded : Binary64 → Binary64 → Binary64) (a b : Amount) :
    Except AmountFault Amount :=
  match a, b with
  | .int m, .int n => .ok (.int (exact m n))
  | a, b => do return .real (rounded (← a.toReal) (← b.toReal))

def add (a b : Amount) : Except AmountFault Amount := combine (· + ·) Binary64.add a b

def sub (a b : Amount) : Except AmountFault Amount := combine (· - ·) Binary64.sub a b

def mul (a b : Amount) : Except AmountFault Amount := combine (· * ·) Binary64.mul a b

/-- Half of an amount, rounded down to a whole number. -/
def half : Amount → Amount
  | .int n => .int (Int.fdiv n 2)
  | .real x => .real (if x.isFinite then x.halfFloor else .nan)

/-- The whole part, toward zero. -/
def truncate : Amount → Except AmountFault Int
  | .int n => .ok n
  | .real x =>
    if x.isNaN then .error .notANumber
    else if !x.isFinite then .error .infinite
    else .ok x.truncate

def toJson : Amount → Json
  | .int n => .int n
  | .real x => .real x

@[simp] theorem add_int (m n : Int) : add (.int m) (.int n) = .ok (.int (m + n)) := rfl

@[simp] theorem sub_int (m n : Int) : sub (.int m) (.int n) = .ok (.int (m - n)) := rfl

@[simp] theorem mul_int (m n : Int) : mul (.int m) (.int n) = .ok (.int (m * n)) := rfl

@[simp] theorem half_int (n : Int) : half (.int n) = .int (Int.fdiv n 2) := rfl

@[simp] theorem truncate_int (n : Int) : truncate (.int n) = .ok n := rfl

end Amount
end Flowplan.Layout
