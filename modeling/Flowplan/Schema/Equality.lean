import Flowplan.Json.Basic

namespace Flowplan.Schema

open Flowplan.Json
open Decimal (Binary64)

mutual

/-- Equality of values for a schema: an integer equals the same number written with a fraction, a
truth value equals no number, and the order of members does not count. -/
def sameValue : Json → Json → Bool
  | .null, .null => true
  | .bool a, .bool b => a == b
  | .int a, .int b => a == b
  | .int a, .real y => y.equalsInt a
  | .real x, .int b => x.equalsInt b
  | .real x, .real y => x.equals y
  | .str a, .str b => a == b
  | .unpaired a, .unpaired b => a == b
  | .arr xs, .arr ys => sameItems xs ys
  | .obj xs, .obj ys => xs.length == ys.length && sameMembers xs ys
  | _, _ => false

def sameItems : List Json → List Json → Bool
  | [], [] => true
  | x :: xs, y :: ys => sameValue x y && sameItems xs ys
  | _, _ => false

def sameMembers : List (String × Json) → Object → Bool
  | [], _ => true
  | (k, x) :: rest, ys =>
    (match Table.get? ys k with
      | some y => sameValue x y
      | none => false) && sameMembers rest ys

end

def hasRepeat : List Json → Bool
  | [] => false
  | v :: rest => rest.any (sameValue v) || hasRepeat rest

/-- A number in units of the least positive one. -/
def units? : Json → Option Int
  | .int n => some (n * Binary64.unitsOfOne)
  | .real x => if x.isNaN then none else some x.signedUnits
  | _ => none

def less (v w : Json) : Bool :=
  match units? v, units? w with
  | some a, some b => a < b
  | _, _ => false

def lessOrEqual (v w : Json) : Bool :=
  match units? v, units? w with
  | some a, some b => a ≤ b
  | _, _ => false

end Flowplan.Schema
