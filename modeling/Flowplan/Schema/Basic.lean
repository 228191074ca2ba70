import Flowplan.Json.Display
import Flowplan.Locator

namespace Flowplan.Schema

open Flowplan.Json

/-- A rule of a schema that a value breaks: where, which keyword with which value, and for a choice
between alternatives what the value breaks in each. -/
structure Violation where
  place : Locator
  keyword : Option String
  rule : Json
  subject : Json
  message : String
  alternatives : List (List Violation)
deriving Inhabited

/-- Why a value cannot be checked. -/
inductive Failure where
  | tooDeep
  | unknownType (name : String)
  | unresolvable (reference : String)
deriving DecidableEq, Repr

abbrev Outcome := Except Failure (List Violation)

def typeNames : List String :=
  ["array", "boolean", "integer", "null", "number", "object", "string"]

/-- A whole number is an integer also when it is written with a fraction. -/
def hasType : Json → String → Bool
  | .null, t => t == "null"
  | .bool _, t => t == "boolean"
  | .int _, t => t == "integer" || t == "number"
  | .real x, t => t == "number" || (t == "integer" && x.isInteger)
  | .str _, t => t == "string"
  | .unpaired _, t => t == "string"
  | .arr _, t => t == "array"
  | .obj _, t => t == "object"

/-- The violations of all parts in their order, unless one of them cannot be checked. -/
def collect {α : Type} (parts : List α) (check : α → Outcome) : Outcome :=
  match parts with
  | [] => .ok []
  | p :: rest => do
    let first ← check p
    let others ← collect rest check
    return first ++ others

end Flowplan.Schema
