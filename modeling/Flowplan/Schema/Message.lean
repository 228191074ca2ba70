import Flowplan.Schema.Basic

namespace Flowplan.Schema

open Flowplan.Json

def requiredTail : String := "' is a required property"

/-- The name in the message of a missing property; any other message is taken as it is. -/
def missingName (message : String) : String :=
  let cs := message.toList
  let cs := if cs.getLast? == some '\n' then cs.dropLast else cs
  match cs with
  | [] => message
  | c :: body =>
    let tail := requiredTail.toList
    let name := body.take (body.length - tail.length)
    if c.toNat == 39 && tail.isSuffixOf body && !name.contains '\n' then String.ofList name
    else message

/-- The values that a list, or the keys or characters that another collection, allows. -/
def allowedTexts? : Json → Option (List String)
  | .arr vs => some (vs.map Json.plain)
  | .obj ms => some (Table.keys ms)
  | .str s => some (s.toList.map String.singleton)
  | .unpaired s => some (s.toList.map String.singleton)
  | _ => none

def string? : Json → Option String
  | .str s => some s
  | _ => none

def expectedTypes? : Json → Option String
  | .arr vs => (vs.mapM string?).map (String.intercalate " or ")
  | v => some v.plain

namespace Violation

/-- A sentence by the kind of violation; `members` are the names that a choice is between. A rule
that cannot be listed has none. -/
def sentence? (members : List String) (v : Violation) : Option String :=
  let place := v.place.text
  let rule := v.rule.plain
  match v.keyword with
  | some "required" =>
    some ("Missing required property \"" ++ missingName v.message ++ "\" at " ++ place)
  | some "enum" => (allowedTexts? v.rule).map fun allowed =>
      "Invalid value at " ++ place ++ ". Must be one of: " ++ String.intercalate ", " allowed
  | some "const" => some ("Invalid value at " ++ place ++ ". Must be: " ++ rule)
  | some "minItems" => some ("Array at " ++ place ++ " must have at least " ++ rule ++ " items")
  | some "maxItems" =>
    some ("Array at " ++ place ++ " must have no more than " ++ rule ++ " items")
  | some "minLength" =>
    some ("String at " ++ place ++ " must be at least " ++ rule ++ " characters long")
  | some "maxLength" =>
    some ("String at " ++ place ++ " must be no more than " ++ rule ++ " characters long")
  | some "oneOf" =>
    if members.isEmpty then some ("Value at " ++ place ++ " does not match any allowed shape")
    else some ("Invalid step type at " ++ place ++ ". Must be one of: " ++
      String.intercalate ", " members)
  | some "additionalProperties" => some ("Unexpected property at " ++ place ++ ": " ++ v.message)
  | some "type" => (expectedTypes? v.rule).map fun expected =>
      "Value at " ++ place ++ " must be of type " ++ expected
  | _ => some (v.message ++ " at " ++ place)

end Violation
end Flowplan.Schema
