import Flowplan.Schema.Basic
import Flowplan.Schema.Equality
import Flowplan.Decimal.Arithmetic

namespace Flowplan.Schema

open Flowplan.Json
open Decimal (Binary64)

/-- How a value at a place is checked against another schema. -/
abbrev Descent := Json → Locator → Json → Outcome

/-- What a keyword is applied to. -/
structure Site where
  /-- The schema that holds the keyword. -/
  schema : Object
  place : Locator
  subject : Json

namespace Site

def violation (s : Site) (keyword : String) (rule : Json) (message : String) : Violation :=
  ⟨s.place, some keyword, rule, s.subject, message, []⟩

def refuse (s : Site) (keyword : String) (rule : Json) (message : String) : Outcome :=
  .ok [s.violation keyword rule message]

def refuseIf (s : Site) (keyword : String) (rule : Json) (bad : Bool) (message : String) : Outcome :=
  if bad then s.refuse keyword rule message else .ok []

def shown (s : Site) : String := s.subject.display

def under (s : Site) (key : String) : Locator := s.place ++ [.name key]

def child (s : Site) (i : Nat) : Locator := s.place ++ [.index i]

end Site

def items : Json → List Json
  | .arr vs => vs
  | _ => []

def members : Json → Object
  | .obj ms => ms
  | _ => []

def strings (v : Json) : List String :=
  (items v).filterMap fun
    | .str s => some s
    | _ => none

def count : Json → Nat
  | .int n => n.toNat
  | .real x => x.truncate.toNat
  | _ => 0

def applyType (s : Site) (rule : Json) : Outcome := do
  let names := match rule with
    | .str t => [t]
    | rule => strings rule
  let rec anyOf : List String → Except Failure Bool
    | [] => .ok false
    | t :: rest =>
      if !typeNames.contains t then .error (.unknownType t)
      else if hasType s.subject t then .ok true
      else anyOf rest
  let ok ← anyOf names
  s.refuseIf "type" rule (!ok)
    (s.shown ++ " is not of type " ++ String.intercalate ", " (names.map Text.quoted))

def applyProperties (s : Site) (descend : Descent) (rule : Json) : Outcome :=
  collect (members rule) fun (key, schema) =>
    match Table.get? (members s.subject) key with
    | some v => descend schema (s.under key) v
    | none => .ok []

def applyRequired (s : Site) (rule : Json) : Outcome :=
  match s.subject with
  | .obj ms => .ok <| ((strings rule).filter fun key => !Table.has ms key).map fun key =>
      s.violation "required" rule (Text.quoted key ++ " is a required property")
  | _ => .ok []

def extraKeys (s : Site) : List String :=
  let known := Table.keys (members ((Table.get? s.schema "properties").getD .null))
  (Table.keys (members s.subject)).filter fun key => !known.contains key

def extrasMessage (extras : List String) : String :=
  let listed := String.intercalate ", "
    ((extras.mergeSort fun a b => decide (a ≤ b)).map Text.quoted)
  "Additional properties are not allowed (" ++ listed ++
    (if extras.length == 1 then " was" else " were") ++ " unexpected)"

def applyAdditionalProperties (s : Site) (descend : Descent) (rule : Json) : Outcome :=
  let extras := extraKeys s
  match rule with
  | .obj _ => collect extras fun key =>
      match Table.get? (members s.subject) key with
      | some v => descend rule (s.under key) v
      | none => .ok []
  | rule =>
    s.refuseIf "additionalProperties" rule (!rule.truthy && !extras.isEmpty) (extrasMessage extras)

def indexed (start : Nat) : List Json → List (Nat × Json)
  | [] => []
  | v :: rest => (start, v) :: indexed (start + 1) rest

def applyItems (s : Site) (descend : Descent) (rule : Json) : Outcome :=
  let fixed := (items ((Table.get? s.schema "prefixItems").getD .null)).length
  let rest := (items s.subject).drop fixed
  match rule with
  | .bool false =>
    let shown := match rest with
      | [v] => v.display
      | vs => (Json.arr vs).display
    s.refuseIf "items" rule (!rest.isEmpty)
      ("Expected at most " ++ toString fixed ++ (if fixed == 1 then " item" else " items") ++
        " but found " ++ toString rest.length ++ " extra: " ++ shown)
  | rule => collect (indexed fixed rest) fun (i, v) => descend rule (s.child i) v

def applyPrefixItems (s : Site) (descend : Descent) (rule : Json) : Outcome :=
  collect ((indexed 0 (items s.subject)).zip (items rule)) fun ((i, v), schema) =>
    descend schema (s.child i) v

def applyLength (s : Site) (keyword : String) (rule : Json) : Outcome :=
  let limit := count rule
  let size? : Option Nat := match keyword, s.subject with
    | "minItems", .arr vs | "maxItems", .arr vs => some vs.length
    | "minLength", .str t | "maxLength", .str t => some t.length
    | "minLength", .unpaired t | "maxLength", .unpaired t => some t.length
    | "minProperties", .obj ms | "maxProperties", .obj ms => some ms.length
    | _, _ => none
  let few := if keyword == "minProperties" then " does not have enough properties" else " is too short"
  let many := if keyword == "maxProperties" then " has too many properties" else " is too long"
  match size? with
  | none => .ok []
  | some size =>
    if keyword == "minItems" || keyword == "minLength" || keyword == "minProperties" then
      s.refuseIf keyword rule (size < limit)
        (s.shown ++ if limit == 1 then " should be non-empty" else few)
    else
      s.refuseIf keyword rule (limit < size)
        (s.shown ++ if limit == 0 then " is expected to be empty" else many)

def applyBound (s : Site) (keyword : String) (rule : Json) : Outcome :=
  let (bad, words) := match keyword with
    | "minimum" => (less s.subject rule, " is less than the minimum of ")
    | "maximum" => (less rule s.subject, " is greater than the maximum of ")
    | "exclusiveMinimum" =>
      (lessOrEqual s.subject rule, " is less than or equal to the minimum of ")
    | _ => (lessOrEqual rule s.subject, " is greater than or equal to the maximum of ")
  s.refuseIf keyword rule bad (s.shown ++ words ++ rule.display)

/-- Divided by a number with a fraction, the rounded quotient has to be whole. -/
def isMultiple (v divisor : Json) : Bool :=
  match v, divisor with
  | .int n, .int d => Int.emod n d == 0
  | v, .int d => match units? v with
    | some u => Int.emod u (d * Binary64.unitsOfOne) == 0
    | none => true
  | .int n, .real d => ((Binary64.ofInt n).div d).isInteger
  | .real x, .real d => (x.div d).isInteger
  | _, _ => true

def applyMultipleOf (s : Site) (rule : Json) : Outcome :=
  s.refuseIf "multipleOf" rule (hasType s.subject "number" && !isMultiple s.subject rule)
    (s.shown ++ " is not a multiple of " ++ rule.display)

def applyOneOf (s : Site) (descend : Descent) (rule : Json) : Outcome := do
  let rec firstValid : List Json → List (List Violation) →
      Except Failure (Sum (List (List Violation)) (Json × List Json))
    | [], acc => .ok (.inl acc.reverse)
    | schema :: rest, acc => do
      let found ← descend schema s.place s.subject
      if found.isEmpty then .ok (.inr (schema, rest)) else firstValid rest (found :: acc)
  let rec othersValid : List Json → Except Failure (List Json)
    | [] => .ok []
    | schema :: rest => do
      let found ← descend schema s.place s.subject
      let others ← othersValid rest
      return if found.isEmpty then schema :: others else others
  match ← firstValid (items rule) [] with
  | .inl alternatives =>
    return [⟨s.place, some "oneOf", rule, s.subject,
      s.shown ++ " is not valid under any of the given schemas", alternatives⟩]
  | .inr (schema, rest) =>
    let others ← othersValid rest
    s.refuseIf "oneOf" rule (!others.isEmpty)
      (s.shown ++ " is valid under each of " ++
        String.intercalate ", " ((others ++ [schema]).map Json.display))

def applyAnyOf (s : Site) (descend : Descent) (rule : Json) : Outcome := do
  let rec anyValid : List Json → Except Failure Bool
    | [] => .ok false
    | schema :: rest => do
      let found ← descend schema s.place s.subject
      if found.isEmpty then .ok true else anyValid rest
  let ok ← anyValid (items rule)
  s.refuseIf "anyOf" rule (!ok) (s.shown ++ " is not valid under any of the given schemas")

def applyNot (s : Site) (descend : Descent) (rule : Json) : Outcome := do
  let found ← descend rule s.place s.subject
  s.refuseIf "not" rule found.isEmpty
    (s.shown ++ " should not be valid under " ++ rule.display)

def applyIf (s : Site) (descend : Descent) (rule : Json) : Outcome := do
  let found ← descend rule s.place s.subject
  match Table.get? s.schema (if found.isEmpty then "then" else "else") with
  | some schema => descend schema s.place s.subject
  | none => return []

def applyContains (s : Site) (descend : Descent) (rule : Json) : Outcome := do
  let least := ((Table.get? s.schema "minContains").map count).getD 1
  let rec matching : List Json → Except Failure Nat
    | [] => .ok 0
    | v :: rest => do
      let found ← descend rule s.place v
      let others ← matching rest
      return if found.isEmpty then others + 1 else others
  match s.subject with
  | .arr vs =>
    let found ← matching vs
    match Table.get? s.schema "maxContains" with
    | some most =>
      if count most < found then
        s.refuse "maxContains" most
          ("Too many items match the given schema (expected at most " ++ most.display ++ ")")
      else few least found
    | none => few least found
  | _ => return []
where
  few (least found : Nat) : Outcome :=
    if least ≤ found then .ok []
    else if found == 0 then
      s.refuse "contains" rule (s.shown ++ " does not contain items matching the given schema")
    else
      s.refuse "minContains" (.int least)
        ("Too few items match the given schema (expected at least " ++ toString least ++
          " but only " ++ toString found ++ " matched)")

def applyDependentRequired (s : Site) (rule : Json) : Outcome :=
  let ms := members s.subject
  .ok <| (members rule).flatMap fun (key, needed) =>
    if Table.has ms key then
      ((strings needed).filter fun k => !Table.has ms k).map fun k =>
        s.violation "dependentRequired" rule
          (Text.quoted k ++ " is a dependency of " ++ Text.quoted key)
    else []

def applyDependentSchemas (s : Site) (descend : Descent) (rule : Json) : Outcome :=
  collect (members rule) fun (key, schema) =>
    if Table.has (members s.subject) key then descend schema s.place s.subject else .ok []

/-- The violations of one keyword, in the order in which they are found; an unknown keyword asks
for nothing. -/
def applyKeyword (resolve : String → Option Json) (descend : Descent) (s : Site)
    (keyword : String) (rule : Json) : Outcome :=
  match keyword with
  | "$ref" | "$dynamicRef" => match rule with
    | .str reference => match resolve reference with
      | some schema => descend schema s.place s.subject
      | none => .error (.unresolvable reference)
    | _ => .ok []
  | "type" => applyType s rule
  | "properties" => applyProperties s descend rule
  | "required" => applyRequired s rule
  | "additionalProperties" => applyAdditionalProperties s descend rule
  | "propertyNames" =>
    collect (Table.keys (members s.subject)) fun key => descend rule s.place (.str key)
  | "dependentRequired" => applyDependentRequired s rule
  | "dependentSchemas" => applyDependentSchemas s descend rule
  | "items" => applyItems s descend rule
  | "prefixItems" => applyPrefixItems s descend rule
  | "contains" => applyContains s descend rule
  | "uniqueItems" =>
    s.refuseIf "uniqueItems" rule (rule.truthy && hasRepeat (items s.subject))
      (s.shown ++ " has non-unique elements")
  | "minItems" | "maxItems" | "minLength" | "maxLength" | "minProperties" | "maxProperties" =>
    applyLength s keyword rule
  | "minimum" | "maximum" | "exclusiveMinimum" | "exclusiveMaximum" =>
    if hasType s.subject "number" then applyBound s keyword rule else .ok []
  | "multipleOf" => applyMultipleOf s rule
  | "const" =>
    s.refuseIf "const" rule (!sameValue rule s.subject) (rule.display ++ " was expected")
  | "enum" =>
    s.refuseIf "enum" rule (!(items rule).any (sameValue · s.subject))
      (s.shown ++ " is not one of " ++ rule.display)
  | "allOf" => collect (items rule) fun schema => descend schema s.place s.subject
  | "anyOf" => applyAnyOf s descend rule
  | "oneOf" => applyOneOf s descend rule
  | "not" => applyNot s descend rule
  | "if" => applyIf s descend rule
  | _ => .ok []

end Flowplan.Schema
