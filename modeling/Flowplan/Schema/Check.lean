import Flowplan.Schema.Keyword
import Flowplan.Unicode.Digit

namespace Flowplan.Schema

open Flowplan.Json

/-- The escapes of a name in a reference: `~1` is a slash and `~0` a tilde. -/
def unescapeName : List Char → List Char
  | '~' :: '1' :: rest => '/' :: unescapeName rest
  | '~' :: '0' :: rest => '~' :: unescapeName rest
  | c :: rest => c :: unescapeName rest
  | [] => []

def step? (v : Json) (name : String) : Option Json :=
  match v with
  | .obj ms => Table.get? ms name
  | .arr vs => name.toNat?.bind fun i => vs[i]?
  | _ => none

/-- The part of a document that a reference points to. -/
def resolve (document : Json) (reference : String) : Option Json :=
  match reference.toList with
  | ['#'] => some document
  | '#' :: '/' :: rest =>
    (Text.pieces '/' rest).foldl
      (fun v name => v.bind fun v => step? v (String.ofList (unescapeName name))) (some document)
  | _ => none

/-- The violations of a schema by a value, in the order of the schema's keywords. The budget bounds
how many schemas may be entered one inside the other. -/
def check (document : Json) (budget : Nat) (schema : Json) (place : Locator) (v : Json) : Outcome :=
  match budget with
  | 0 => .error .tooDeep
  | budget + 1 =>
    match schema with
    | .bool false =>
      .ok [⟨place, none, .null, v, "False schema does not allow " ++ v.display, []⟩]
    | .obj keywords =>
      collect keywords fun (keyword, rule) =>
        applyKeyword (resolve document) (check document budget) ⟨keywords, place, v⟩ keyword rule
    | _ => .ok []

/-- How deep the schemas of a document may be entered. -/
def defaultBudget : Nat := 500

/-- Every violation of a schema by a value. -/
def violations (schema v : Json) : Outcome := check schema defaultBudget schema [] v

end Flowplan.Schema
