import Flowplan.Plan.Basic

namespace Flowplan.Plan

open Flowplan.Json

/-- The name under which the schema of plan documents is kept. -/
def schemaId : String := "plan@v1"

namespace Document

def strings (names : List String) : Json := .arr (names.map .str)

def typed (name : String) : Json := .obj [("type", .str name)]

def reference (target : String) : Json := .obj [("$ref", .str ("#/$defs/" ++ target))]

def closed (properties : List (String × Json)) (required : List String) : Json :=
  .obj [("type", .str "object"), ("properties", .obj properties),
    ("required", strings required), ("additionalProperties", .bool false)]

def openObject : Json :=
  .obj [("type", strings ["object", "null"]), ("additionalProperties", .bool true)]

def chosen (names : List String) : Json :=
  .obj [("type", .str "string"), ("enum", strings names)]

def sequence : Json := .obj [("type", .str "array"), ("items", reference "step")]

def condition : Json :=
  closed [("field", typed "string"), ("op", chosen (Operator.known.map (·.1))),
    ("value", .obj [])] ["field", "op", "value"]

def branchCase : Json :=
  closed [("when", reference "condition"), ("steps", sequence)] ["when", "steps"]

/-- The members of each type of step besides its type, and those that it needs. -/
def members : StepKind → List (String × Json) × List String
  | .trigger => ([("path", typed "string"), ("secretHmac", typed "boolean")],
      ["path", "secretHmac"])
  | .filter => ([("when", reference "condition")], ["when"])
  | .branch => ([
      ("cases", .obj [("type", .str "array"), ("items", reference "branchCase"),
        ("minItems", .int 1)]),
      ("else", .obj [("type", strings ["array", "null"]), ("items", reference "step")])],
      ["cases"])
  | .slack => ([("channel", typed "string"), ("text", typed "string")], ["channel", "text"])
  | .request => ([("method", chosen (Method.known.map (·.1))), ("url", typed "string"),
      ("headers", openObject), ("body", openObject)], ["method", "url"])
  | .action => ([("actionSlug", typed "string"), ("input", openObject)], ["actionSlug"])

def variant (k : StepKind) : Json :=
  let (properties, required) := members k
  closed (("type", .obj [("type", .str "string"), ("const", .str k.name)]) :: properties)
    ("type" :: required)

end Document

open Document in
/-- The schema of plan documents. A step is one of six variants, and a branch refers to the schema
of steps again. -/
def schema : Json :=
  .obj [
    ("$schema", .str "https://json-schema.org/draft/2020-12/schema"),
    ("type", .str "object"),
    ("properties", .obj [
      ("version", .obj [("type", .str "string"), ("const", .str "1")]),
      ("name", .obj [("type", .str "string"), ("minLength", .int 1), ("maxLength", .int 100)]),
      ("steps", .obj [("type", .str "array"), ("items", reference "step"),
        ("minItems", .int 1), ("maxItems", .int 50)])]),
    ("required", strings ["version", "name", "steps"]),
    ("additionalProperties", .bool false),
    ("$defs", .obj [
      ("condition", condition),
      ("branchCase", branchCase),
      ("step", .obj [("oneOf", .arr (StepKind.all.map variant))])])]

end Flowplan.Plan
