import Flowplan.Plan.Basic

namespace Flowplan

open Flowplan.Json

mutual

/-- A value with nulls in the place of numbers that are not finite. -/
def Json.finite : Json → Json
  | .real x => if x.isFinite then .real x else .null
  | .arr vs => .arr (Json.finiteItems vs)
  | .obj ms => .obj (Json.finiteMembers ms)
  | v => v

def Json.finiteItems : List Json → List Json
  | [] => []
  | v :: rest => v.finite :: Json.finiteItems rest

def Json.finiteMembers : List (String × Json) → List (String × Json)
  | [] => []
  | (k, v) :: rest => (k, v.finite) :: Json.finiteMembers rest

end

/-- Which optional members are written: all of them, or those that the document has. -/
inductive Extent where
  | full
  | explicit
deriving DecidableEq

namespace Extent

def member (extent : Extent) (key : String) : Member Json → List (String × Json)
  | .absent => if extent = .full then [(key, .null)] else []
  | .null => [(key, .null)]
  | .given v => [(key, v)]

end Extent

def Member.map {α β : Type} (f : α → β) : Member α → Member β
  | .absent => .absent
  | .null => .null
  | .given a => .given (f a)

def objectMember (m : Member Object) : Member Json := m.map fun o => (Json.obj o).finite

def Condition.toJson (c : Condition) : Json :=
  .obj [("field", .str c.field), ("op", c.op.toJson), ("value", c.value.finite)]

namespace Step

mutual

/-- A step by the names of its document. -/
def toJson (extent : Extent) : Step → Json
  | .trigger path signed =>
    .obj [("type", .str "trigger.http"), ("path", .str path), ("secretHmac", .bool signed)]
  | .filter condition => .obj [("type", .str "filter"), ("when", condition.toJson)]
  | .branch cases otherwise =>
    .obj ([("type", .str "branch"), ("cases", .arr (casesToJson extent cases))] ++
      extent.member "else" (elseToJson extent otherwise))
  | .slack channel text =>
    .obj [("type", .str "action.slack.postMessage"), ("channel", .str channel),
      ("text", .str text)]
  | .request method url headers body =>
    .obj ([("type", .str "action.http.request"), ("method", .str method.name), ("url", .str url)] ++
      extent.member "headers" (objectMember headers) ++ extent.member "body" (objectMember body))
  | .action slug input =>
    .obj ([("type", .str "custom.action"), ("actionSlug", .str slug)] ++
      extent.member "input" (objectMember input))
  | .bare type => .obj (match type with
    | some t => [("type", .str t)]
    | none => [])

def caseToJson (extent : Extent) : Case Step → Json
  | ⟨condition, steps⟩ =>
    .obj [("when", condition.toJson), ("steps", .arr (listToJson extent steps))]

def casesToJson (extent : Extent) : List (Case Step) → List Json
  | [] => []
  | c :: rest => caseToJson extent c :: casesToJson extent rest

def elseToJson (extent : Extent) : Member (List Step) → Member Json
  | .absent => .absent
  | .null => .null
  | .given steps => .given (.arr (listToJson extent steps))

def listToJson (extent : Extent) : List Step → List Json
  | [] => []
  | s :: rest => toJson extent s :: listToJson extent rest

end

end Step

/-- A plan as a document with every optional member written. -/
def Plan.toJson (p : Plan) : Json :=
  .obj [("version", .str p.version), ("name", .str p.name),
    ("steps", .arr (Step.listToJson .full p.steps))]

end Flowplan
