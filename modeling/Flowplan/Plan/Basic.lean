import Flowplan.Json.Basic

namespace Flowplan

open Flowplan.Json

/-- An optional member of a document: left out, written as null, or given. -/
inductive Member (α : Type) where
  | absent
  | null
  | given (a : α)
deriving DecidableEq, Repr

def Member.toOption {α : Type} : Member α → Option α
  | .given a => some a
  | _ => none

def Member.ofOption {α : Type} : Option α → Member α
  | some a => .given a
  | none => .null

/-- How a condition compares; an operator from outside a checked document may be anything. -/
inductive Operator where
  | contains
  | equals
  | gt
  | lt
  | regex
  | other (v : Json)

namespace Operator

def known : List (String × Operator) :=
  [("contains", .contains), ("equals", .equals), ("gt", .gt), ("lt", .lt), ("regex", .regex)]

def ofName? (s : String) : Option Operator := Table.get? known s

def ofJson (v : Json) : Operator :=
  match v with
  | .str s => (ofName? s).getD (.other v)
  | v => .other v

def toJson : Operator → Json
  | .contains => .str "contains"
  | .equals => .str "equals"
  | .gt => .str "gt"
  | .lt => .str "lt"
  | .regex => .str "regex"
  | .other v => v

end Operator

/-- A method of a request; from outside a checked document it may be any text. -/
inductive Method where
  | get
  | post
  | put
  | delete
  | other (name : String)
deriving DecidableEq, Repr

namespace Method

def known : List (String × Method) :=
  [("GET", .get), ("POST", .post), ("PUT", .put), ("DELETE", .delete)]

def ofName? (s : String) : Option Method := Table.get? known s

def ofName (s : String) : Method := (ofName? s).getD (.other s)

def name : Method → String
  | .get => "GET"
  | .post => "POST"
  | .put => "PUT"
  | .delete => "DELETE"
  | .other s => s

end Method

/-- A comparison against a field of the incoming item. -/
structure Condition where
  field : String
  op : Operator
  value : Json

/-- One way of a branch: the steps that run where its condition holds. -/
structure Case (σ : Type) where
  condition : Condition
  steps : List σ

inductive Step where
  | trigger (path : String) (signed : Bool)
  | filter (condition : Condition)
  | branch (cases : List (Case Step)) (otherwise : Member (List Step))
  | slack (channel text : String)
  | request (method : Method) (url : String) (headers body : Member Object)
  | action (slug : String) (input : Member Object)
  /-- A step of a type that the program does not know, or of none. -/
  | bare (type : Option String)

inductive StepKind where
  | trigger
  | filter
  | branch
  | slack
  | request
  | action
deriving DecidableEq, Repr

namespace StepKind

def all : List StepKind := [.trigger, .filter, .branch, .slack, .request, .action]

def name : StepKind → String
  | .trigger => "trigger.http"
  | .filter => "filter"
  | .branch => "branch"
  | .slack => "action.slack.postMessage"
  | .request => "action.http.request"
  | .action => "custom.action"

def names : List String := all.map name

def ofName? (s : String) : Option StepKind := all.find? fun k => k.name == s

theorem ofName?_name (k : StepKind) : ofName? k.name = some k := by
  cases k <;> decide

end StepKind

namespace Step

def kind? : Step → Option StepKind
  | .trigger _ _ => some .trigger
  | .filter _ => some .filter
  | .branch _ _ => some .branch
  | .slack _ _ => some .slack
  | .request _ _ _ _ => some .request
  | .action _ _ => some .action
  | .bare _ => none

def type? : Step → Option String
  | .bare type => type
  | s => s.kind?.map StepKind.name

def isTriggerType (type : String) : Bool := "trigger.".toList.isPrefixOf type.toList

/-- Whether a step starts a workflow; a step without a type cannot tell. -/
def isTrigger? (s : Step) : Option Bool := s.type?.map isTriggerType

end Step

structure Plan where
  version : String
  name : String
  steps : List Step

end Flowplan
