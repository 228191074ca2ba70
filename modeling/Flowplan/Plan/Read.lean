import Flowplan.Json.Display
import Flowplan.Plan.Basic
import Flowplan.Record.Slot

namespace Flowplan

open Flowplan.Json Flowplan.Record

namespace Operator

def names : List String := known.map (·.1)

def read : Json → Checked Operator
  | .str s => match ofName? s with
    | some op => .valid op
    | none => .refuse (.choice names)
  | _ => .refuse (.choice names)

end Operator

namespace Method

def names : List String := known.map (·.1)

def read : Json → Checked Method
  | .str s => match ofName? s with
    | some m => .valid m
    | none => .refuse (.choice names)
  | _ => .refuse (.choice names)

end Method

namespace Condition

def fields : List Slot := [.plain "field", .plain "op", .plain "value"]

def ofMembers (o : Object) : Checked Condition :=
  Condition.mk <$> (Slot.plain "field").required o string
    <*> (Slot.plain "op").required o Operator.read
    <*> (Slot.plain "value").withDefault o .null anyValue

def read : Json → Checked Condition := ofObject "Condition" fields ofMembers

end Condition

/-- An optional member of a record. -/
def Record.Slot.member {α : Type} (f : Slot) (o : Object) (read : Json → Checked α) :
    Checked (Member α) :=
  f.withDefault o .absent fun
    | .null => .valid .null
    | v => (read v).map .given

namespace StepKind

def fields : StepKind → List Slot
  | .trigger => [.plain "type", .plain "path", ⟨"secretHmac", "secret_hmac"⟩]
  | .filter => [.plain "type", .plain "when"]
  | .branch => [.plain "type", .plain "cases", ⟨"else", "else_"⟩]
  | .slack => [.plain "type", .plain "channel", .plain "text"]
  | .request => [.plain "type", .plain "method", .plain "url", .plain "headers", .plain "body"]
  | .action => [.plain "type", ⟨"actionSlug", "action_slug"⟩, .plain "input"]

/-- The type that a step states; it need not state one where only one fits. -/
def stated (k : StepKind) (o : Object) : Checked String :=
  (Slot.plain "type").withDefault o k.name (literal k.name)

/-- The type that tells which kind of step an object is. -/
def ofMembers (o : Object) : Checked StepKind :=
  match Table.get? o "type" with
  | none => .refuse (.noTag "type")
  | some v => match v with
    | .str s => match ofName? s with
      | some k => .valid k
      | none => .refuse (.unknownTag "type" s names)
    | v => .refuse (.unknownTag "type" v.plain names)

end StepKind

def atLeastOne {α : Type} (items : Checked (List α)) : Checked (List α) :=
  items.andThen fun xs => if xs.isEmpty then .refuse (.fewItems 1 0) else .valid xs

def caseFields : List Slot := [.plain "when", .plain "steps"]

namespace Step

/-- The steps that have no steps below them. -/
def flatOfMembers (k : StepKind) (o : Object) : Checked Step :=
  let step : Checked Step := match k with
    | .trigger =>
      (fun _ path signed => Step.trigger path signed) <$> k.stated o
        <*> (Slot.plain "path").required o string
        <*> (Slot.mk "secretHmac" "secret_hmac").required o boolean
    | .filter =>
      (fun _ condition => Step.filter condition) <$> k.stated o
        <*> (Slot.plain "when").required o Condition.read
    | .slack =>
      (fun _ channel text => Step.slack channel text) <$> k.stated o
        <*> (Slot.plain "channel").required o string
        <*> (Slot.plain "text").required o string
    | .request =>
      (fun _ method url headers body => Step.request method url headers body) <$> k.stated o
        <*> (Slot.plain "method").required o Method.read
        <*> (Slot.plain "url").required o string
        <*> (Slot.plain "headers").member o object
        <*> (Slot.plain "body").member o object
    | .action =>
      (fun _ slug input => Step.action slug input) <$> k.stated o
        <*> (Slot.mk "actionSlug" "action_slug").required o string
        <*> (Slot.plain "input").member o object
    | .branch => (fun _ => Step.branch [] .absent) <$> k.stated o
  step.also (extras k.fields o)

/-- A branch from what was read of its cases and of its else. -/
def branchOfParts (o : Object) (cases : Option (Checked (List (Case Step))))
    (otherwise : Option (String × Checked (Member (List Step)))) : Checked Step :=
  let step := (fun _ cases otherwise => Step.branch cases otherwise) <$> StepKind.branch.stated o
    <*> (match cases with
      | some cs => (atLeastOne cs).under (.name "cases")
      | none => (Slot.plain "cases").missing)
    <*> (match otherwise with
      | some (key, steps) => steps.under (.name key)
      | none => .valid .absent)
  step.also (extras StepKind.branch.fields o)

def caseOfParts (o : Object) (steps : Option (Checked (List Step))) : Checked (Case Step) :=
  (Case.mk <$> (Slot.plain "when").required o Condition.read
    <*> (match steps with
      | some ss => ss.under (.name "steps")
      | none => .valid [])).also (extras caseFields o)

mutual

def read : Json → Checked Step
  | .obj o => match StepKind.ofMembers o with
    | .invalid cs => .invalid cs
    | .valid k => Checked.under (.name k.name) <|
      if k = .branch then
        branchOfParts o (casesIn o)
          (((elseIn "else" o).map ("else", ·)).or ((elseIn "else_" o).map ("else_", ·)))
      else flatOfMembers k o
  | _ => .refuse .notFields

def readList : Json → Checked (List Step)
  | .arr vs => readItems 0 vs
  | _ => .refuse .notList

def readItems (i : Nat) : List Json → Checked (List Step)
  | [] => .valid []
  | v :: rest => List.cons <$> (read v).under (.index i) <*> readItems (i + 1) rest

def readCase : Json → Checked (Case Step)
  | .obj o => caseOfParts o (stepsIn o)
  | _ => .refuse (.notRecord "BranchCase")

def readCases : Json → Checked (List (Case Step))
  | .arr vs => readCaseItems 0 vs
  | _ => .refuse .notList

def readCaseItems (i : Nat) : List Json → Checked (List (Case Step))
  | [] => .valid []
  | v :: rest => List.cons <$> (readCase v).under (.index i) <*> readCaseItems (i + 1) rest

/-- The cases among the members of a branch. -/
def casesIn : List (String × Json) → Option (Checked (List (Case Step)))
  | [] => none
  | (k, v) :: rest => if k = "cases" then some (readCases v) else casesIn rest

/-- The steps among the members of a case. -/
def stepsIn : List (String × Json) → Option (Checked (List Step))
  | [] => none
  | (k, v) :: rest => if k = "steps" then some (readList v) else stepsIn rest

/-- The else among the members of a branch. -/
def elseIn (key : String) : List (String × Json) → Option (Checked (Member (List Step)))
  | [] => none
  | (k, v) :: rest => if k = key then some (readElse v) else elseIn key rest

def readElse : Json → Checked (Member (List Step))
  | .null => .valid .null
  | .arr vs => (readItems 0 vs).map .given
  | _ => .refuse .notList

end

/-- A step of one kind from the members of an object, which need not state its type. -/
def ofMembers (k : StepKind) (o : Object) : Checked Step :=
  if k = .branch then
    branchOfParts o (casesIn o)
      (((elseIn "else" o).map ("else", ·)).or ((elseIn "else_" o).map ("else_", ·)))
  else flatOfMembers k o

end Step

namespace StepKind

/-- The name of the record that a step of this kind is. -/
def recordName : StepKind → String
  | .trigger => "TriggerHttpStep"
  | .filter => "FilterStep"
  | .branch => "BranchStep"
  | .slack => "SlackPostMessageStep"
  | .request => "HttpRequestStep"
  | .action => "CustomActionStep"

/-- A step that is known to be of this kind. -/
def read (k : StepKind) : Json → Checked Step
  | .obj o => Step.ofMembers k o
  | _ => .refuse (.notRecord k.recordName)

end StepKind

/-- A step of which only the type is known. -/
def Step.readBare : Json → Checked Step :=
  ofObject "StepBase" [.plain "type"] fun o =>
    (fun type => Step.bare (some type)) <$> (Slot.plain "type").required o string

namespace Plan

def maxSteps : Nat := 50

def maxNameLength : Nat := 100

def fields : List Slot := [.plain "version", .plain "name", .plain "steps"]

/-- One to fifty steps; too many count before what is wrong with any of them. -/
def readSteps : Json → Checked (List Step)
  | .arr vs =>
    if maxSteps < vs.length then .refuse (.manyItems "List" maxSteps vs.length)
    else atLeastOne (Step.readItems 0 vs)
  | _ => .refuse .notList

def ofMembers (o : Object) : Checked Plan :=
  Plan.mk <$> (Slot.plain "version").withDefault o "1" (literal "1")
    <*> (Slot.plain "name").required o (sizedString 1 maxNameLength)
    <*> (Slot.plain "steps").required o readSteps

def read : Json → Checked Plan := ofObject "Plan" fields ofMembers

end Plan
end Flowplan
