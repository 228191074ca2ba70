import Flowplan.Plan.Parse
import Flowplan.Proofs.DocumentPath
import Flowplan.Proofs.TableLaws

/-!
What is wrong with the structure of a plan document, found by going through it once. A step is
looked at as the type that it states asks for, and as nothing else where it states no type that
there is. Each flaw is found at the place of a part that has it.
-/

namespace Flowplan.Plan
set_option autoImplicit true

open Flowplan.Json Flowplan.Schema

/-- The type of step that an object states. -/
def statedKind? (o : Object) : Option StepKind :=
  match Table.get? o "type" with
  | some (.str t) => StepKind.ofName? t
  | _ => none

def kind? : Json → Option StepKind
  | .obj o => statedKind? o
  | _ => none

/-- What a part of a document does not keep to. -/
inductive Flaw.Kind where
  | type (names : List String)
  | constant (text : String)
  | choice (names : List String)
  | missing (key : String)
  | unexpected (keys : List String)
  | fewItems (least : Nat)
  | manyItems (most : Nat)
  | shortText (least : Nat)
  | longText (most : Nat)
  /-- A step of no type that there is. -/
  | variant
deriving DecidableEq, Repr

structure Flaw where
  place : Locator
  kind : Flaw.Kind
deriving DecidableEq, Repr

namespace Flaw

def Kind.keyword : Kind → String
  | .type _ => "type"
  | .constant _ => "const"
  | .choice _ => "enum"
  | .missing _ => "required"
  | .unexpected _ => "additionalProperties"
  | .fewItems _ => "minItems"
  | .manyItems _ => "maxItems"
  | .shortText _ => "minLength"
  | .longText _ => "maxLength"
  | .variant => "oneOf"

def Kind.sentence (place : String) : Kind → String
  | .type names => "Value at " ++ place ++ " must be of type " ++ String.intercalate " or " names
  | .constant text => "Invalid value at " ++ place ++ ". Must be: " ++ text
  | .choice names =>
    "Invalid value at " ++ place ++ ". Must be one of: " ++ String.intercalate ", " names
  | .missing key => "Missing required property \"" ++ key ++ "\" at " ++ place
  | .unexpected keys => "Unexpected property at " ++ place ++ ": " ++ extrasMessage keys
  | .fewItems least =>
    "Array at " ++ place ++ " must have at least " ++ toString least ++ " items"
  | .manyItems most =>
    "Array at " ++ place ++ " must have no more than " ++ toString most ++ " items"
  | .shortText least =>
    "String at " ++ place ++ " must be at least " ++ toString least ++ " characters long"
  | .longText most =>
    "String at " ++ place ++ " must be no more than " ++ toString most ++ " characters long"
  | .variant => "Invalid step type at " ++ place ++ ". Must be one of: " ++
    String.intercalate ", " StepKind.names

def toDefect (f : Flaw) : Defect :=
  ⟨f.place.text, f.kind.keyword, f.kind.sentence f.place.text⟩

/-- What is wrong with a value at a place. -/
abbrev Check := Locator → Json → List Flaw

def flawIf (bad : Bool) (place : Locator) (kind : Kind) : List Flaw :=
  if bad then [⟨place, kind⟩] else []

def typed (names : List String) : Check := fun place v =>
  flawIf (!names.any (hasType v)) place (.type names)

def constant (text : String) : Check := fun place v =>
  typed ["string"] place v ++ flawIf (string? v != some text) place (.constant text)

def choice (names : List String) : Check := fun place v =>
  typed ["string"] place v ++ flawIf (!names.any (string? v == some ·)) place (.choice names)

/-- The length of a string. -/
def textLength? : Json → Option Nat
  | .str s => some s.length
  | .unpaired s => some s.length
  | _ => none

def itemCount? : Json → Option Nat
  | .arr vs => some vs.length
  | _ => none

/-- A text of a length within bounds. -/
def sized (least most : Nat) : Check := fun place v =>
  typed ["string"] place v ++
    flawIf ((textLength? v).any (· < least)) place (.shortText least) ++
    flawIf ((textLength? v).any (most < ·)) place (.longText most)

def openObject : Check := typed ["object", "null"]

/-- A member may be left out. -/
def inMember (key : String) (check : Check) (place : Locator) (o : Object) : List Flaw :=
  match Table.get? o key with
  | some v => check (place ++ [.name key]) v
  | none => []

def missing (needed : List String) (place : Locator) (o : Object) : List Flaw :=
  (needed.filter fun key => !Table.has o key).map fun key => ⟨place, .missing key⟩

def unexpected (known : List String) (place : Locator) (o : Object) : List Flaw :=
  let extras := (Table.keys o).filter fun key => !known.contains key
  flawIf (!extras.isEmpty) place (.unexpected extras)

/-- The keys of an object that has all of the needed members and no others than those and the
optional ones. -/
def inKeys (needed optional : List String) (place : Locator) (o : Object) : List Flaw :=
  missing needed place o ++ unexpected (needed ++ optional) place o

def ofCondition : Check := fun place v =>
  match v with
  | .obj o => inMember "field" (typed ["string"]) place o ++
    inMember "op" (choice ["contains", "equals", "gt", "lt", "regex"]) place o ++
    inKeys ["field", "op", "value"] [] place o
  | _ => [⟨place, .type ["object"]⟩]

def needed : StepKind → List String
  | .trigger => ["type", "path", "secretHmac"]
  | .filter => ["type", "when"]
  | .branch => ["type", "cases"]
  | .slack => ["type", "channel", "text"]
  | .request => ["type", "method", "url"]
  | .action => ["type", "actionSlug"]

def optional : StepKind → List String
  | .branch => ["else"]
  | .request => ["headers", "body"]
  | .action => ["input"]
  | _ => []

/-- The members of an object that states a type of step, where what is wrong with the steps below
it is known. -/
def inStep (k : StepKind) (place : Locator) (o : Object) (below : List Flaw) : List Flaw :=
  (match k with
    | .trigger => inMember "path" (typed ["string"]) place o ++
      inMember "secretHmac" (typed ["boolean"]) place o
    | .filter => inMember "when" ofCondition place o
    | .branch => below
    | .slack => inMember "channel" (typed ["string"]) place o ++
      inMember "text" (typed ["string"]) place o
    | .request => inMember "method" (choice ["GET", "POST", "PUT", "DELETE"]) place o ++
      inMember "url" (typed ["string"]) place o ++
      inMember "headers" openObject place o ++ inMember "body" openObject place o
    | .action => inMember "actionSlug" (typed ["string"]) place o ++
      inMember "input" openObject place o) ++
  inKeys (needed k) (optional k) place o

mutual

def ofStep (place : Locator) : Json → List Flaw
  | .obj o => match statedKind? o with
    | some k => inStep k place o (casesIn place o ++ elseIn place o)
    | none => [⟨place, .variant⟩]
  | _ => [⟨place, .variant⟩]

def ofItems (place : Locator) (i : Nat) : List Json → List Flaw
  | [] => []
  | v :: rest => ofStep (place ++ [.index i]) v ++ ofItems place (i + 1) rest

def ofSteps (place : Locator) : Json → List Flaw
  | .arr vs => ofItems place 0 vs
  | _ => [⟨place, .type ["array"]⟩]

def ofElse (place : Locator) : Json → List Flaw
  | .null => []
  | .arr vs => ofItems place 0 vs
  | _ => [⟨place, .type ["array", "null"]⟩]

def ofCase (place : Locator) : Json → List Flaw
  | .obj o => inMember "when" ofCondition place o ++ stepsIn place o ++
    inKeys ["when", "steps"] [] place o
  | _ => [⟨place, .type ["object"]⟩]

def ofCaseItems (place : Locator) (i : Nat) : List Json → List Flaw
  | [] => []
  | v :: rest => ofCase (place ++ [.index i]) v ++ ofCaseItems place (i + 1) rest

def ofCases (place : Locator) : Json → List Flaw
  | .arr vs => ofCaseItems place 0 vs ++ flawIf (vs.length < 1) place (.fewItems 1)
  | _ => [⟨place, .type ["array"]⟩]

/-- The cases among the members of a branch. -/
def casesIn (place : Locator) : List (String × Json) → List Flaw
  | [] => []
  | (k, v) :: rest => if k = "cases" then ofCases (place ++ [.name "cases"]) v else casesIn place rest

/-- The else among the members of a branch. -/
def elseIn (place : Locator) : List (String × Json) → List Flaw
  | [] => []
  | (k, v) :: rest => if k = "else" then ofElse (place ++ [.name "else"]) v else elseIn place rest

/-- The steps among the members of a case. -/
def stepsIn (place : Locator) : List (String × Json) → List Flaw
  | [] => []
  | (k, v) :: rest => if k = "steps" then ofSteps (place ++ [.name "steps"]) v else stepsIn place rest

end

/-- The steps of a plan: one to fifty of them. -/
def ofPlanSteps : Check := fun place v =>
  match v with
  | .arr vs => ofItems place 0 vs ++ flawIf (vs.length < 1) place (.fewItems 1) ++
    flawIf (50 < vs.length) place (.manyItems 50)
  | _ => [⟨place, .type ["array"]⟩]

def ofPlan : Json → List Flaw
  | .obj o => inMember "version" (constant "1") [] o ++ inMember "name" (sized 1 100) [] o ++
    inMember "steps" ofPlanSteps [] o ++ inKeys ["version", "name", "steps"] [] [] o
  | _ => [⟨[], .type ["object"]⟩]

theorem ofItems_eq (place : Locator) (i : Nat) (vs : List Json) : ofItems place i vs =
    (indexed i vs).flatMap fun e => ofStep (place ++ [.index e.1]) e.2 := by
  induction vs generalizing i with
  | nil => rw [ofItems, indexed, List.flatMap_nil]
  | cons v rest ih => rw [ofItems, indexed, List.flatMap_cons, ih]

theorem ofCaseItems_eq (place : Locator) (i : Nat) (vs : List Json) : ofCaseItems place i vs =
    (indexed i vs).flatMap fun e => ofCase (place ++ [.index e.1]) e.2 := by
  induction vs generalizing i with
  | nil => rw [ofCaseItems, indexed, List.flatMap_nil]
  | cons v rest ih => rw [ofCaseItems, indexed, List.flatMap_cons, ih]

theorem casesIn_eq (place : Locator) (o : Object) :
    casesIn place o = inMember "cases" ofCases place o := by
  induction o with
  | nil => rw [casesIn, inMember, Table.get?]
  | cons e rest ih =>
    rw [casesIn, inMember, Table.get?, ih, inMember]
    split <;> rfl

theorem elseIn_eq (place : Locator) (o : Object) :
    elseIn place o = inMember "else" ofElse place o := by
  induction o with
  | nil => rw [elseIn, inMember, Table.get?]
  | cons e rest ih =>
    rw [elseIn, inMember, Table.get?, ih, inMember]
    split <;> rfl

theorem stepsIn_eq (place : Locator) (o : Object) :
    stepsIn place o = inMember "steps" ofSteps place o := by
  induction o with
  | nil => rw [stepsIn, inMember, Table.get?]
  | cons e rest ih =>
    rw [stepsIn, inMember, Table.get?, ih, inMember]
    split <;> rfl

end Flaw
end Flowplan.Plan
