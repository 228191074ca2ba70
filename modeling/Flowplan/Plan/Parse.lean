import Flowplan.Json.Encoding
import Flowplan.Plan.Document
import Flowplan.Plan.Read
import Flowplan.Schema.Check
import Flowplan.Schema.Message

namespace Flowplan

open Flowplan.Json Flowplan.Schema

namespace Schema

/-- Where the type of an object stands among the given names. -/
def knownVariant? (names : List String) : Json → Option Nat
  | .obj o => match Table.get? o "type" with
    | some (.str t) => names.idxOf? t
    | _ => none
  | _ => none

mutual

/-- A choice between variants is replaced by the violations of the variant that the value's type
names, if there are any. -/
def Violation.expand (names : List String) : Violation → List Violation
  | ⟨place, keyword, rule, subject, message, alternatives⟩ =>
    let own : List Violation := [⟨place, keyword, rule, subject, message, alternatives⟩]
    if keyword = some "oneOf" then
      match knownVariant? names subject with
      | some i =>
        let found := expandAt names alternatives i
        if found.isEmpty then own else found
      | none => own
    else own

def expandAt (names : List String) : List (List Violation) → Nat → List Violation
  | [], _ => []
  | vs :: _, 0 => expandList names vs
  | _ :: rest, i + 1 => expandAt names rest i

def expandList (names : List String) : List Violation → List Violation
  | [] => []
  | v :: rest => v.expand names ++ expandList names rest

end
end Schema

namespace Plan

/-- One thing that is wrong with the structure of a document, and where. -/
structure Defect where
  path : String
  keyword : String
  message : String
deriving DecidableEq, Repr

namespace Defect

def atRoot (keyword message : String) : Defect := ⟨Locator.root, keyword, message⟩

def undecodable (reason : String) : Defect :=
  atRoot "json" ("Invalid plan JSON payload: " ++ reason)

def tooDeep (goal : String) : Defect := atRoot "depth" ("Plan is nested too deeply to " ++ goal)

def ofViolation (v : Violation) : Defect :=
  ⟨v.place.text, v.keyword.getD "None", (v.sentence? StepKind.names).getD v.message⟩

open Record in
def read : Json → Record.Checked Defect :=
  ofObject "StructuralError" [.plain "path", .plain "keyword", .plain "message"] fun o =>
    Defect.mk <$> (Slot.plain "path").required o string
      <*> (Slot.plain "keyword").required o string
      <*> (Slot.plain "message").required o string

def toJson (d : Defect) : Json :=
  .obj [("path", .str d.path), ("keyword", .str d.keyword), ("message", .str d.message)]

def ofComplaint (c : Record.Complaint) : Defect := ⟨c.place.text, c.fault.keyword, c.message⟩

end Defect

/-- A plan, or what is wrong with the document. -/
abbrev Parsed := Except (List Defect) Plan

def ofChecked : Record.Checked Plan → Parsed
  | .valid p => .ok p
  | .invalid cs => .error (cs.map .ofComplaint)

/-- The plan that a value is, checked against the schema first and then read. -/
def ofJson (v : Json) : Parsed :=
  match violations schema v with
  | .error _ => .error [.tooDeep "validate"]
  | .ok found => match expandList StepKind.names found with
    | [] => ofChecked (read v)
    | found => .error (found.map .ofViolation)

/-- A document as a value, as text or as bytes. -/
inductive Source where
  | value (v : Json)
  | text (s : String)
  | bytes (bs : List UInt8)

/-- An integer with more digits than can be read. -/
structure HugeInteger where
  digits : Nat
deriving DecidableEq, Repr

def HugeInteger.message (e : HugeInteger) : String := (ReadError.hugeInteger e.digits).message

def ofRead : Except ReadError Json → Except HugeInteger Parsed
  | .ok v => .ok (ofJson v)
  | .error (.hugeInteger digits) => .error ⟨digits⟩
  | .error .tooDeep => .ok (.error [.tooDeep "decode"])
  | .error e => .ok (.error [.undecodable e.message])

/-- The plan in a document; a value that is a string is taken as text. -/
def parse : Source → Except HugeInteger Parsed
  | .value (.str s) => ofRead (Json.read s)
  | .value (.unpaired s) => ofRead (Json.read s)
  | .value v => .ok (ofJson v)
  | .text s => ofRead (Json.read s)
  | .bytes bs => match readBytes bs with
    | .ok v => .ok (ofJson v)
    | .error (.undecodable e) => .ok (.error [.undecodable e.message])
    | .error (.unreadable e) => ofRead (.error e)

end Plan
end Flowplan
