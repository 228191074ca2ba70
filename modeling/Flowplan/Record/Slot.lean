import Flowplan.Record.Number
import Flowplan.Unicode.Digit

namespace Flowplan.Record

open Flowplan.Json

/-- A field of a record by the name it is written with and the name the program knows it by. -/
structure Slot where
  wire : String
  name : String
deriving DecidableEq, Repr

/-- A field written with its own name. -/
def Slot.plain (name : String) : Slot := ⟨name, name⟩

namespace Slot

/-- The name under which an object holds the field; the written one goes first. -/
def key? (f : Slot) (o : Object) : Option String :=
  if Table.has o f.wire then some f.wire
  else if Table.has o f.name then some f.name
  else none

def missing {α : Type} (f : Slot) : Checked α := .invalid [⟨[.name f.wire], .missing⟩]

/-- A field that has to be there. -/
def required {α : Type} (f : Slot) (o : Object) (read : Json → Checked α) : Checked α :=
  match f.key? o with
  | none => f.missing
  | some key => match Table.get? o key with
    | none => f.missing
    | some v => (read v).under (.name key)

/-- A field with a value for when it is left out. -/
def withDefault {α : Type} (f : Slot) (o : Object) (default : α) (read : Json → Checked α) :
    Checked α :=
  match f.key? o with
  | none => .valid default
  | some key => match Table.get? o key with
    | none => .valid default
    | some v => (read v).under (.name key)

end Slot

/-- A complaint for each member that is none of the fields. -/
def extras (fields : List Slot) (o : Object) : List Complaint :=
  let known := fields.filterMap (·.key? o)
  ((Table.keys o).filter fun key => !known.contains key).map fun key => ⟨[.name key], .extra⟩

/-- A record that is read from the members of an object and has no others. -/
def ofMembers {α : Type} (fields : List Slot) (o : Object) (read : Object → Checked α) : Checked α :=
  (read o).also (extras fields o)

def ofObject {α : Type} (name : String) (fields : List Slot) (read : Object → Checked α) :
    Json → Checked α
  | .obj o => ofMembers fields o read
  | _ => .refuse (.notRecord name)

def string : Json → Checked String
  | .str s => .valid s
  | .unpaired _ => .refuse .notText
  | _ => .refuse .notString

def sizedString (least most : Nat) (v : Json) : Checked String :=
  (string v).andThen fun s =>
    if s.length < least then .refuse (.shortText least)
    else if most < s.length then .refuse (.longText most)
    else .valid s

def integerFrom (least : Int) (v : Json) : Checked Int :=
  (integer v).andThen fun n => if n < least then .refuse (.below least) else .valid n

def anyValue (v : Json) : Checked Json := .valid v

def object : Json → Checked Object
  | .obj o => .valid o
  | _ => .refuse .notObject

def literal (expected : String) : Json → Checked String
  | .str s => if s == expected then .valid s else .refuse (.literal expected)
  | _ => .refuse (.literal expected)

def orNull {α : Type} (read : Json → Checked α) : Json → Checked (Option α)
  | .null => .valid none
  | v => (read v).map some

def itemsFrom {α : Type} (read : Json → Checked α) (i : Nat) : List Json → Checked (List α)
  | [] => .valid []
  | v :: rest => List.cons <$> (read v).under (.index i) <*> itemsFrom read (i + 1) rest

def list {α : Type} (read : Json → Checked α) : Json → Checked (List α)
  | .arr vs => itemsFrom read 0 vs
  | _ => .refuse .notList

def entries {α : Type} (read : Json → Checked α) : List (String × Json) → Checked (Table String α)
  | [] => .valid []
  | (k, v) :: rest =>
    (fun a others => (k, a) :: others) <$> (read v).under (.name k) <*> entries read rest

def table {α : Type} (read : Json → Checked α) : Json → Checked (Table String α)
  | .obj o => entries read o
  | _ => .refuse .notObject

/-- A pair of integers; an item too many counts before all others. -/
def integerPair : Json → Checked (Int × Int)
  | .arr [] => .invalid [⟨[.index 0], .missing⟩, ⟨[.index 1], .missing⟩]
  | .arr [a] => Prod.mk <$> (integer a).under (.index 0) <*> .invalid [⟨[.index 1], .missing⟩]
  | .arr [a, b] => Prod.mk <$> (integer a).under (.index 0) <*> (integer b).under (.index 1)
  | .arr vs => .refuse (.manyItems "Tuple" 2 vs.length)
  | _ => .refuse .notTuple

end Flowplan.Record
