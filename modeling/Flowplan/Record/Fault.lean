import Flowplan.Json.Basic
import Flowplan.Locator

namespace Flowplan.Record

/-- What is wrong with a value where a record is read. -/
inductive Fault where
  | missing
  | extra
  | notString
  | notText
  | shortText (least : Nat)
  | longText (most : Nat)
  | pattern (expected : String)
  | notBool
  | unreadableBool
  | notInteger
  | unreadableInteger
  | fractional
  | notFinite
  | hugeInteger
  | below (least : Int)
  | notList
  | fewItems (least count : Nat)
  | manyItems (kind : String) (most count : Nat)
  | notTuple
  | notObject
  | notRecord (name : String)
  | notFields
  | noTag (key : String)
  | unknownTag (key tag : String) (expected : List String)
  | literal (expected : String)
  | choice (expected : List String)
  | frozen
deriving DecidableEq, Repr

namespace Fault

def keyword : Fault → String
  | .missing => "missing"
  | .extra => "extra_forbidden"
  | .notString => "string_type"
  | .notText => "string_unicode"
  | .shortText _ => "string_too_short"
  | .longText _ => "string_too_long"
  | .pattern _ => "string_pattern_mismatch"
  | .notBool => "bool_type"
  | .unreadableBool => "bool_parsing"
  | .notInteger => "int_type"
  | .unreadableInteger => "int_parsing"
  | .fractional => "int_from_float"
  | .notFinite => "finite_number"
  | .hugeInteger => "int_parsing_size"
  | .below _ => "greater_than_equal"
  | .notList => "list_type"
  | .fewItems _ _ => "too_short"
  | .manyItems _ _ _ => "too_long"
  | .notTuple => "tuple_type"
  | .notObject => "dict_type"
  | .notRecord _ => "model_type"
  | .notFields => "model_attributes_type"
  | .noTag _ => "union_tag_not_found"
  | .unknownTag _ _ _ => "union_tag_invalid"
  | .literal _ => "literal_error"
  | .choice _ => "enum"
  | .frozen => "frozen_instance"

def counted (n : Nat) (word : String) : String :=
  toString n ++ " " ++ word ++ (if n == 1 then "" else "s")

/-- Names in quotes, with an `or` before the last one. -/
def alternatives : List String → String
  | [] => ""
  | [s] => "'" ++ s ++ "'"
  | [s, t] => "'" ++ s ++ "' or '" ++ t ++ "'"
  | s :: rest => "'" ++ s ++ "', " ++ alternatives rest

def message : Fault → String
  | .missing => "Field required"
  | .extra => "Extra inputs are not permitted"
  | .notString => "Input should be a valid string"
  | .notText => "Input should be a valid string, unable to parse raw data as a unicode string"
  | .shortText least => "String should have at least " ++ counted least "character"
  | .longText most => "String should have at most " ++ counted most "character"
  | .pattern expected => "String should match pattern '" ++ expected ++ "'"
  | .notBool => "Input should be a valid boolean"
  | .unreadableBool => "Input should be a valid boolean, unable to interpret input"
  | .notInteger => "Input should be a valid integer"
  | .unreadableInteger => "Input should be a valid integer, unable to parse string as an integer"
  | .fractional => "Input should be a valid integer, got a number with a fractional part"
  | .notFinite => "Input should be a finite number"
  | .hugeInteger => "Unable to parse input string as an integer, exceeded maximum size"
  | .below least => "Input should be greater than or equal to " ++ toString least
  | .notList => "Input should be a valid list"
  | .fewItems least count =>
    "List should have at least " ++ counted least "item" ++ " after validation, not " ++
      toString count
  | .manyItems kind most count =>
    kind ++ " should have at most " ++ counted most "item" ++ " after validation, not " ++
      toString count
  | .notTuple => "Input should be a valid tuple"
  | .notObject => "Input should be a valid dictionary"
  | .notRecord name => "Input should be a valid dictionary or instance of " ++ name
  | .notFields => "Input should be a valid dictionary or object to extract fields from"
  | .noTag key => "Unable to extract tag using discriminator '" ++ key ++ "'"
  | .unknownTag key tag expected =>
    "Input tag '" ++ tag ++ "' found using '" ++ key ++
      "' does not match any of the expected tags: " ++
      String.intercalate ", " (expected.map fun s => "'" ++ s ++ "'")
  | .literal expected => "Input should be '" ++ expected ++ "'"
  | .choice expected => "Input should be " ++ alternatives expected
  | .frozen => "Instance is frozen"

end Fault

structure Complaint where
  place : Locator
  fault : Fault
deriving DecidableEq, Repr

def Complaint.message (c : Complaint) : String := c.fault.message ++ " at " ++ c.place.text

/-- A value read in full, or everything that is wrong with it. -/
inductive Checked (α : Type) where
  | valid (a : α)
  | invalid (complaints : List Complaint)

namespace Checked

variable {α β : Type}

def complaints : Checked α → List Complaint
  | .valid _ => []
  | .invalid cs => cs

def refuse (fault : Fault) : Checked α := .invalid [⟨[], fault⟩]

def map (f : α → β) : Checked α → Checked β
  | .valid a => .valid (f a)
  | .invalid cs => .invalid cs

/-- Complaints of both parts are kept. -/
def both (f : Checked (α → β)) (a : Checked α) : Checked β :=
  match f, a with
  | .valid f, .valid a => .valid (f a)
  | f, a => .invalid (f.complaints ++ a.complaints)

instance : Functor Checked where
  map := map

instance : Applicative Checked where
  pure := .valid
  seq f a := both f (a ())

/-- The complaints placed under a part of a larger value. -/
def under (t : Token) : Checked α → Checked α
  | .valid a => .valid a
  | .invalid cs => .invalid (cs.map fun c => ⟨t :: c.place, c.fault⟩)

/-- Further complaints after those already there. -/
def also (more : List Complaint) : Checked α → Checked α
  | .valid a => if more.isEmpty then .valid a else .invalid more
  | .invalid cs => .invalid (cs ++ more)

/-- A test on a value that is otherwise in order. -/
def andThen (a : Checked α) (test : α → Checked β) : Checked β :=
  match a with
  | .valid a => test a
  | .invalid cs => .invalid cs

def toOption : Checked α → Option α
  | .valid a => some a
  | .invalid _ => none

theorem both_valid {f : Checked (α → β)} {a : Checked α} {b : β} :
    f.both a = .valid b ↔ ∃ g x, f = .valid g ∧ a = .valid x ∧ g x = b := by
  cases f <;> cases a <;> simp [both]

theorem under_valid {t : Token} {c : Checked α} {a : α} :
    c.under t = .valid a ↔ c = .valid a := by
  cases c <;> simp [under]

end Checked
end Flowplan.Record
