import Flowplan.Plan.Read

namespace Flowplan
set_option autoImplicit true

open Flowplan.Json

namespace Json

mutual

/-- No string in a value has a half of a surrogate pair in it. -/
def paired : Json → Bool
  | .unpaired _ => false
  | .arr vs => pairedItems vs
  | .obj ms => pairedMembers ms
  | _ => true

def pairedItems : List Json → Bool
  | [] => true
  | v :: rest => v.paired && pairedItems rest

def pairedMembers : List (String × Json) → Bool
  | [] => true
  | (_, v) :: rest => v.paired && pairedMembers rest

end

theorem paired_of_mem {vs : List Json} (h : (Json.arr vs).paired = true) (hv : v ∈ vs) :
    v.paired = true := by
  change pairedItems vs = true at h
  induction vs with
  | nil => exact absurd hv List.not_mem_nil
  | cons w rest ih =>
    rw [pairedItems, Bool.and_eq_true] at h
    rcases List.mem_cons.1 hv with rfl | hv
    · exact h.1
    · exact ih hv h.2

theorem paired_of_get? {ms : Object} (h : (Json.obj ms).paired = true)
    (hv : Table.get? ms key = some v) : v.paired = true := by
  change pairedMembers ms = true at h
  induction ms with
  | nil => simp [Table.get?] at hv
  | cons e rest ih =>
    obtain ⟨k, w⟩ := e
    rw [pairedMembers, Bool.and_eq_true] at h
    rw [Table.get?] at hv
    split at hv
    · exact Option.some.inj hv ▸ h.1
    · exact ih hv h.2

end Json

/-- An object with all of the required keys, and beyond them with optional ones only. -/
structure HasKeys (required optional : List String) (o : Object) : Prop where
  all : ∀ key ∈ required, key ∈ Table.keys o
  only : ∀ key ∈ Table.keys o, key ∈ required ++ optional

inductive IsCondition : Json → Prop
  | mk {o : Object} (keys : HasKeys ["field", "op", "value"] [] o)
      (field : Table.get? o "field" = some (.str s))
      (op : Table.get? o "op" = some (.str name))
      (known : name ∈ ["contains", "equals", "gt", "lt", "regex"]) :
      IsCondition (.obj o)

/-- An optional member that is an object where it is given. -/
inductive IsOptionalObject : Option Json → Prop
  | absent : IsOptionalObject none
  | null : IsOptionalObject (some .null)
  | given : IsOptionalObject (some (.obj o))

mutual

/-- The values that are steps, by the six names of their types. -/
inductive IsStep : Json → Prop
  | trigger {o : Object} (keys : HasKeys ["type", "path", "secretHmac"] [] o)
      (type : Table.get? o "type" = some (.str "trigger.http"))
      (path : Table.get? o "path" = some (.str s))
      (signed : Table.get? o "secretHmac" = some (.bool b)) : IsStep (.obj o)
  | filter {o : Object} (keys : HasKeys ["type", "when"] [] o)
      (type : Table.get? o "type" = some (.str "filter"))
      (condition : Table.get? o "when" = some c) (isCondition : IsCondition c) : IsStep (.obj o)
  | branch {o : Object} {cs : List Json} (keys : HasKeys ["type", "cases"] ["else"] o)
      (type : Table.get? o "type" = some (.str "branch"))
      (cases : Table.get? o "cases" = some (.arr cs)) (nonempty : cs ≠ [])
      (areCases : ∀ c ∈ cs, IsCase c) (otherwise : IsElse (Table.get? o "else")) :
      IsStep (.obj o)
  | slack {o : Object} (keys : HasKeys ["type", "channel", "text"] [] o)
      (type : Table.get? o "type" = some (.str "action.slack.postMessage"))
      (channel : Table.get? o "channel" = some (.str s))
      (text : Table.get? o "text" = some (.str t)) : IsStep (.obj o)
  | request {o : Object} (keys : HasKeys ["type", "method", "url"] ["headers", "body"] o)
      (type : Table.get? o "type" = some (.str "action.http.request"))
      (method : Table.get? o "method" = some (.str m))
      (known : m ∈ ["GET", "POST", "PUT", "DELETE"])
      (url : Table.get? o "url" = some (.str s))
      (headers : IsOptionalObject (Table.get? o "headers"))
      (body : IsOptionalObject (Table.get? o "body")) : IsStep (.obj o)
  | action {o : Object} (keys : HasKeys ["type", "actionSlug"] ["input"] o)
      (type : Table.get? o "type" = some (.str "custom.action"))
      (slug : Table.get? o "actionSlug" = some (.str s))
      (input : IsOptionalObject (Table.get? o "input")) : IsStep (.obj o)

inductive IsCase : Json → Prop
  | mk {o : Object} {ss : List Json} (keys : HasKeys ["when", "steps"] [] o)
      (condition : Table.get? o "when" = some c) (isCondition : IsCondition c)
      (steps : Table.get? o "steps" = some (.arr ss)) (areSteps : ∀ s ∈ ss, IsStep s) :
      IsCase (.obj o)

/-- The else of a branch, left out, null or given. -/
inductive IsElse : Option Json → Prop
  | absent : IsElse none
  | null : IsElse (some .null)
  | given {ss : List Json} (areSteps : ∀ s ∈ ss, IsStep s) : IsElse (some (.arr ss))

end

/-- The values that are plans. -/
inductive IsPlan : Json → Prop
  | mk {o : Object} {ss : List Json} (keys : HasKeys ["version", "name", "steps"] [] o)
      (version : Table.get? o "version" = some (.str "1"))
      (name : Table.get? o "name" = some (.str s)) (named : 1 ≤ s.length) (short : s.length ≤ 100)
      (steps : Table.get? o "steps" = some (.arr ss)) (nonempty : 1 ≤ ss.length)
      (few : ss.length ≤ 50) (areSteps : ∀ s ∈ ss, IsStep s) : IsPlan (.obj o)

end Flowplan
