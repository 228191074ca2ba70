import Flowplan.Action.Definition

namespace Flowplan.Action

open Flowplan.Json

/-- Actions that every organization sees, by slug, and those of one organization, by organization
and slug. -/
structure Registry where
  shared : Table String Definition
  owned : Table (String × String) Definition

namespace Registry

def empty : Registry := ⟨[], []⟩

def ofShared (initial : List (String × Definition)) : Registry := ⟨Table.ofPairs initial, []⟩

/-- Adds an action, for one organization or for all. -/
def register (r : Registry) (org : Option String) (d : Definition) : Registry :=
  match org with
  | none => { r with shared := Table.set r.shared d.slug d }
  | some org => { r with owned := Table.set r.owned (org, d.slug) d }

/-- An organization's own action goes before a shared one. -/
def lookUp (r : Registry) (slug org : String) : Option Definition :=
  (Table.get? r.owned (org, slug)).or (Table.get? r.shared slug)

/-- Who an action is for: all, one organization, or an owner that no organization can be. -/
inductive Owner where
  | everyone
  | org (name : String)
  | nobody

def ownerOf (o : Object) : Except Fault Owner :=
  match Table.get? o "org_id" with
  | none => .ok .everyone
  | some v => match v with
    | .null => .ok .everyone
    | .str name => .ok (.org name)
    | v => match keyText? v with
      | some _ => .ok .nobody
      | none => .error (.unusableKey v)

def add (r : Registry) (slug : String) (v : Json) : Except Fault Registry := do
  let d ← Definition.ofJson slug v
  match v with
  | .obj o => match ← ownerOf o with
    | .everyone => return r.register none d
    | .org name => return r.register (some name) d
    | .nobody => return r
  | _ => return r

def addAll (r : Registry) : List (String × Json) → Except Fault Registry
  | [] => .ok r
  | (slug, v) :: rest => do
    let r ← r.add slug v
    r.addAll rest

/-- The registry of descriptions by slug. -/
def ofJson : Json → Except Fault Registry
  | .obj o => empty.addAll o
  | v => .error (.noDescriptions v)

theorem lookUp_register_shared (r : Registry) (d : Definition) (slug org : String) :
    (r.register none d).lookUp slug org =
      (Table.get? r.owned (org, slug)).or
        (if slug = d.slug then some d else Table.get? r.shared slug) := by
  simp [register, lookUp, Table.get?_set]

theorem lookUp_register_owned (r : Registry) (d : Definition) (owner slug org : String) :
    (r.register (some owner) d).lookUp slug org =
      if (org, slug) = (owner, d.slug) then some d else r.lookUp slug org := by
  simp only [register, lookUp, Table.get?_set]
  split <;> simp

end Registry
end Flowplan.Action
