import Flowplan.Proofs.AcceptedDenotation
import Flowplan.Proofs.FiniteNumbers
import Mathlib.Data.List.Forall2

/-!
A plan written out with every optional member. It is the document that the plan was parsed from,
up to the order of the members and with null for what was left out, and it parses as the same plan
again.
-/

namespace Flowplan
set_option autoImplicit true

open Flowplan.Json Flowplan.Plan

/-- The members of a step that may be left out. -/
def StepKind.optional : StepKind → List String
  | .branch => ["else"]
  | .request => ["headers", "body"]
  | .action => ["input"]
  | _ => []

/-- The members of a plan document that have parts of the plan below them, and not values of their
own. -/
def Plan.partKeys : List String := ["when", "steps", "cases", "else"]

namespace Json

/-- The optional members of an object, which has some if it is a step. -/
def optionalKeys (o : Object) : List String :=
  match Table.get? o "type" with
  | some (.str name) => ((StepKind.ofName? name).map StepKind.optional).getD []
  | _ => []

/-- An object with null for those of the keys that it does not have. -/
def withNulls (keys : List String) (o : Object) : Object :=
  o ++ (keys.filter fun key => !Table.has o key).map (·, Json.null)

mutual

/-- A plan document with null for every optional member that is left out, at every depth. -/
def completed : Json → Json
  | .obj o => .obj (withNulls (optionalKeys o) (completedMembers o))
  | .arr vs => .arr (completedItems vs)
  | v => v

def completedItems : List Json → List Json
  | [] => []
  | v :: rest => v.completed :: completedItems rest

def completedMembers : List (String × Json) → List (String × Json)
  | [] => []
  | (key, v) :: rest =>
    (key, if key ∈ partKeys then v.completed else v) :: completedMembers rest

end

/-- Two plan documents are the same up to the order of the members of plans, steps, cases and
conditions. All other values are the same as they stand. -/
inductive Rearranged : Json → Json → Prop
  | same : Rearranged v v
  | items (each : List.Forall₂ Rearranged vs ws) : Rearranged (.arr vs) (.arr ws)
  | members {o p : Object} (keys : ∀ key, key ∈ Table.keys o ↔ key ∈ Table.keys p)
      (values : ∀ key, key ∉ partKeys → Table.get? o key = Table.get? p key)
      (parts : ∀ key ∈ partKeys, ∀ v w, Table.get? o key = some v → Table.get? p key = some w →
        Rearranged v w) : Rearranged (.obj o) (.obj p)

end Json

def Member.settled {α : Type} (m : Member α) : Member α := .ofOption m.toOption

namespace Step

mutual

/-- A step with null for what is left out; to the program the two are the same. -/
def settled : Step → Step
  | .branch cases otherwise => .branch (settledCases cases) (settledElse otherwise)
  | .request method url headers body => .request method url headers.settled body.settled
  | .action slug input => .action slug input.settled
  | s => s

def settledList : List Step → List Step
  | [] => []
  | s :: rest => s.settled :: settledList rest

def settledCase : Case Step → Case Step
  | ⟨condition, steps⟩ => ⟨condition, settledList steps⟩

def settledCases : List (Case Step) → List (Case Step)
  | [] => []
  | c :: rest => settledCase c :: settledCases rest

def settledElse : Member (List Step) → Member (List Step)
  | .given steps => .given (settledList steps)
  | _ => .null

end

end Step

namespace Plan

def settled (p : Plan) : Plan := { p with steps := Step.settledList p.steps }

/-- Plans that differ at most in whether an optional member is left out or null. -/
def Same (p q : Plan) : Prop := p.settled = q.settled

end Plan

theorem Member.settled_settled {α : Type} (m : Member α) : m.settled.settled = m.settled := by
  cases m <;> rfl

namespace Step

mutual

theorem settled_settled (s : Step) : s.settled.settled = s.settled := by
  match s with
  | .branch cases otherwise =>
    rw [settled, settled, settledCases_settledCases, settledElse_settledElse]
  | .request method url headers body =>
    rw [settled, settled, Member.settled_settled, Member.settled_settled]
  | .action slug input => rw [settled, settled, Member.settled_settled]
  | .trigger .. | .filter _ | .slack .. | .bare _ => rfl

theorem settledList_settledList (ss : List Step) :
    settledList (settledList ss) = settledList ss := by
  match ss with
  | [] => rfl
  | s :: rest =>
    rw [settledList, settledList, settled_settled, settledList_settledList]

theorem settledCases_settledCases (cs : List (Case Step)) :
    settledCases (settledCases cs) = settledCases cs := by
  match cs with
  | [] => rfl
  | ⟨condition, steps⟩ :: rest =>
    rw [settledCases, settledCases, settledCases_settledCases, settledCase, settledCase,
      settledList_settledList]

theorem settledElse_settledElse (e : Member (List Step)) :
    settledElse (settledElse e) = settledElse e := by
  match e with
  | .given steps => rw [settledElse, settledElse, settledList_settledList]
  | .absent | .null => rfl

end

end Step

theorem Plan.same_settled (p : Plan) : Same p.settled p := by
  rw [Same, settled, settled, Step.settledList_settledList]

namespace Json

theorem length_completedItems (vs : List Json) : (completedItems vs).length = vs.length := by
  induction vs with
  | nil => rfl
  | cons v rest ih => rw [completedItems, List.length_cons, List.length_cons, ih]

/-- What stands under a key of a document with its optional members. -/
def completedAt (key : String) (v : Json) : Json := if key ∈ partKeys then v.completed else v

theorem get?_completedMembers (o : Object) (key : String) :
    Table.get? (completedMembers o) key = (Table.get? o key).map (completedAt key) := by
  induction o with
  | nil => rfl
  | cons e rest ih =>
    obtain ⟨k, v⟩ := e
    rw [completedMembers, Table.get?, Table.get?]
    split
    · rename_i hk
      rw [← hk]
      rfl
    · exact ih

theorem get?_withNulls (keys : List String) (o : Object) (key : String) :
    Table.get? (withNulls keys o) key =
      (Table.get? o key).or (if key ∈ keys then some .null else none) := by
  rw [withNulls, Table.get?_append, Table.get?_map_same]
  cases hv : Table.get? o key with
  | none =>
    have hhas : Table.has o key = false := by rw [Table.has, hv, Option.isSome_none]
    simp [hhas]
  | some v => rfl

/-- The members of an object of a completed document. -/
theorem get?_completed (o : Object) (key : String) :
    Table.get? (withNulls (optionalKeys o) (completedMembers o)) key =
      ((Table.get? o key).map (completedAt key)).or
        (if key ∈ optionalKeys o then some .null else none) := by
  rw [get?_withNulls, get?_completedMembers]

/-- Objects are the same up to order where each member of the one is one of the other, and what the
one does not have the other does not have. -/
theorem Rearranged.of_get? {o p : Object}
    (hsome : ∀ key v, Table.get? o key = some v → ∃ w, Table.get? p key = some w ∧
      (key ∉ partKeys → v = w) ∧ (key ∈ partKeys → Rearranged v w))
    (hnone : ∀ key, Table.get? o key = none → Table.get? p key = none) :
    Rearranged (.obj o) (.obj p) := by
  refine .members ?_ ?_ ?_
  · intro key
    rw [← not_iff_not, ← Table.get?_eq_none_iff, ← Table.get?_eq_none_iff]
    constructor
    · exact hnone key
    · intro hmissing
      cases hv : Table.get? o key with
      | none => rfl
      | some v =>
        obtain ⟨w, hw, -⟩ := hsome key v hv
        simp [hmissing] at hw
  · intro key hkey
    cases hv : Table.get? o key with
    | none => exact (hnone key hv).symm
    | some v =>
      obtain ⟨w, hw, hvalue, -⟩ := hsome key v hv
      rw [hw, hvalue hkey]
  · intro key hkey v w hv hw
    obtain ⟨_, hw', -, hpart⟩ := hsome key v hv
    exact Option.some.inj (hw'.symm.trans hw) ▸ hpart hkey

/-- What is written under a key for a member of a document. -/
inductive Fills (key : String) : Option Json → Json → Prop
  | absent : Fills key none .null
  | value (hkey : key ∉ partKeys) : Fills key (some v) v
  | part (hkey : key ∈ partKeys) (h : Rearranged w v.completed) : Fills key (some v) w

namespace Fills

theorem of_get? (h : Table.get? o key = some v) (hkey : key ∉ partKeys) :
    Fills key (Table.get? o key) v := h ▸ .value hkey

theorem of_part (h : Table.get? o key = some v) (hkey : key ∈ partKeys)
    (hw : Rearranged w v.completed) : Fills key (Table.get? o key) w := h ▸ .part hkey hw

theorem completedAt (h : Fills key (some v) w) :
    (key ∉ partKeys → w = completedAt key v) ∧
      (key ∈ partKeys → Rearranged w (Json.completedAt key v)) := by
  cases h with
  | value hkey => exact ⟨fun _ => (if_neg hkey).symm, fun hpart => absurd hpart hkey⟩
  | part hkey h =>
    refine ⟨fun hvalue => absurd hkey hvalue, fun _ => ?_⟩
    rwa [Json.completedAt, if_pos hkey]

end Fills

/-- Members that are written one for each of an object's keys are its members, rearranged. -/
theorem rearranged_of_fills {o written : Object} {required optional : List String}
    (keys : HasKeys required optional o) (hoptional : optionalKeys o = optional)
    (hwritten : Table.keys written = required ++ optional)
    (h : ∀ e ∈ written, Fills e.1 (Table.get? o e.1) e.2) :
    Rearranged (.obj written) (Json.obj o).completed := by
  rw [completed]
  apply Rearranged.of_get?
  · intro key w hw
    have hmem := Table.mem_of_get? hw
    have hfills : Fills key (Table.get? o key) w := h _ hmem
    rw [get?_completed, hoptional]
    cases hv : Table.get? o key with
    | some v => exact ⟨_, rfl, (hv ▸ hfills).completedAt⟩
    | none =>
      -- What the document does not have is one of the optional members, and written as null.
      have hkey : key ∈ required ++ optional := hwritten ▸ List.mem_map.2 ⟨_, hmem, rfl⟩
      have hkept : key ∈ optional := by
        refine (List.mem_append.1 hkey).resolve_left fun hneeded => ?_
        exact Table.get?_eq_none_iff.1 hv (keys.all key hneeded)
      rw [hv] at hfills
      cases hfills
      exact ⟨.null, if_pos hkept, fun _ => rfl, fun _ => .same⟩
  · intro key hkey
    rw [Table.get?_eq_none_iff, hwritten] at hkey
    rw [get?_completed, hoptional, keys.get?_eq_none hkey,
      if_neg fun hmem => hkey (List.mem_append_right _ hmem)]
    rfl

end Json

end Flowplan
