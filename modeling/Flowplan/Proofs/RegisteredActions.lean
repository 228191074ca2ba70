import Flowplan.Action.Registry
import Flowplan.Proofs.ExceptLaws

/-!
Which action a registry finds after any run of registrations: the newest of those for the asking
organization, else the newest of those for all. Registrations that the organization cannot see make no
difference.
-/

namespace Flowplan.Action
set_option autoImplicit true

open Flowplan.Json

namespace Registry.Owner

def isOrg (name : String) : Owner → Bool
  | .org owner => owner == name
  | .everyone => false
  | .nobody => false

def isEveryone : Owner → Bool
  | .everyone => true
  | .org _ => false
  | .nobody => false

end Registry.Owner

open Registry (Owner ownerOf)

/-- An action and those it is registered for. -/
structure Registration where
  owner : Owner
  definition : Definition

namespace Registration

/-- The registration that the description of a slug's action asks for. -/
def ofJson (slug : String) : Json → Except Fault Registration
  | .obj o => do
    let d ← Definition.ofMembers slug o
    let owner ← ownerOf o
    return ⟨owner, d⟩
  | v => .error (.noMembers v)

def ofMembers : List (String × Json) → Except Fault (List Registration)
  | [] => .ok []
  | (slug, v) :: rest => do
    let e ← ofJson slug v
    let others ← ofMembers rest
    return e :: others

/-- The registrations that descriptions by slug ask for, in their order. -/
def ofDescriptions : Json → Except Fault (List Registration)
  | .obj o => ofMembers o
  | v => .error (.noDescriptions v)

/-- For one organization and under a slug. -/
def isOwned (org slug : String) (e : Registration) : Bool :=
  e.owner.isOrg org && e.definition.slug == slug

/-- For all organizations and under a slug. -/
def isShared (slug : String) (e : Registration) : Bool :=
  e.owner.isEveryone && e.definition.slug == slug

/-- What an organization can come across that asks for some slugs only. -/
def isVisible (org : String) (slugs : String → Bool) (e : Registration) : Bool :=
  slugs e.definition.slug && (e.owner.isOrg org || e.owner.isEveryone)

/-- The definition in the last registration of a kind. -/
def newest? (meant : Registration → Bool) (es : List Registration) : Option Definition :=
  (es.filter meant).getLast?.map definition

variable {meant : Registration → Bool} {es fs : List Registration} {slugs : String → Bool}

theorem newest?_cons (meant : Registration → Bool) (e : Registration) (es : List Registration) :
    newest? meant (e :: es) =
      (newest? meant es).or (if meant e then some e.definition else none) := by
  cases he : meant e with
  | false =>
    rw [newest?, List.filter_cons_of_neg (by simp [he]), newest?, if_neg (by simp), Option.or_none]
  | true =>
    rw [newest?, List.filter_cons_of_pos he, newest?, List.getLast?_cons]
    cases (es.filter meant).getLast? <;> rfl

/-- What is not visible may be left out, added or moved. -/
theorem newest?_of_visible (hmeant : ∀ e, meant e = true → isVisible org slugs e = true)
    (h : es.filter (isVisible org slugs) = fs.filter (isVisible org slugs)) :
    newest? meant es = newest? meant fs := by
  have hfilter (es : List Registration) :
      es.filter meant = (es.filter (isVisible org slugs)).filter meant := by
    rw [List.filter_filter]
    refine List.filter_congr fun e _ => ?_
    cases he : meant e with
    | false => rfl
    | true => rw [hmeant e he, Bool.true_and]
  rw [newest?, newest?, hfilter es, hfilter fs, h]

theorem isVisible_of_isOwned (hslug : slugs slug = true) (e : Registration)
    (h : isOwned org slug e = true) : isVisible org slugs e = true := by
  simp only [isOwned, Bool.and_eq_true, beq_iff_eq] at h
  simp [isVisible, h.1, h.2, hslug]

theorem isVisible_of_isShared (hslug : slugs slug = true) (e : Registration)
    (h : isShared slug e = true) : isVisible org slugs e = true := by
  simp only [isShared, Bool.and_eq_true, beq_iff_eq] at h
  simp [isVisible, h.1, h.2, hslug]

end Registration

namespace Registry

open Registration

/-- Adds the action of a registration; one that nobody owns cannot be found. -/
def enter (r : Registry) (e : Registration) : Registry :=
  match e.owner with
  | .everyone => r.register none e.definition
  | .org name => r.register (some name) e.definition
  | .nobody => r

def enterAll (r : Registry) (es : List Registration) : Registry := es.foldl enter r

variable {meant : Registration → Bool}

theorem get?_owned_enter (r : Registry) (e : Registration) :
    Table.get? (r.enter e).owned (org, slug) =
      if isOwned org slug e then some e.definition else Table.get? r.owned (org, slug) := by
  obtain ⟨owner, d⟩ := e
  cases owner with
  | org name =>
    simp only [enter, register, Table.get?_set, isOwned, Owner.isOrg, Prod.mk.injEq,
      Bool.and_eq_true, beq_iff_eq, eq_comm (a := org), eq_comm (a := slug)]
  | everyone => rfl
  | nobody => rfl

theorem get?_shared_enter (r : Registry) (e : Registration) :
    Table.get? (r.enter e).shared slug =
      if isShared slug e then some e.definition else Table.get? r.shared slug := by
  obtain ⟨owner, d⟩ := e
  cases owner with
  | org name => rfl
  | everyone =>
    simp only [enter, register, Table.get?_set, isShared, Owner.isEveryone, Bool.true_and,
      beq_iff_eq, eq_comm (a := slug)]
  | nobody => rfl

/-- What one registration of a kind replaces, the newest of them replaces in a run. -/
theorem view_enterAll (view : Registry → Option Definition)
    (h : ∀ r e, view (enter r e) = if meant e then some e.definition else view r)
    (r : Registry) (es : List Registration) :
    view (r.enterAll es) = (newest? meant es).or (view r) := by
  induction es generalizing r with
  | nil => rfl
  | cons e es ih =>
    have hrest : view (r.enterAll (e :: es)) = (newest? meant es).or (view (r.enter e)) :=
      ih (r.enter e)
    rw [hrest, h, newest?_cons, Option.or_assoc]
    cases meant e <;> rfl

/-- The newest action of the organization goes before the newest shared one, and this before what was
there at first. -/
theorem lookUp_enterAll (initial : List (String × Definition)) (es : List Registration)
    (slug org : String) : ((ofShared initial).enterAll es).lookUp slug org =
      ((newest? (isOwned org slug) es).or (newest? (isShared slug) es)).or
        (Table.get? (Table.ofPairs initial) slug) := by
  have howned := view_enterAll (fun r => Table.get? r.owned (org, slug))
    get?_owned_enter (ofShared initial) es
  have hshared := view_enterAll (fun r => Table.get? r.shared slug)
    get?_shared_enter (ofShared initial) es
  have hnone : Table.get? (ofShared initial).owned (org, slug) = none := rfl
  rw [lookUp, howned, hshared, hnone, Option.or_none, Option.or_assoc]
  rfl

theorem add_eq (r : Registry) (slug : String) (v : Json) :
    r.add slug v = (Registration.ofJson slug v).map r.enter := by
  cases v with
  | obj o =>
    simp only [add, Definition.ofJson, Registration.ofJson]
    cases Definition.ofMembers slug o with
    | error f => rfl
    | ok d => cases ownerOf o with
      | error f => rfl
      | ok owner => cases owner <;> rfl
  | _ => rfl

theorem addAll_eq (r : Registry) (o : List (String × Json)) :
    r.addAll o = (Registration.ofMembers o).map r.enterAll := by
  induction o generalizing r with
  | nil => rfl
  | cons m rest ih =>
    obtain ⟨slug, v⟩ := m
    rw [addAll, add_eq, Registration.ofMembers]
    cases Registration.ofJson slug v with
    | error f => rfl
    | ok e =>
      change (r.enter e).addAll rest = _
      rw [ih]
      cases Registration.ofMembers rest <;> rfl

end Registry

/-- How a registry comes about: from shared actions under a key each, or from descriptions by slug. -/
inductive Origin where
  | entries (initial : List (String × Definition))
  | descriptions (v : Json)

namespace Origin

def registry : Origin → Except Fault Registry
  | .entries initial => .ok (.ofShared initial)
  | .descriptions v => Registry.ofJson v

/-- The actions that are there without a registration. -/
def initial : Origin → List (String × Definition)
  | .entries initial => initial
  | .descriptions _ => []

def registrations : Origin → Except Fault (List Registration)
  | .entries _ => .ok []
  | .descriptions v => Registration.ofDescriptions v

theorem registry_eq (o : Origin) :
    o.registry = o.registrations.map (Registry.ofShared o.initial).enterAll := by
  cases o with
  | entries initial => rfl
  | descriptions v => cases v with
    | obj members => exact Registry.addAll_eq .empty members
    | _ => rfl

end Origin

/-- What a registry has been through: how it came about, and what was registered later. -/
structure History where
  origin : Origin
  later : List Registration

namespace History

def registry (h : History) : Except Fault Registry := h.origin.registry.map (·.enterAll h.later)

/-- All registrations in their order. -/
def registrations (h : History) : Except Fault (List Registration) :=
  h.origin.registrations.map (· ++ h.later)

theorem registry_eq (h : History) :
    h.registry = h.registrations.map (Registry.ofShared h.origin.initial).enterAll := by
  rw [registry, registrations, Origin.registry_eq]
  cases h.origin.registrations with
  | error f => rfl
  | ok es => exact congrArg Except.ok List.foldl_append.symm

theorem exists_registrations {h : History} (hr : h.registry = .ok r) : ∃ es,
    h.registrations = .ok es ∧ r = (Registry.ofShared h.origin.initial).enterAll es := by
  rw [registry_eq] at hr
  cases hes : h.registrations with
  | error f => simp [hes, Except.map] at hr
  | ok es =>
    rw [hes] at hr
    cases hr
    exact ⟨es, rfl, rfl⟩

end History
end Flowplan.Action
