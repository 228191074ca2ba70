import Flowplan.Locator
import Flowplan.Schema.Check

/-!
The names on the way to a violation. A keyword goes down to items by their index, and to members by
the names that the schema declares. Main statement: if a schema declares no other names than some,
no other name is on the way to a violation of it.
-/

namespace Flowplan.Schema
set_option autoImplicit true

open Flowplan.Json

/-- Whether a keyword goes down to members with some names only; a schema for additional members
lets in any name. -/
def admits (names : List String) (keyword : String) (rule : Json) : Bool :=
  match keyword, rule with
  | "properties", .obj o => (Table.keys o).all names.contains
  | "additionalProperties", .obj _ => false
  | _, _ => true

mutual

/-- Whether a schema declares no other names than some, at whatever depth. -/
def declares (names : List String) : Json → Bool
  | .arr vs => declaresItems names vs
  | .obj ms => declaresMembers names ms
  | _ => true

def declaresItems (names : List String) : List Json → Bool
  | [] => true
  | v :: rest => declares names v && declaresItems names rest

def declaresMembers (names : List String) : List (String × Json) → Bool
  | [] => true
  | (keyword, v) :: rest =>
    admits names keyword v && declares names v && declaresMembers names rest

end

theorem declares_of_mem_arr {vs : List Json} (h : declares names (.arr vs) = true) (hv : v ∈ vs) :
    declares names v = true := by
  rw [declares] at h
  induction vs with
  | nil => exact absurd hv List.not_mem_nil
  | cons w rest ih =>
    rw [declaresItems, Bool.and_eq_true] at h
    rcases List.mem_cons.1 hv with rfl | hv
    · exact h.1
    · exact ih h.2 hv

theorem declares_of_mem_obj {ms : Object} (h : declares names (.obj ms) = true)
    (hv : (keyword, v) ∈ ms) : admits names keyword v = true ∧ declares names v = true := by
  rw [declares] at h
  induction ms with
  | nil => exact absurd hv List.not_mem_nil
  | cons m rest ih =>
    rw [declaresMembers, Bool.and_eq_true, Bool.and_eq_true] at h
    rcases List.mem_cons.1 hv with rfl | hv
    · exact h.1
    · exact ih h.2 hv

theorem declares_of_get? {ms : Object} (h : declares names (.obj ms) = true)
    (hv : Table.get? ms key = some v) : declares names v = true :=
  (declares_of_mem_obj h (Table.mem_of_get? hv)).2

theorem declares_of_mem_items (h : declares names rule = true) (hr : r ∈ items rule) :
    declares names r = true := by
  cases rule with
  | arr vs => exact declares_of_mem_arr h hr
  | _ => exact absurd hr List.not_mem_nil

theorem declares_of_mem_members (h : declares names rule = true) (hr : (key, r) ∈ members rule) :
    declares names r = true := by
  cases rule with
  | obj ms => exact (declares_of_mem_obj h hr).2
  | _ => exact absurd hr List.not_mem_nil

theorem declares_of_step? (h : declares names v = true) (hw : step? v name = some w) :
    declares names w = true := by
  cases v with
  | obj ms => exact declares_of_get? h hw
  | arr vs =>
    obtain ⟨i, -, hi⟩ := Option.bind_eq_some_iff.1 hw
    exact declares_of_mem_arr h (List.mem_of_getElem? hi)
  | _ => exact nomatch hw

/-- A part that a reference points to declares no more than the document it is in. -/
theorem declares_of_resolve (h : declares names document = true)
    (hr : resolve document reference = some part) : declares names part = true := by
  have hsteps : ∀ (path : List (List Char)) (start : Option Json),
      (∀ v, start = some v → declares names v = true) →
      ∀ part, path.foldl (fun v name => v.bind fun v => step? v (String.ofList (unescapeName name)))
        start = some part → declares names part = true := by
    intro path
    induction path with
    | nil => exact fun start hstart part hpart => hstart part hpart
    | cons name rest ih =>
      intro start hstart part hpart
      refine ih _ ?_ part hpart
      intro w hw
      obtain ⟨v, hv, hstep⟩ := Option.bind_eq_some_iff.1 hw
      exact declares_of_step? (hstart v hv) hstep
  have hstart : ∀ v, some document = some v → declares names v = true :=
    fun v hv => Option.some.inj hv ▸ h
  unfold resolve at hr
  split at hr
  · exact hstart part hr
  · exact hsteps _ _ hstart part hr
  · exact nomatch hr

end Flowplan.Schema

namespace Flowplan
set_option autoImplicit true

/-- An index from zero on, or one of some names. -/
def Token.Among (names : List String) : Token → Prop
  | .index n => 0 ≤ n
  | .flag _ => False
  | .name s => s ∈ names

def Locator.Among (names : List String) (place : Locator) : Prop := ∀ t ∈ place, t.Among names

theorem Locator.Among.snoc {place : Locator} (h : place.Among names) (ht : t.Among names) :
    Locator.Among names (place ++ [t]) := by
  intro u hu
  rcases List.mem_append.1 hu with hu | hu
  · exact h u hu
  · exact List.mem_singleton.1 hu ▸ ht

namespace Schema

open Flowplan.Json

/-- No other names than some are on the way to a violation, nor to those of its alternatives. -/
inductive Violation.Among (names : List String) : Violation → Prop
  | mk (place : v.place.Among names)
      (alternatives : ∀ vs ∈ v.alternatives, ∀ w ∈ vs, Violation.Among names w) :
      Violation.Among names v

/-- All that is found is at places with no other names than some. -/
structure FoundAmong (names : List String) (o : Outcome) : Prop where
  among : ∀ found, o = .ok found → ∀ w ∈ found, w.Among names

theorem Site.violation_among {s : Site} (h : s.place.Among names) (keyword : String) (rule : Json)
    (message : String) : (s.violation keyword rule message).Among names :=
  .mk h fun _ hvs => absurd hvs List.not_mem_nil

namespace FoundAmong

variable {α : Type} {s : Site}

theorem ok (h : ∀ w ∈ found, w.Among names) : FoundAmong names (.ok found) :=
  ⟨fun _ hfound => Except.ok.inj hfound ▸ h⟩

theorem nothing : FoundAmong names (.ok []) := ok fun _ hw => absurd hw List.not_mem_nil

theorem error : FoundAmong names (.error e) := ⟨fun _ h => nomatch h⟩

theorem bind {o : Except Failure α} {f : α → Outcome}
    (h : ∀ a, o = .ok a → FoundAmong names (f a)) : FoundAmong names (o >>= f) := by
  cases o with
  | error e => exact error
  | ok a => exact h a rfl

theorem refuse (h : s.place.Among names) (keyword : String) (rule : Json) (message : String) :
    FoundAmong names (s.refuse keyword rule message) :=
  ok fun _ hw => List.mem_singleton.1 hw ▸ s.violation_among h keyword rule message

theorem refuseIf (h : s.place.Among names) (keyword : String) (rule : Json) (bad : Bool)
    (message : String) : FoundAmong names (s.refuseIf keyword rule bad message) := by
  cases bad with
  | false => exact nothing
  | true => exact refuse h keyword rule message

theorem collect {parts : List α} {f : α → Outcome} (h : ∀ a ∈ parts, FoundAmong names (f a)) :
    FoundAmong names (Schema.collect parts f) := by
  induction parts with
  | nil => exact nothing
  | cons a rest ih =>
    rw [Schema.collect]
    refine bind fun first hfirst => bind fun others hothers => ok fun w hw => ?_
    rcases List.mem_append.1 hw with hw | hw
    · exact (h a List.mem_cons_self).among first hfirst w hw
    · exact (ih fun b hb => h b (List.mem_cons_of_mem a hb)).among others hothers w hw

end FoundAmong

/-- A way to check values that goes on with the names of the schema only. -/
def KeepsTo (names : List String) (descend : Descent) : Prop :=
  ∀ schema place v, declares names schema = true → place.Among names →
    FoundAmong names (descend schema place v)

section

variable {names : List String} {descend : Descent} {s : Site}

theorem applyType_among (hplace : s.place.Among names) (rule : Json) :
    FoundAmong names (applyType s rule) :=
  .bind fun _ _ => .refuseIf hplace ..

theorem applyProperties_among (hd : KeepsTo names descend) (hplace : s.place.Among names)
    (hadmits : admits names "properties" rule = true) (h : declares names rule = true) :
    FoundAmong names (applyProperties s descend rule) := by
  apply FoundAmong.collect
  rintro ⟨key, r⟩ hr
  dsimp only
  split
  · cases rule with
    | obj o =>
      have hkey : key ∈ names := by
        have hall := List.all_eq_true.1 hadmits key (List.mem_map_of_mem hr)
        exact List.contains_iff_mem.1 hall
      exact hd _ _ _ (declares_of_mem_members h hr) (hplace.snoc hkey)
    | _ => exact absurd hr List.not_mem_nil
  · exact .nothing

theorem applyRequired_among (hplace : s.place.Among names) (rule : Json) :
    FoundAmong names (applyRequired s rule) := by
  unfold applyRequired
  split
  · apply FoundAmong.ok
    intro w hw
    obtain ⟨key, -, rfl⟩ := List.mem_map.1 hw
    exact s.violation_among hplace ..
  · exact .nothing

theorem applyAdditionalProperties_among (hplace : s.place.Among names)
    (hadmits : admits names "additionalProperties" rule = true) :
    FoundAmong names (applyAdditionalProperties s descend rule) := by
  cases rule with
  | obj o => exact nomatch hadmits
  | _ => exact .refuseIf hplace ..

theorem propertyNames_among (hd : KeepsTo names descend) (hplace : s.place.Among names)
    (h : declares names rule = true) :
    FoundAmong names
      (collect (Table.keys (members s.subject)) fun key => descend rule s.place (.str key)) :=
  .collect fun _ _ => hd _ _ _ h hplace

theorem applyDependentRequired_among (hplace : s.place.Among names) (rule : Json) :
    FoundAmong names (applyDependentRequired s rule) := by
  apply FoundAmong.ok
  intro w hw
  obtain ⟨⟨key, needed⟩, -, hw⟩ := List.mem_flatMap.1 hw
  dsimp only at hw
  split at hw
  · obtain ⟨k, -, rfl⟩ := List.mem_map.1 hw
    exact s.violation_among hplace ..
  · exact absurd hw List.not_mem_nil

theorem applyDependentSchemas_among (hd : KeepsTo names descend) (hplace : s.place.Among names)
    (h : declares names rule = true) :
    FoundAmong names (applyDependentSchemas s descend rule) := by
  apply FoundAmong.collect
  rintro ⟨key, r⟩ hr
  dsimp only
  split
  · exact hd _ _ _ (declares_of_mem_members h hr) hplace
  · exact .nothing

theorem child_among (hplace : s.place.Among names) (i : Nat) : (s.child i).Among names :=
  hplace.snoc (Int.natCast_nonneg i)

theorem applyItems_among (hd : KeepsTo names descend) (hplace : s.place.Among names)
    (h : declares names rule = true) : FoundAmong names (applyItems s descend rule) := by
  have hitems (vs : List (Nat × Json)) :
      FoundAmong names (collect vs fun p => descend rule (s.child p.1) p.2) :=
    .collect fun p _ => hd _ _ _ h (child_among hplace p.1)
  cases rule with
  | bool b =>
    cases b with
    | false => exact .refuseIf hplace ..
    | true => exact hitems _
  | _ => exact hitems _

theorem applyPrefixItems_among (hd : KeepsTo names descend) (hplace : s.place.Among names)
    (h : declares names rule = true) : FoundAmong names (applyPrefixItems s descend rule) := by
  apply FoundAmong.collect
  rintro ⟨⟨i, v⟩, r⟩ hr
  exact hd _ _ _ (declares_of_mem_items h (List.of_mem_zip hr).2) (child_among hplace i)

theorem applyLength_among (hplace : s.place.Among names) (keyword : String) (rule : Json) :
    FoundAmong names (applyLength s keyword rule) := by
  unfold applyLength
  dsimp only
  split
  · exact .nothing
  · split
    · exact .refuseIf hplace ..
    · exact .refuseIf hplace ..

theorem applyContains_among (hplace : s.place.Among names) (rule : Json) :
    FoundAmong names (applyContains s descend rule) := by
  have hfew (least found : Nat) : FoundAmong names (applyContains.few s rule least found) := by
    unfold applyContains.few
    split
    · exact .nothing
    · split
      · exact .refuse hplace ..
      · exact .refuse hplace ..
  unfold applyContains
  dsimp only
  split
  · refine .bind fun found _ => ?_
    split
    · split
      · exact .refuse hplace ..
      · exact hfew _ _
    · exact hfew _ _
  · exact .nothing

theorem bound_among (hplace : s.place.Among names) (keyword : String) (rule : Json) :
    FoundAmong names
      (if hasType s.subject "number" then applyBound s keyword rule else .ok []) := by
  split
  · unfold applyBound
    split
    exact .refuseIf hplace ..
  · exact .nothing

theorem allOf_among (hd : KeepsTo names descend) (hplace : s.place.Among names)
    (h : declares names rule = true) :
    FoundAmong names (collect (items rule) fun schema => descend schema s.place s.subject) :=
  .collect fun _ hr => hd _ _ _ (declares_of_mem_items h hr) hplace

theorem applyAnyOf_among (hplace : s.place.Among names) (rule : Json) :
    FoundAmong names (applyAnyOf s descend rule) :=
  .bind fun _ _ => .refuseIf hplace ..

/-- What is found in the alternatives before the first that holds. -/
theorem firstValid_among (hd : KeepsTo names descend) (hplace : s.place.Among names)
    {rules : List Json} (h : ∀ r ∈ rules, declares names r = true)
    (hacc : ∀ vs ∈ acc, ∀ w ∈ vs, Violation.Among names w)
    (hfound : applyOneOf.firstValid s descend rules acc = .ok (.inl alternatives)) :
    ∀ vs ∈ alternatives, ∀ w ∈ vs, w.Among names := by
  induction rules generalizing acc with
  | nil =>
    obtain rfl := Sum.inl.inj (Except.ok.inj hfound)
    exact fun vs hvs => hacc vs (List.mem_reverse.1 hvs)
  | cons r rest ih =>
    rw [applyOneOf.firstValid] at hfound
    cases hr : descend r s.place s.subject with
    | error e =>
      rw [hr] at hfound
      exact nomatch hfound
    | ok found =>
      rw [hr] at hfound
      change (if found.isEmpty then _ else _) = _ at hfound
      split at hfound
      · exact nomatch hfound
      · refine ih (fun r' hr' => h r' (List.mem_cons_of_mem r hr')) ?_ hfound
        intro vs hvs
        rcases List.mem_cons.1 hvs with rfl | hvs
        · exact (hd _ _ _ (h r List.mem_cons_self) hplace).among _ hr
        · exact hacc vs hvs

theorem applyOneOf_among (hd : KeepsTo names descend) (hplace : s.place.Among names)
    (h : declares names rule = true) : FoundAmong names (applyOneOf s descend rule) := by
  refine .bind fun choice hchoice => ?_
  cases choice with
  | inl alternatives =>
    have hnone : ∀ vs ∈ ([] : List (List Violation)), ∀ w ∈ vs, w.Among names :=
      fun _ hvs => absurd hvs List.not_mem_nil
    have halternatives :=
      firstValid_among hd hplace (fun _ hr => declares_of_mem_items h hr) hnone hchoice
    exact .ok fun w hw => List.mem_singleton.1 hw ▸ .mk hplace halternatives
  | inr valid => exact .bind fun _ _ => .refuseIf hplace ..

theorem applyNot_among (hplace : s.place.Among names) (rule : Json) :
    FoundAmong names (applyNot s descend rule) :=
  .bind fun _ _ => .refuseIf hplace ..

theorem applyIf_among (hd : KeepsTo names descend) (hplace : s.place.Among names)
    (hs : declares names (.obj s.schema) = true) (rule : Json) :
    FoundAmong names (applyIf s descend rule) := by
  refine .bind fun found _ => ?_
  split
  · rename_i hbranch
    exact hd _ _ _ (declares_of_get? hs hbranch) hplace
  · exact .nothing

theorem reference_among {resolve : String → Option Json} (hd : KeepsTo names descend)
    (hplace : s.place.Among names)
    (hresolve : ∀ reference part, resolve reference = some part → declares names part = true)
    (rule : Json) :
    FoundAmong names (match rule with
      | .str reference => match resolve reference with
        | some schema => descend schema s.place s.subject
        | none => .error (.unresolvable reference)
      | _ => .ok []) := by
  split
  · split
    · rename_i hpart
      exact hd _ _ _ (hresolve _ _ hpart) hplace
    · exact .error
  · exact .nothing

/-- No keyword brings in a name that its schema does not declare. -/
theorem applyKeyword_among {resolve : String → Option Json} (hd : KeepsTo names descend)
    (hplace : s.place.Among names)
    (hresolve : ∀ reference part, resolve reference = some part → declares names part = true)
    (hs : declares names (.obj s.schema) = true) (keyword : String)
    (hadmits : admits names keyword rule = true) (h : declares names rule = true) :
    FoundAmong names (applyKeyword resolve descend s keyword rule) := by
  unfold applyKeyword
  -- One case for each keyword, and the last for all that are not known.
  split
  · exact reference_among hd hplace hresolve rule
  · exact reference_among hd hplace hresolve rule
  · exact applyType_among hplace rule
  · exact applyProperties_among hd hplace hadmits h
  · exact applyRequired_among hplace rule
  · exact applyAdditionalProperties_among hplace hadmits
  · exact propertyNames_among hd hplace h
  · exact applyDependentRequired_among hplace rule
  · exact applyDependentSchemas_among hd hplace h
  · exact applyItems_among hd hplace h
  · exact applyPrefixItems_among hd hplace h
  · exact applyContains_among hplace rule
  · exact .refuseIf hplace ..
  · exact applyLength_among hplace _ rule
  · exact applyLength_among hplace _ rule
  · exact applyLength_among hplace _ rule
  · exact applyLength_among hplace _ rule
  · exact applyLength_among hplace _ rule
  · exact applyLength_among hplace _ rule
  · exact bound_among hplace _ rule
  · exact bound_among hplace _ rule
  · exact bound_among hplace _ rule
  · exact bound_among hplace _ rule
  · exact .refuseIf hplace ..
  · exact .refuseIf hplace ..
  · exact .refuseIf hplace ..
  · exact allOf_among hd hplace h
  · exact applyAnyOf_among hplace rule
  · exact applyOneOf_among hd hplace h
  · exact applyNot_among hplace rule
  · exact applyIf_among hd hplace hs rule
  · exact .nothing

end

/-- A check adds to the way to a value no names but those that the document declares. -/
theorem check_among (hdocument : declares names document = true) (budget : Nat) :
    KeepsTo names (check document budget) := by
  induction budget with
  | zero => exact fun _ _ _ _ _ => .error
  | succ budget ih =>
    intro schema place v hschema hplace
    cases schema with
    | bool b =>
      cases b with
      | false =>
        exact .ok fun w hw =>
          List.mem_singleton.1 hw ▸ .mk hplace fun _ hvs => absurd hvs List.not_mem_nil
      | true => exact .nothing
    | obj keywords =>
      rw [check]
      apply FoundAmong.collect
      rintro ⟨keyword, rule⟩ hrule
      obtain ⟨hadmits, hdeclares⟩ := declares_of_mem_obj hschema hrule
      exact applyKeyword_among ih hplace (fun _ _ => declares_of_resolve hdocument) hschema keyword
        hadmits hdeclares
    | _ => exact .nothing

theorem violations_among (h : declares names schema = true) (v : Json) :
    FoundAmong names (violations schema v) :=
  check_among h defaultBudget _ _ _ h fun _ ht => absurd ht List.not_mem_nil

end Schema
end Flowplan
