import Flowplan.Plan.Document
import Flowplan.Proofs.SchemaKeywords

/-!
When a check comes to its end and finds nothing, keyword by keyword. Unlike what a check settles,
this counts the budget, so that it can be carried over from one value to another.
-/

namespace Flowplan.Schema
set_option autoImplicit true

open Flowplan.Json

variable {α : Type} {resolve : String → Option Json} {descend : Descent} {s : Site}

/-- A check that comes to its end. -/
def Ends (o : Outcome) : Prop := ∃ found, o = .ok found

theorem Settles.eq_nil_iff (h : Settles o P) (hend : Ends o) : o = .ok [] ↔ P := by
  obtain ⟨found, rfl⟩ := hend
  rcases h with h | ⟨_, h, hfound⟩
  · simp at h
  · obtain rfl := Except.ok.inj h
    rw [Except.ok.injEq, hfound]

theorem Ends.refuseIf : Ends (s.refuseIf keyword rule bad message) := by
  cases bad <;> exact ⟨_, rfl⟩

theorem Ends.collect {parts : List α} {f : α → Outcome} (h : ∀ a ∈ parts, Ends (f a)) :
    Ends (collect parts f) := by
  induction parts with
  | nil => exact ⟨[], rfl⟩
  | cons a rest ih =>
    obtain ⟨⟨first, hfirst⟩, hrest⟩ := List.forall_mem_cons.1 h
    obtain ⟨others, hothers⟩ := ih hrest
    rw [Schema.collect, hfirst, hothers]
    exact ⟨_, rfl⟩

theorem collect_eq_nil {parts : List α} {f : α → Outcome} :
    collect parts f = .ok [] ↔ ∀ a ∈ parts, f a = .ok [] := by
  induction parts with
  | nil => simp [collect]
  | cons a rest ih =>
    rw [List.forall_mem_cons, ← ih, collect]
    cases hf : f a with
    | error e => simp [bind, Except.bind]
    | ok first =>
      cases hr : collect rest f with
      | error e => simp [bind, Except.bind]
      | ok others => simp [bind, Except.bind, pure, Except.pure]

/-- A check asks all keywords, with one less of the budget for what they descend into. -/
theorem check_eq_nil {keywords : Object} :
    check document n (.obj keywords) place v = .ok [] ↔
      ∃ m, n = m + 1 ∧ ∀ e ∈ keywords, applyKeyword (Schema.resolve document) (check document m)
        ⟨keywords, place, v⟩ e.1 e.2 = .ok [] := by
  cases n with
  | zero => simp [check]
  | succ m =>
    rw [check, collect_eq_nil]
    simp

theorem ends_type (h : typeNames.contains t = true) :
    Ends (applyKeyword resolve descend s "type" (.str t)) := by
  have hall : ∀ u ∈ [t], typeNames.contains u = true := fun u hu => List.mem_singleton.1 hu ▸ h
  change Ends (applyType s (.str t))
  simp only [applyType, anyOf_eq_ok hall]
  exact Ends.refuseIf

theorem type_eq_nil (h : typeNames.contains t = true) :
    applyKeyword resolve descend s "type" (.str t) = .ok [] ↔ hasType s.subject t = true :=
  (settles_type_one h).eq_nil_iff (ends_type h)

theorem properties_eq_nil {properties : Object} :
    applyKeyword resolve descend s "properties" (.obj properties) = .ok [] ↔
      ∀ e ∈ properties, ∀ w, Table.get? (members s.subject) e.1 = some w →
        descend e.2 (s.under e.1) w = .ok [] := by
  change collect properties _ = .ok [] ↔ _
  rw [collect_eq_nil]
  apply forall₂_congr
  rintro ⟨key, part⟩ -
  cases hw : Table.get? (members s.subject) key with
  | none => simp [hw]
  | some w => simp [hw]

theorem ends_properties {properties : Object}
    (h : ∀ e ∈ properties, ∀ w, Table.get? (members s.subject) e.1 = some w →
      Ends (descend e.2 (s.under e.1) w)) :
    Ends (applyKeyword resolve descend s "properties" (.obj properties)) := by
  change Ends (collect properties _)
  apply Ends.collect
  rintro ⟨key, part⟩ he
  dsimp only
  split
  · rename_i w hw
    exact h _ he w hw
  · exact ⟨[], rfl⟩

theorem ends_required (names : List String) :
    Ends (applyKeyword resolve descend s "required" (.arr (names.map .str))) := by
  change Ends (applyRequired s (.arr (names.map .str)))
  unfold applyRequired
  split <;> exact ⟨_, rfl⟩

theorem required_eq_nil (names : List String) :
    applyKeyword resolve descend s "required" (.arr (names.map .str)) = .ok [] ↔
      ∀ ms, s.subject = .obj ms → ∀ name ∈ names, name ∈ Table.keys ms :=
  (settles_required names).eq_nil_iff (ends_required names)

theorem ends_additional :
    Ends (applyKeyword resolve descend s "additionalProperties" (.bool false)) := Ends.refuseIf

theorem additional_eq_nil {properties : Object}
    (hk : Table.get? s.schema "properties" = some (.obj properties)) :
    applyKeyword resolve descend s "additionalProperties" (.bool false) = .ok [] ↔
      ∀ key ∈ Table.keys (members s.subject), key ∈ Table.keys properties :=
  (settles_additional hk).eq_nil_iff ends_additional

theorem ends_length : Ends (applyLength s keyword rule) := by
  unfold applyLength
  dsimp only
  split
  · exact ⟨_, rfl⟩
  · split <;> exact Ends.refuseIf

theorem minItems_eq_nil (least : Nat) :
    applyKeyword resolve descend s "minItems" (.int least) = .ok [] ↔
      ∀ vs, s.subject = .arr vs → least ≤ vs.length :=
  (settles_minItems least).eq_nil_iff ends_length

theorem maxItems_eq_nil (most : Nat) :
    applyKeyword resolve descend s "maxItems" (.int most) = .ok [] ↔
      ∀ vs, s.subject = .arr vs → vs.length ≤ most :=
  (settles_maxItems most).eq_nil_iff ends_length

theorem minLength_eq_nil (least : Nat) :
    applyKeyword resolve descend s "minLength" (.int least) = .ok [] ↔
      ∀ t, s.subject = .str t ∨ s.subject = .unpaired t → least ≤ t.length :=
  (settles_minLength least).eq_nil_iff ends_length

theorem maxLength_eq_nil (most : Nat) :
    applyKeyword resolve descend s "maxLength" (.int most) = .ok [] ↔
      ∀ t, s.subject = .str t ∨ s.subject = .unpaired t → t.length ≤ most :=
  (settles_maxLength most).eq_nil_iff ends_length

theorem items_eq_nil {ms : Object} (hfixed : Table.get? s.schema "prefixItems" = none) :
    applyKeyword resolve descend s "items" (.obj ms) = .ok [] ↔
      ∀ e ∈ indexed 0 (items s.subject), descend (.obj ms) (s.child e.1) e.2 = .ok [] := by
  change applyItems s descend (.obj ms) = .ok [] ↔ _
  simp only [applyItems, hfixed, Option.getD_none, items, List.length_nil, List.drop_zero]
  rw [collect_eq_nil]

theorem ref_eq (hr : resolve reference = some schema) :
    applyKeyword resolve descend s "$ref" (.str reference) =
      descend schema s.place s.subject := by
  unfold applyKeyword
  simp only [hr]

theorem firstValid_found {schemas : List Json} {acc : List (List Violation)}
    (h : applyOneOf.firstValid s descend schemas acc = .ok (.inr (schema, rest))) :
    schema ∈ schemas ∧ descend schema s.place s.subject = .ok [] := by
  induction schemas generalizing acc with
  | nil => simp [applyOneOf.firstValid] at h
  | cons first others ih =>
    rw [applyOneOf.firstValid] at h
    cases hd : descend first s.place s.subject with
    | error e => simp [hd, bind, Except.bind] at h
    | ok found =>
      cases found with
      | nil =>
        simp only [hd, bind, Except.bind, List.isEmpty_nil, if_true, Except.ok.injEq, Sum.inr.injEq,
          Prod.mk.injEq] at h
        obtain ⟨rfl, -⟩ := h
        exact ⟨List.mem_cons_self, hd⟩
      | cons w ws =>
        simp only [hd, bind, Except.bind, List.isEmpty_cons, Bool.false_eq_true, if_false] at h
        obtain ⟨hmem, hkept⟩ := ih h
        exact ⟨List.mem_cons_of_mem _ hmem, hkept⟩

/-- A choice in which nothing is found has an alternative in which nothing is found. -/
theorem exists_of_oneOf {schemas : List Json}
    (h : applyKeyword resolve descend s "oneOf" (.arr schemas) = .ok []) :
    ∃ schema ∈ schemas, descend schema s.place s.subject = .ok [] := by
  change applyOneOf s descend (.arr schemas) = .ok [] at h
  rw [applyOneOf, items] at h
  cases hfirst : applyOneOf.firstValid s descend schemas [] with
  | error e => simp [hfirst, bind, Except.bind] at h
  | ok chosen =>
    cases chosen with
    | inl alternatives => simp [hfirst, bind, Except.bind, pure, Except.pure] at h
    | inr kept =>
      obtain ⟨schema, rest⟩ := kept
      exact ⟨schema, firstValid_found hfirst⟩

/-- Something is found in a value, and no budget runs out over it. -/
def Breaks (descend : Descent) (s : Site) (schema : Json) : Prop :=
  ∃ found, descend schema s.place s.subject = .ok found ∧ found ≠ []

theorem Breaks.of_ends (hend : Ends (descend schema s.place s.subject))
    (h : descend schema s.place s.subject ≠ .ok []) : Breaks descend s schema := by
  obtain ⟨found, hfound⟩ := hend
  refine ⟨found, hfound, ?_⟩
  rintro rfl
  exact h hfound

theorem firstValid_of_breaks {schema : Json} {before after : List Json}
    {acc : List (List Violation)} (h : descend schema s.place s.subject = .ok [])
    (hbefore : ∀ other ∈ before, Breaks descend s other) :
    applyOneOf.firstValid s descend (before ++ schema :: after) acc =
      .ok (.inr (schema, after)) := by
  induction before generalizing acc with
  | nil =>
    rw [List.nil_append, applyOneOf.firstValid, h]
    rfl
  | cons other rest ih =>
    obtain ⟨⟨found, hfound, hne⟩, hrest⟩ := List.forall_mem_cons.1 hbefore
    rw [List.cons_append, applyOneOf.firstValid, hfound]
    simp only [bind, Except.bind, if_neg (mt List.isEmpty_iff.1 hne)]
    exact ih hrest

theorem othersValid_of_breaks {schemas : List Json}
    (h : ∀ other ∈ schemas, Breaks descend s other) :
    applyOneOf.othersValid s descend schemas = .ok [] := by
  induction schemas with
  | nil => rfl
  | cons other rest ih =>
    obtain ⟨⟨found, hfound, hne⟩, hrest⟩ := List.forall_mem_cons.1 h
    rw [applyOneOf.othersValid, hfound, ih hrest]
    simp [bind, Except.bind, pure, Except.pure, hne]

/-- A choice finds nothing where one alternative is kept and all the others are broken. -/
theorem oneOf_eq_nil {schema : Json} {before after : List Json}
    (h : descend schema s.place s.subject = .ok [])
    (hbefore : ∀ other ∈ before, Breaks descend s other)
    (hafter : ∀ other ∈ after, Breaks descend s other) :
    applyKeyword resolve descend s "oneOf" (.arr (before ++ schema :: after)) = .ok [] := by
  change applyOneOf s descend (.arr (before ++ schema :: after)) = .ok []
  rw [applyOneOf, items, firstValid_of_breaks h hbefore]
  simp only [bind, Except.bind, othersValid_of_breaks hafter]
  rfl

end Flowplan.Schema
