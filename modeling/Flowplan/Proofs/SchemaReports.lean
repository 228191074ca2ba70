import Flowplan.Proofs.PlanAcceptance
import Flowplan.Proofs.PlanFlaws
import Flowplan.Proofs.SchemaAcceptance

/-!
What the keywords of a schema report, as flaws. A report is what is left of the violations after a
choice is replaced by the variant it is about, and it is all in the order of the keywords.
-/

namespace Flowplan.Plan
set_option autoImplicit true

open Flowplan.Json Flowplan.Schema

variable {α : Type} {resolve : String → Option Json} {descend : Descent} {s : Schema.Site}

namespace Flaw

/-- The violations that are found come to the flaws. -/
def Shown (found : List Violation) (flaws : List Flaw) : Prop :=
  (expandList StepKind.names found).map Defect.ofViolation = flaws.map toDefect

/-- A check that is not cut off by the budget finds what comes to the flaws. -/
def Reports (o : Outcome) (flaws : List Flaw) : Prop :=
  o = .error .tooDeep ∨ ∃ found, o = .ok found ∧ Shown found flaws

theorem expandList_append (names : List String) (front back : List Violation) :
    expandList names (front ++ back) = expandList names front ++ expandList names back := by
  induction front with
  | nil => rw [expandList, List.nil_append, List.nil_append]
  | cons v rest ih => rw [List.cons_append, expandList, expandList, ih, List.append_assoc]

theorem Kind.keyword_ne (kind : Kind) (h : kind ≠ .variant) : kind.keyword ≠ "oneOf" := by
  cases kind with
  | variant => exact absurd rfl h
  | _ => exact of_decide_eq_true rfl

/-- A violation is a flaw of the kind that its sentence tells. -/
theorem ofViolation_eq {kind : Kind} {rule : Json} {message : String}
    (hs : (s.violation kind.keyword rule message).sentence? StepKind.names =
      some (kind.sentence s.place.text)) :
    Defect.ofViolation (s.violation kind.keyword rule message) = toDefect ⟨s.place, kind⟩ := by
  rw [Defect.ofViolation, hs]
  rfl

namespace Shown

theorem nil : Shown [] [] := by rw [Shown, expandList, List.map_nil, List.map_nil]

theorem append (h : Shown found flaws) (h' : Shown found' flaws') :
    Shown (found ++ found') (flaws ++ flaws') := by
  rw [Shown, expandList_append, List.map_append, List.map_append, h, h']

/-- A violation that is no choice comes to the flaw that its sentence tells. -/
theorem refused (kind : Kind) {rule : Json} {message : String} (hk : kind ≠ .variant)
    (hs : (s.violation kind.keyword rule message).sentence? StepKind.names =
      some (kind.sentence s.place.text)) :
    Shown [s.violation kind.keyword rule message] [⟨s.place, kind⟩] := by
  have hkeyword : ¬ some kind.keyword = some "oneOf" := by
    intro he
    exact kind.keyword_ne hk (Option.some.inj he)
  rw [Shown, expandList, expandList, List.append_nil, Schema.Site.violation, Violation.expand,
    if_neg hkeyword]
  rw [List.map_singleton, List.map_singleton, ← ofViolation_eq hs, Schema.Site.violation]

theorem map {parts : List α} {f : α → Violation} {g : α → Flaw}
    (h : ∀ a ∈ parts, Shown [f a] [g a]) : Shown (parts.map f) (parts.map g) := by
  induction parts with
  | nil => exact nil
  | cons a rest ih =>
    exact (h a List.mem_cons_self).append (ih fun b hb => h b (List.mem_cons_of_mem _ hb))

theorem eq_nil_iff (h : Shown found flaws) : found = [] ↔ flaws = [] := by
  have hexpand : expandList StepKind.names found = [] ↔ found = [] := expandList_eq_nil_iff
  rw [← hexpand, ← List.map_eq_nil_iff, h, List.map_eq_nil_iff]

end Shown

namespace Reports

theorem tooDeep : Reports (.error .tooDeep) flaws := .inl rfl

theorem ok (h : Shown found flaws) : Reports (.ok found) flaws := .inr ⟨found, rfl, h⟩

theorem nothing : Reports (.ok []) [] := ok .nil

/-- Nothing is found exactly where there are no flaws. -/
theorem settles (h : Reports o flaws) : Settles o (flaws = []) := by
  rcases h with h | ⟨found, h, hshown⟩
  · exact .inl h
  · exact .inr ⟨found, h, hshown.eq_nil_iff⟩

theorem cons {f : α → Outcome} (ha : Reports (f a) flaws)
    (hrest : Reports (collect rest f) others) :
    Reports (collect (a :: rest) f) (flaws ++ others) := by
  rw [Schema.collect]
  rcases ha with ha | ⟨found, ha, hfound⟩
  · rw [ha]
    exact tooDeep
  · rcases hrest with hr | ⟨found', hr, hfound'⟩
    · rw [ha, hr]
      exact tooDeep
    · rw [ha, hr]
      exact ok (hfound.append hfound')

/-- The parts of a check report their flaws one after the other. -/
theorem collect {parts : List α} {f : α → Outcome} {g : α → List Flaw}
    (h : ∀ a ∈ parts, Reports (f a) (g a)) :
    Reports (Schema.collect parts f) (parts.flatMap g) := by
  induction parts with
  | nil => exact nothing
  | cons a rest ih =>
    rw [List.flatMap_cons]
    exact (h a List.mem_cons_self).cons (ih fun b hb => h b (List.mem_cons_of_mem _ hb))

theorem refuseIf (kind : Kind) {rule : Json} {message : String} (hk : kind ≠ .variant)
    (hs : (s.violation kind.keyword rule message).sentence? StepKind.names =
      some (kind.sentence s.place.text)) (bad : Bool) :
    Reports (s.refuseIf kind.keyword rule bad message) (flawIf bad s.place kind) := by
  cases bad with
  | false => exact nothing
  | true => exact ok (.refused kind hk hs)

end Reports

/-- What several keywords of a schema report one after the other. -/
def Told (resolve : String → Option Json) (descend : Descent) (s : Schema.Site)
    (keywords : Object) (flaws : List Flaw) : Prop :=
  Reports (collect keywords fun (keyword, rule) => applyKeyword resolve descend s keyword rule)
    flaws

namespace Told

theorem nil : Told resolve descend s [] [] := .nothing

theorem cons (h : Reports (applyKeyword resolve descend s keyword rule) flaws)
    (hrest : Told resolve descend s rest others) :
    Told resolve descend s ((keyword, rule) :: rest) (flaws ++ others) := Reports.cons h hrest

theorem last (h : Reports (applyKeyword resolve descend s keyword rule) flaws) :
    Told resolve descend s [(keyword, rule)] flaws := by
  rw [← List.append_nil flaws]
  exact cons h nil

end Told

theorem mapM_string? (names : List String) :
    (names.map Json.str).mapM string? = some names := by
  induction names with
  | nil => rfl
  | cons name rest ih => simp [string?, ih]

theorem map_plain (names : List String) : (names.map Json.str).map Json.plain = names := by
  rw [List.map_map]
  exact List.map_id names

theorem sentence_types (names : List String) :
    Violation.sentence? options (s.violation "type" (.arr (names.map .str)) message) =
      some ((Kind.type names).sentence s.place.text) := by
  have hsentence : Violation.sentence? options
      (s.violation "type" (.arr (names.map .str)) message) =
      (expectedTypes? (.arr (names.map .str))).map fun expected =>
        "Value at " ++ s.place.text ++ " must be of type " ++ expected := rfl
  rw [hsentence, expectedTypes?, mapM_string?]
  rfl

theorem reports_type {names : List String} (h : ∀ t ∈ names, typeNames.contains t = true) :
    Reports (applyKeyword resolve descend s "type" (.arr (names.map .str)))
      (typed names s.place s.subject) := by
  change Reports (applyType s (.arr (names.map .str))) _
  simp only [applyType, strings_map, anyOf_eq_ok h]
  exact .refuseIf (.type names) (by simp) (sentence_types names) _

theorem reports_type_one (h : typeNames.contains t = true) :
    Reports (applyKeyword resolve descend s "type" (.str t))
      (typed [t] s.place s.subject) := by
  have hall : ∀ u ∈ [t], typeNames.contains u = true := fun u hu => List.mem_singleton.1 hu ▸ h
  change Reports (applyType s (.str t)) _
  simp only [applyType, anyOf_eq_ok hall]
  exact .refuseIf (.type [t]) (by simp) rfl _

theorem reports_const (text : String) :
    Reports (applyKeyword resolve descend s "const" (.str text))
      (flawIf (string? s.subject != some text) s.place (.constant text)) := by
  have hbad : (!sameValue (.str text) s.subject) = (string? s.subject != some text) := by
    cases s.subject <;> simp [sameValue, string?, bne, Bool.beq_comm]
  change Reports (s.refuseIf "const" (.str text) (!sameValue (.str text) s.subject) _) _
  rw [hbad]
  exact .refuseIf (.constant text) (by simp) rfl _

theorem sentence_choice (names : List String) :
    Violation.sentence? options (s.violation "enum" (.arr (names.map .str)) message) =
      some ((Kind.choice names).sentence s.place.text) := by
  have hsentence : Violation.sentence? options
      (s.violation "enum" (.arr (names.map .str)) message) =
      some ("Invalid value at " ++ s.place.text ++ ". Must be one of: " ++
        String.intercalate ", " ((names.map Json.str).map Json.plain)) := rfl
  rw [hsentence, map_plain]
  rfl

theorem reports_enum (names : List String) :
    Reports (applyKeyword resolve descend s "enum" (.arr (names.map .str)))
      (flawIf (!names.any (string? s.subject == some ·)) s.place (.choice names)) := by
  have hbad : (items (.arr (names.map .str))).any (sameValue · s.subject) =
      names.any (string? s.subject == some ·) := by
    rw [items, List.any_map]
    congr 1
    funext name
    cases s.subject <;> simp [sameValue, string?, Bool.beq_comm]
  change Reports (s.refuseIf "enum" (.arr (names.map .str))
    (!(items (.arr (names.map .str))).any (sameValue · s.subject)) _) _
  rw [hbad]
  exact .refuseIf (.choice names) (by simp) (sentence_choice names) _

/-- A member that an object may have: its key, the schema of its value, and what can be wrong with
that value. -/
structure Entry where
  key : String
  part : Json
  flaws : Check

def inEntries (entries : List Entry) (place : Locator) (o : Object) : List Flaw :=
  entries.flatMap fun e => inMember e.key e.flaws place o

theorem reports_properties {entries : List Entry}
    (h : ∀ e ∈ entries, ∀ w, Reports (descend e.part (s.under e.key) w)
      (e.flaws (s.under e.key) w)) :
    Reports (applyKeyword resolve descend s "properties"
        (.obj (entries.map fun e => (e.key, e.part))))
      (inEntries entries s.place (members s.subject)) := by
  change Reports (collect (entries.map fun e => (e.key, e.part)) _) _
  rw [collect_map]
  apply Reports.collect
  intro e he
  have hentry := h e he
  cases hw : Table.get? (members s.subject) e.key with
  | none =>
    simp only [Function.comp_apply, inMember, hw]
    exact Reports.nothing
  | some w =>
    simp only [Function.comp_apply, inMember, hw]
    exact hentry w

/-- The names of the needed members are read back from the messages. -/
def Named (needed : List String) : Prop :=
  ∀ key ∈ needed, missingName (Text.quoted key ++ " is a required property") = key

theorem reports_required {needed : List String} (hnamed : Named needed) :
    Reports (applyKeyword resolve descend s "required" (Document.strings needed))
      (match s.subject with
        | .obj o => missing needed s.place o
        | _ => []) := by
  change Reports (applyRequired s (.arr (needed.map .str))) _
  cases hs : s.subject with
  | obj o =>
    simp only [applyRequired, hs, strings_map]
    apply Reports.ok
    apply Shown.map
    intro key hkey
    have hname := hnamed key (List.mem_filter.1 hkey).1
    apply Shown.refused (.missing key) (by simp)
    change some ("Missing required property \"" ++
      missingName (Text.quoted key ++ " is a required property") ++ "\" at " ++ s.place.text) = _
    rw [hname]
    rfl
  | _ =>
    simp only [applyRequired, hs]
    exact Reports.nothing

theorem reports_additional {properties : Object}
    (hk : Table.get? s.schema "properties" = some (.obj properties)) :
    Reports (applyKeyword resolve descend s "additionalProperties" (.bool false))
      (unexpected (Table.keys properties) s.place (members s.subject)) := by
  have hextras : extraKeys s = (Table.keys (members s.subject)).filter fun key =>
      !(Table.keys properties).contains key := by
    rw [extraKeys, hk]
    rfl
  rw [unexpected, ← hextras]
  exact .refuseIf (.unexpected (extraKeys s)) (by simp) rfl _

theorem reports_additional_open :
    Reports (applyKeyword resolve descend s "additionalProperties" (.bool true)) [] := .nothing

theorem reports_dialect : Reports (applyKeyword resolve descend s "$schema" rule) [] := .nothing

theorem reports_definitions : Reports (applyKeyword resolve descend s "$defs" rule) [] := .nothing

theorem reports_items {ms : Object} {check : Check}
    (hfixed : Table.get? s.schema "prefixItems" = none)
    (h : ∀ place v, Reports (descend (.obj ms) place v) (check place v)) :
    Reports (applyKeyword resolve descend s "items" (.obj ms))
      ((indexed 0 (items s.subject)).flatMap fun e => check (s.place ++ [.index e.1]) e.2) := by
  change Reports (applyItems s descend (.obj ms)) _
  simp only [applyItems, hfixed, Option.getD_none, items, List.length_nil, List.drop_zero]
  apply Reports.collect
  intro e _
  exact h (s.child e.1) e.2

theorem plain_natCast (n : Nat) : (Json.int n).plain = toString n := rfl

/-- A bound stands in the sentence as the number that it is. -/
theorem sentence_bound (kind : Kind) (n : Nat) {before after : String}
    (hv : (s.violation kind.keyword (.int n) message).sentence? options =
      some (before ++ (Json.int n).plain ++ after))
    (hk : kind.sentence s.place.text = before ++ toString n ++ after) :
    (s.violation kind.keyword (.int n) message).sentence? options =
      some (kind.sentence s.place.text) := by
  rw [hv, hk, plain_natCast]

theorem sentence_minItems (least : Nat) :
    (s.violation "minItems" (.int least) message).sentence? options =
      some ((Kind.fewItems least).sentence s.place.text) :=
  sentence_bound (.fewItems least) least rfl rfl

theorem sentence_maxItems (most : Nat) :
    (s.violation "maxItems" (.int most) message).sentence? options =
      some ((Kind.manyItems most).sentence s.place.text) :=
  sentence_bound (.manyItems most) most rfl rfl

theorem sentence_minLength (least : Nat) :
    (s.violation "minLength" (.int least) message).sentence? options =
      some ((Kind.shortText least).sentence s.place.text) :=
  sentence_bound (.shortText least) least rfl rfl

theorem sentence_maxLength (most : Nat) :
    (s.violation "maxLength" (.int most) message).sentence? options =
      some ((Kind.longText most).sentence s.place.text) :=
  sentence_bound (.longText most) most rfl rfl

theorem reports_minItems (least : Nat) :
    Reports (applyKeyword resolve descend s "minItems" (.int least))
      (flawIf ((itemCount? s.subject).any (· < least)) s.place (.fewItems least)) := by
  change Reports (applyLength s "minItems" (.int least)) _
  cases hs : s.subject with
  | arr vs =>
    simp only [applyLength, hs, count, Int.toNat_natCast]
    exact .refuseIf (.fewItems least) (by simp) (sentence_minItems least) _
  | _ =>
    simp only [applyLength, hs]
    exact Reports.nothing

theorem reports_maxItems (most : Nat) :
    Reports (applyKeyword resolve descend s "maxItems" (.int most))
      (flawIf ((itemCount? s.subject).any (most < ·)) s.place (.manyItems most)) := by
  change Reports (applyLength s "maxItems" (.int most)) _
  cases hs : s.subject with
  | arr vs =>
    simp only [applyLength, hs, count, Int.toNat_natCast]
    exact .refuseIf (.manyItems most) (by simp) (sentence_maxItems most) _
  | _ =>
    simp only [applyLength, hs]
    exact Reports.nothing

theorem reports_minLength (least : Nat) :
    Reports (applyKeyword resolve descend s "minLength" (.int least))
      (flawIf ((textLength? s.subject).any (· < least)) s.place (.shortText least)) := by
  change Reports (applyLength s "minLength" (.int least)) _
  cases hs : s.subject with
  | str t =>
    simp only [applyLength, hs, count, Int.toNat_natCast]
    exact .refuseIf (.shortText least) (by simp) (sentence_minLength least) _
  | unpaired t =>
    simp only [applyLength, hs, count, Int.toNat_natCast]
    exact .refuseIf (.shortText least) (by simp) (sentence_minLength least) _
  | _ =>
    simp only [applyLength, hs]
    exact Reports.nothing

theorem reports_maxLength (most : Nat) :
    Reports (applyKeyword resolve descend s "maxLength" (.int most))
      (flawIf ((textLength? s.subject).any (most < ·)) s.place (.longText most)) := by
  change Reports (applyLength s "maxLength" (.int most)) _
  cases hs : s.subject with
  | str t =>
    simp only [applyLength, hs, count, Int.toNat_natCast]
    exact .refuseIf (.longText most) (by simp) (sentence_maxLength most) _
  | unpaired t =>
    simp only [applyLength, hs, count, Int.toNat_natCast]
    exact .refuseIf (.longText most) (by simp) (sentence_maxLength most) _
  | _ =>
    simp only [applyLength, hs]
    exact Reports.nothing

theorem reports_ref (hr : resolve reference = some part)
    (h : Reports (descend part s.place s.subject) flaws) :
    Reports (applyKeyword resolve descend s "$ref" (.str reference)) flaws := by
  rw [ref_eq hr]
  exact h

end Flaw
end Flowplan.Plan
