import Flowplan.Proofs.PlanDenotation
import Flowplan.Proofs.SchemaAcceptance
import Flowplan.Proofs.StepRecognition

/-!
What the schema of plan documents asks for, type by type of step and with the budget counted. It
finds nothing in a value that stands for a plan.
-/

namespace Flowplan.Plan
set_option autoImplicit true

open Flowplan.Json Flowplan.Schema

/-- Nothing is found in the members of an object, each checked against the schema under its key. -/
def Suits (n : Nat) (place : Locator) (o : Object) (fields : Object) : Prop :=
  ∀ e ∈ fields, ∀ w, Table.get? o e.1 = some w →
    check schema n e.2 (place ++ [.name e.1]) w = .ok []

namespace Suits

theorem nil : Suits n place o [] := fun _ he => absurd he List.not_mem_nil

theorem cons (h : ∀ w, Table.get? o key = some w →
      check schema n part (place ++ [.name key]) w = .ok [])
    (hrest : Suits n place o rest) : Suits n place o ((key, part) :: rest) :=
  List.forall_mem_cons.2 ⟨h, hrest⟩

theorem consOf (hv : Table.get? o key = some v)
    (h : check schema n part (place ++ [.name key]) v = .ok [])
    (hrest : Suits n place o rest) : Suits n place o ((key, part) :: rest) :=
  cons (fun _ hw => Option.some.inj (hv.symm.trans hw) ▸ h) hrest

theorem head (h : Suits n place o ((key, part) :: rest)) (hv : Table.get? o key = some v) :
    check schema n part (place ++ [.name key]) v = .ok [] :=
  h _ List.mem_cons_self v hv

theorem tail (h : Suits n place o (e :: rest)) : Suits n place o rest :=
  (List.forall_mem_cons.1 h).2

end Suits

/-- An object with all of the needed members, with no others than the fields, and with values in
which nothing is found. -/
structure Closes (n : Nat) (place : Locator) (fields : Object) (needed : List String)
    (o : Object) : Prop where
  all : ∀ key ∈ needed, key ∈ Table.keys o
  only : ∀ key ∈ Table.keys o, key ∈ Table.keys fields
  suits : Suits n place o fields

theorem keywords_eq_nil_iff {fields : Object} {needed : List String} {s : Schema.Site}
    (hk : Table.get? s.schema "properties" = some (.obj fields)) :
    (∀ e ∈ [("type", .str "object"), ("properties", .obj fields),
        ("required", Document.strings needed), ("additionalProperties", .bool false)],
      applyKeyword (resolve schema) (check schema m) s e.1 e.2 = .ok []) ↔
      ∃ o, s.subject = .obj o ∧ Closes m s.place fields needed o := by
  simp only [List.forall_mem_cons, type_eq_nil (t := "object") rfl, properties_eq_nil,
    Document.strings, required_eq_nil, additional_eq_nil hk]
  constructor
  · rintro ⟨hobj, hsuits, hneeded, honly, -⟩
    obtain ⟨o, hs⟩ := (hasType_object s.subject).1 hobj
    rw [hs] at hsuits honly
    exact ⟨o, hs, hneeded o hs, honly, hsuits⟩
  · rintro ⟨o, hs, hall, honly, hsuits⟩
    rw [hs]
    refine ⟨rfl, hsuits, ?_, honly, List.forall_mem_nil _⟩
    rintro _ ⟨⟩
    exact hall

theorem check_closed_iff {fields : Object} {needed : List String} :
    check schema n (Document.closed fields needed) place v = .ok [] ↔
      ∃ m o, n = m + 1 ∧ v = .obj o ∧ Closes m place fields needed o := by
  rw [Document.closed, check_eq_nil]
  apply exists_congr
  intro m
  rw [keywords_eq_nil_iff rfl, exists_and_left]

/-- The fields of a plan with the schemas of their values. -/
def planProperties : Object := [
  ("version", .obj [("type", .str "string"), ("const", .str "1")]),
  ("name", .obj [("type", .str "string"), ("minLength", .int 1), ("maxLength", .int 100)]),
  ("steps", .obj [("type", .str "array"), ("items", Document.reference "step"),
    ("minItems", .int 1), ("maxItems", .int 50)])]

theorem check_plan_iff : check schema n schema place v = .ok [] ↔
    ∃ m o, n = m + 1 ∧ v = .obj o ∧
      Closes m place planProperties ["version", "name", "steps"] o := by
  change check schema n (.obj (("$schema", _) :: ([("type", .str "object"),
    ("properties", .obj planProperties), ("required", Document.strings _),
    ("additionalProperties", .bool false)] ++ [("$defs", _)]))) place v = .ok [] ↔ _
  rw [check_eq_nil]
  apply exists_congr
  intro m
  rw [exists_and_left]
  apply and_congr_right
  rintro -
  -- The dialect before these keywords and the definitions after them ask for nothing.
  rw [List.forall_mem_cons, List.forall_mem_append, keywords_eq_nil_iff rfl,
    List.forall_mem_singleton]
  exact ⟨fun h => h.2.1, fun h => ⟨rfl, h, rfl⟩⟩

theorem ends_closed {fields : Object} {needed : List String}
    (h : ∀ e ∈ fields, ∀ w, Table.get? o e.1 = some w →
      Ends (check schema n e.2 (place ++ [.name e.1]) w)) :
    Ends (check schema (n + 1) (Document.closed fields needed) place (.obj o)) := by
  rw [Document.closed, check]
  apply Ends.collect
  simp only [List.forall_mem_cons]
  refine ⟨ends_type rfl, ends_properties h, ends_required needed, ends_additional, ?_⟩
  exact List.forall_mem_nil _

theorem check_text : check schema (n + 1) (Document.typed "string") place (.str s) = .ok [] := rfl

theorem check_flag_iff : check schema n (Document.typed "boolean") place v = .ok [] ↔
    ∃ m, n = m + 1 ∧ ∃ b, v = .bool b := by
  rw [Document.typed, check_eq_nil]
  simp only [List.forall_mem_singleton, type_eq_nil (t := "boolean") rfl, hasType_boolean]

theorem check_anything : check schema (n + 1) (.obj []) place v = .ok [] := rfl

theorem check_openObject (h : DenotesObject m i) :
    ∀ w, m = some w → check schema (n + 1) Document.openObject place w = .ok [] := by
  rintro w rfl
  cases h <;> rfl

theorem check_constant_iff {t : String} :
    check schema n (.obj [("type", .str "string"), ("const", .str t)]) place v = .ok [] ↔
      ∃ m, n = m + 1 ∧ v = .str t := by
  rw [check_eq_nil]
  apply exists_congr
  intro m
  apply and_congr_right
  rintro -
  have hconst : ∀ {resolve descend} {s : Schema.Site},
      applyKeyword resolve descend s "const" (.str t) = .ok [] ↔ s.subject = .str t := by
    intro resolve descend s
    exact (settles_const t).eq_nil_iff Ends.refuseIf
  simp only [List.forall_mem_cons, type_eq_nil (t := "string") rfl, hconst]
  constructor
  · exact fun h => h.2.1
  · rintro rfl
    exact ⟨rfl, rfl, List.forall_mem_nil _⟩

theorem check_chosen {ts : List String} (h : t ∈ ts) :
    check schema (n + 1) (Document.chosen ts) place (.str t) = .ok [] := by
  rw [Document.chosen, check_eq_nil]
  refine ⟨n, rfl, ?_⟩
  simp only [List.forall_mem_cons, type_eq_nil (t := "string") rfl]
  refine ⟨rfl, ?_, List.forall_mem_nil _⟩
  exact ((settles_enum ts).eq_nil_iff Ends.refuseIf).2 ⟨t, h, rfl⟩

theorem check_reference_iff {target : String}
    (h : resolve schema ("#/$defs/" ++ target) = some part) :
    check schema n (Document.reference target) place v = .ok [] ↔
      ∃ m, n = m + 1 ∧ check schema m part place v = .ok [] := by
  rw [Document.reference, check_eq_nil]
  apply exists_congr
  intro m
  simp [ref_eq h]

theorem name_injective {j k : StepKind} (h : j.name = k.name) : j = k := by
  have hfound := StepKind.ofName?_name j
  rw [h, StepKind.ofName?_name] at hfound
  exact (Option.some.inj hfound).symm

/-- Two types of steps have no member in common but their type. -/
theorem members_disjoint {j k : StepKind} (h : j ≠ k) :
    ∀ key ∈ Table.keys (Document.members j).1,
      key ∉ "type" :: Table.keys (Document.members k).1 := by
  cases j <;> cases k <;> first | exact absurd rfl h | decide

/-- The check of a step against a type that is not its own is not cut off: of its members only the
type is looked at. -/
theorem breaks_variant {j k : StepKind} (h : j ≠ k)
    (type : Table.get? o "type" = some (.str k.name))
    (honly : ∀ key ∈ Table.keys o, key ∈ "type" :: Table.keys (Document.members k).1) :
    Breaks (check schema (n + 2)) ⟨keywords, place, .obj o⟩ (Document.variant j) := by
  apply Breaks.of_ends
  · apply ends_closed
    intro e he w hw
    rcases List.mem_cons.1 he with rfl | he
    · rw [check]
      apply Ends.collect
      simp only [List.forall_mem_cons]
      exact ⟨ends_type rfl, Ends.refuseIf, List.forall_mem_nil _⟩
    · have hkey : e.1 ∈ Table.keys (Document.members j).1 := List.mem_map.2 ⟨e, he, rfl⟩
      exact absurd (honly _ (Table.mem_keys_iff_get?.2 ⟨w, hw⟩)) (members_disjoint h _ hkey)
  · intro hnone
    obtain ⟨_, _, _, hobj, -, -, hsuits⟩ := check_closed_iff.1 hnone
    obtain rfl := Json.obj.inj hobj
    obtain ⟨_, _, hname⟩ := check_constant_iff.1 (hsuits.head type)
    exact h (name_injective (Json.str.inj hname).symm)

/-- The fields of a type of steps with the schemas of their values. -/
def stepProperties (k : StepKind) : Object :=
  ("type", .obj [("type", .str "string"), ("const", .str k.name)]) :: (Document.members k).1

theorem check_step_iff : check schema n (Document.reference "step") place v = .ok [] ↔
    ∃ m k o, n = m + 4 ∧ v = .obj o ∧ Table.get? o "type" = some (.str k.name) ∧
      Closes (m + 1) place (stepProperties k) (neededKeys k) o := by
  rw [check_reference_iff resolve_step]
  constructor
  · rintro ⟨i, rfl, h⟩
    obtain ⟨j, rfl, hkeywords⟩ := check_eq_nil.1 h
    obtain ⟨_, hmem, hvariant⟩ := exists_of_oneOf (hkeywords _ List.mem_cons_self)
    obtain ⟨k, -, rfl⟩ := List.mem_map.1 hmem
    obtain ⟨c, o, rfl, hobj, hclosed⟩ := check_closed_iff.1 hvariant
    obtain rfl : v = .obj o := hobj
    obtain ⟨w, hw⟩ := Table.mem_keys_iff_get?.1 (hclosed.all "type" List.mem_cons_self)
    obtain ⟨m, rfl, rfl⟩ := check_constant_iff.1 (hclosed.suits.head hw)
    exact ⟨m, k, o, rfl, rfl, hw, hclosed⟩
  · rintro ⟨m, k, o, rfl, rfl, htype, hclosed⟩
    refine ⟨m + 3, rfl, check_eq_nil.2 ⟨m + 2, rfl, ?_⟩⟩
    have hall : k ∈ StepKind.all := by cases k <;> decide
    obtain ⟨before, after, hsplit⟩ := List.append_of_mem hall
    have hnodup : (before ++ k :: after).Nodup := hsplit ▸ (by decide)
    have hother : ∀ j ∈ before ++ after, j ≠ k := by
      rintro j hj rfl
      exact (List.nodup_cons.1 (List.perm_middle.nodup_iff.1 hnodup)).1 hj
    rw [List.forall_mem_singleton, hsplit, List.map_append, List.map_cons]
    apply oneOf_eq_nil
    · exact check_closed_iff.2 ⟨m + 1, o, rfl, rfl, hclosed⟩
    · intro _ hmem
      obtain ⟨j, hj, rfl⟩ := List.mem_map.1 hmem
      exact breaks_variant (hother j (List.mem_append_left _ hj)) htype hclosed.only
    · intro _ hmem
      obtain ⟨j, hj, rfl⟩ := List.mem_map.1 hmem
      exact breaks_variant (hother j (List.mem_append_right _ hj)) htype hclosed.only

/-- Nothing is found in the items of an array, each checked against the schema that a reference
names. -/
def Accepts (n : Nat) (target : String) (place : Locator) (vs : List Json) : Prop :=
  ∀ e ∈ indexed 0 vs, check schema n (Document.reference target) (place ++ [.index e.1]) e.2 = .ok []

theorem accepts_of_check {keywords : Object}
    (h : check schema n (.obj keywords) place (.arr vs) = .ok [])
    (hitems : ("items", Document.reference target) ∈ keywords)
    (hfixed : Table.get? keywords "prefixItems" = none) :
    ∃ m, n = m + 1 ∧ Accepts m target place vs := by
  obtain ⟨m, rfl, hkeywords⟩ := check_eq_nil.1 h
  exact ⟨m, rfl, (items_eq_nil hfixed).1 (hkeywords _ hitems)⟩

theorem check_sequence (h : Accepts n target place vs) :
    check schema (n + 1) (.obj [("type", .str "array"), ("items", Document.reference target)]) place
      (.arr vs) = .ok [] := by
  rw [check_eq_nil]
  refine ⟨n, rfl, ?_⟩
  simp only [List.forall_mem_cons, type_eq_nil (t := "array") rfl]
  exact ⟨rfl, (items_eq_nil rfl).2 h, List.forall_mem_nil _⟩

theorem check_sequenceOrNull (h : Accepts n target place vs) :
    check schema (n + 1) (.obj [("type", Document.strings ["array", "null"]),
      ("items", Document.reference target)]) place (.arr vs) = .ok [] := by
  rw [check_eq_nil]
  refine ⟨n, rfl, ?_⟩
  simp only [List.forall_mem_cons]
  exact ⟨rfl, (items_eq_nil rfl).2 h, List.forall_mem_nil _⟩

theorem check_nonempty (h : Accepts n target place vs) (hne : vs ≠ []) :
    check schema (n + 1) (.obj [("type", .str "array"), ("items", Document.reference target),
      ("minItems", .int 1)]) place (.arr vs) = .ok [] := by
  rw [check_eq_nil]
  refine ⟨n, rfl, ?_⟩
  simp only [List.forall_mem_cons, type_eq_nil (t := "array") rfl]
  refine ⟨rfl, (items_eq_nil rfl).2 h, (minItems_eq_nil 1).2 ?_, List.forall_mem_nil _⟩
  rintro _ ⟨⟩
  exact List.length_pos_iff.2 hne

theorem check_planSteps (h : Accepts n "step" place vs) (hne : vs ≠ []) (hmost : vs.length ≤ 50) :
    check schema (n + 1) (.obj [("type", .str "array"), ("items", Document.reference "step"),
      ("minItems", .int 1), ("maxItems", .int 50)]) place (.arr vs) = .ok [] := by
  rw [check_eq_nil]
  refine ⟨n, rfl, ?_⟩
  simp only [List.forall_mem_cons, type_eq_nil (t := "array") rfl]
  refine ⟨rfl, (items_eq_nil rfl).2 h, (minItems_eq_nil 1).2 ?_, (maxItems_eq_nil 50).2 ?_,
    List.forall_mem_nil _⟩
  · rintro _ ⟨⟩
    exact List.length_pos_iff.2 hne
  · rintro _ ⟨⟩
    exact hmost

theorem check_name (hleast : 1 ≤ s.length) (hmost : s.length ≤ 100) :
    check schema (n + 1) (.obj [("type", .str "string"), ("minLength", .int 1),
      ("maxLength", .int 100)]) place (.str s) = .ok [] := by
  rw [check_eq_nil]
  refine ⟨n, rfl, ?_⟩
  simp only [List.forall_mem_cons, type_eq_nil (t := "string") rfl]
  refine ⟨rfl, (minLength_eq_nil 1).2 ?_, (maxLength_eq_nil 100).2 ?_, List.forall_mem_nil _⟩
  · rintro _ (⟨⟨⟩⟩ | h)
    · exact hleast
    · cases h
  · rintro _ (⟨⟨⟩⟩ | h)
    · exact hmost
    · cases h

theorem mem_of_operator {text : String} (h : Operator.ofName? text = some op) :
    text ∈ Operator.known.map (·.1) := Table.mem_keys_iff_get?.2 ⟨op, h⟩

theorem mem_of_method {text : String} (h : Method.ofName? text = some m) :
    text ∈ Method.known.map (·.1) := Table.mem_keys_iff_get?.2 ⟨m, h⟩

theorem check_of_denotesCondition (h : DenotesCondition n v c) :
    check schema n (Document.reference "condition") place v = .ok [] := by
  rw [check_reference_iff resolve_condition]
  obtain ⟨keys, field, op, known, value⟩ := h
  refine ⟨_, rfl, check_closed_iff.2 ⟨_, _, rfl, rfl, keys.all, keys.only, ?_⟩⟩
  apply Suits.consOf field check_text
  apply Suits.consOf op (check_chosen (mem_of_operator known))
  exact Suits.consOf value check_anything .nil

mutual

/-- Nothing is found in a value that stands for a step. -/
theorem check_of_denotes (h : Denotes n v s) :
    check schema n (Document.reference "step") place v = .ok [] := by
  rw [check_step_iff]
  match h with
  | .trigger keys type path signed =>
    refine ⟨_, .trigger, _, rfl, rfl, type, keys.all, keys.only, ?_⟩
    apply Suits.consOf type (check_constant_iff.2 ⟨_, rfl, rfl⟩)
    apply Suits.consOf path check_text
    exact Suits.consOf signed (check_flag_iff.2 ⟨_, rfl, _, rfl⟩) .nil
  | .filter keys type condition denotes =>
    refine ⟨_, .filter, _, rfl, rfl, type, keys.all, keys.only, ?_⟩
    apply Suits.consOf type (check_constant_iff.2 ⟨_, rfl, rfl⟩)
    exact Suits.consOf condition (check_of_denotesCondition denotes) .nil
  | .branch keys type cases nonempty denotes otherwise =>
    refine ⟨_, .branch, _, rfl, rfl, type, keys.all, keys.only, ?_⟩
    apply Suits.consOf type (check_constant_iff.2 ⟨_, rfl, rfl⟩)
    apply Suits.consOf cases (check_nonempty (checkCases_of_denotes denotes) nonempty)
    exact Suits.cons (checkElse_of_denotes otherwise) .nil
  | .slack keys type channel text =>
    refine ⟨_, .slack, _, rfl, rfl, type, keys.all, keys.only, ?_⟩
    apply Suits.consOf type (check_constant_iff.2 ⟨_, rfl, rfl⟩)
    apply Suits.consOf channel check_text
    exact Suits.consOf text check_text .nil
  | .request keys type method known url headers body =>
    refine ⟨_, .request, _, rfl, rfl, type, keys.all, keys.only, ?_⟩
    apply Suits.consOf type (check_constant_iff.2 ⟨_, rfl, rfl⟩)
    apply Suits.consOf method (check_chosen (mem_of_method known))
    apply Suits.consOf url check_text
    apply Suits.cons (check_openObject headers)
    exact Suits.cons (check_openObject body) .nil
  | .action keys type slug input =>
    refine ⟨_, .action, _, rfl, rfl, type, keys.all, keys.only, ?_⟩
    apply Suits.consOf type (check_constant_iff.2 ⟨_, rfl, rfl⟩)
    apply Suits.consOf slug check_text
    exact Suits.cons (check_openObject input) .nil

theorem checkSteps_of_denotes (h : DenotesSteps n vs ss) : ∀ e ∈ indexed i vs,
    check schema n (Document.reference "step") (place ++ [.index e.1]) e.2 = .ok [] := by
  match h with
  | .nil => exact List.forall_mem_nil _
  | .cons first rest =>
    exact List.forall_mem_cons.2 ⟨check_of_denotes first, checkSteps_of_denotes rest⟩

theorem checkCase_of_denotes (h : DenotesCase n v c) :
    check schema n (Document.reference "branchCase") place v = .ok [] := by
  rw [check_reference_iff resolve_branchCase]
  match h with
  | .mk keys condition denotes steps denotesSteps =>
    refine ⟨_, rfl, check_closed_iff.2 ⟨_, _, rfl, rfl, keys.all, keys.only, ?_⟩⟩
    apply Suits.consOf condition (check_of_denotesCondition denotes)
    exact Suits.consOf steps (check_sequence (checkSteps_of_denotes denotesSteps)) .nil

theorem checkCases_of_denotes (h : DenotesCases n vs cs) : ∀ e ∈ indexed i vs,
    check schema n (Document.reference "branchCase") (place ++ [.index e.1]) e.2 = .ok [] := by
  match h with
  | .nil => exact List.forall_mem_nil _
  | .cons first rest =>
    exact List.forall_mem_cons.2 ⟨checkCase_of_denotes first, checkCases_of_denotes rest⟩

theorem checkElse_of_denotes (h : DenotesElse n m e) : ∀ w, m = some w →
    check schema (n + 1) (.obj [("type", Document.strings ["array", "null"]),
      ("items", Document.reference "step")]) place w = .ok [] := by
  intro w hw
  match h with
  | .absent => exact nomatch hw
  | .null =>
    obtain rfl := Option.some.inj hw
    rfl
  | .given steps =>
    obtain rfl := Option.some.inj hw
    exact check_sequenceOrNull (checkSteps_of_denotes steps)

end

/-- Nothing is found in a value that stands for a plan. -/
theorem check_of_denotesPlan (h : DenotesPlan n v p) : check schema n schema place v = .ok [] := by
  obtain ⟨keys, version, name, named, short, steps, nonempty, few, denotes⟩ := h
  refine check_plan_iff.2 ⟨_, _, rfl, rfl, keys.all, keys.only, ?_⟩
  apply Suits.consOf version (check_constant_iff.2 ⟨_, rfl, rfl⟩)
  apply Suits.consOf name (check_name named short)
  exact Suits.consOf steps (check_planSteps (checkSteps_of_denotes denotes) nonempty few) .nil

end Flowplan.Plan
