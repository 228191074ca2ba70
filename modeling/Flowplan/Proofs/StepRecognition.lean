import Flowplan.Proofs.PlanRecognition

namespace Flowplan.Plan
set_option autoImplicit true

open Flowplan.Json Flowplan.Schema

theorem resolve_condition :
    resolve schema ("#/$defs/" ++ "condition") = some Document.condition := rfl

theorem resolve_branchCase :
    resolve schema ("#/$defs/" ++ "branchCase") = some Document.branchCase := rfl

theorem resolve_step : resolve schema ("#/$defs/" ++ "step") =
    some (.obj [("oneOf", .arr (StepKind.all.map Document.variant))]) := rfl

/-- The type of a step tells its fields. -/
theorem kind_unique (hk : HasFields (stepFields k) (neededKeys k) v)
    (hj : HasFields (stepFields j) (neededKeys j) v) : k = j := by
  obtain ⟨o, rfl⟩ := hk.exists_obj
  obtain ⟨_, htype, rfl⟩ := hk.exists_get? (constantField "type" k.name)
    List.mem_cons_self List.mem_cons_self
  obtain ⟨_, htype', rfl⟩ := hj.exists_get? (constantField "type" j.name)
    List.mem_cons_self List.mem_cons_self
  have hname : k.name = j.name := Json.str.inj (Option.some.inj (htype.symm.trans htype'))
  have hfound : some k = some j := by
    rw [← StepKind.ofName?_name k, hname, StepKind.ofName?_name]
  exact Option.some.inj hfound

namespace Recognizes

theorem condition (n : Nat) : Recognizes n (Document.reference "condition") IsCondition := by
  apply reference resolve_condition
  intro m _
  apply (closed conditionFields ["field", "op", "value"] ?_).iff
  · intro v _
    exact isCondition_iff.symm
  · intro f hf j _
    simp only [conditionFields, List.mem_cons, List.not_mem_nil, or_false] at hf
    rcases hf with rfl | rfl | rfl
    · exact text
    · exact chosen _
    · exact anything

/-- A case is recognized where its steps are. -/
theorem branchCase (hstep : ∀ m < n, Recognizes m (Document.reference "step") IsStep) :
    Recognizes n (Document.reference "branchCase") IsCase := by
  apply reference resolve_branchCase
  intro m hm
  apply (closed caseFields ["when", "steps"] ?_).iff
  · intro v _
    exact isCase_iff.symm
  · intro f hf j hj
    simp only [caseFields, List.mem_cons, List.not_mem_nil, or_false] at hf
    rcases hf with rfl | rfl
    · exact condition j
    · exact sequence fun i hi => hstep i (by omega)

/-- What the fields of a step ask for, where the steps inside of it are recognized. -/
theorem ownFields (k : StepKind) (hf : f ∈ ownFields k)
    (hstep : ∀ m < n, Recognizes m (Document.reference "step") IsStep) :
    Recognizes n f.part f.Holds := by
  cases k <;> simp only [Plan.ownFields, List.mem_cons, List.not_mem_nil, or_false] at hf
  case trigger =>
    rcases hf with rfl | rfl
    · exact text
    · exact flag
  case filter =>
    obtain rfl := hf
    exact condition n
  case branch =>
    rcases hf with rfl | rfl
    · exact nonempty fun m hm => branchCase fun j hj => hstep j (by omega)
    · exact sequenceOrNull hstep
  case slack =>
    rcases hf with rfl | rfl
    · exact text
    · exact text
  case request =>
    rcases hf with rfl | rfl | rfl | rfl
    · exact chosen _
    · exact text
    · exact openObject
    · exact openObject
  case action =>
    rcases hf with rfl | rfl
    · exact text
    · exact openObject

theorem variant (k : StepKind)
    (hstep : ∀ m < n, Recognizes m (Document.reference "step") IsStep) :
    Recognizes n (Document.variant k) (HasFields (stepFields k) (neededKeys k)) := by
  rw [variant_eq]
  apply closed
  intro f hf m hm
  rcases List.mem_cons.1 hf with rfl | hf
  · exact constant k.name
  · exact ownFields k hf fun j hj => hstep j (by omega)

theorem step (n : Nat) : Recognizes n (Document.reference "step") IsStep := by
  -- The induction is on the budget: a step inside of a step is entered with less of it.
  induction n using Nat.strongRecOn with
  | ind n ih =>
    apply reference resolve_step
    intro m hm
    apply ofKeywords
    intro j hj place v hv
    have hvariant : ∀ k ∈ StepKind.all, Settles (check schema j (Document.variant k) place v)
        (HasFields (stepFields k) (neededKeys k) v) := by
      intro k _
      exact variant k (fun i hi => ih i (by omega)) place v hv
    have hexclusive : ∀ k ∈ StepKind.all, ∀ i ∈ StepKind.all,
        HasFields (stepFields k) (neededKeys k) v → HasFields (stepFields i) (neededKeys i) v →
          k = i := fun k _ i _ => kind_unique
    apply (Kept.last (settles_oneOf (by decide) hexclusive hvariant)).iff
    constructor
    · rintro ⟨k, -, hk⟩
      exact isStep_of_fields k hk
    · intro hstep
      obtain ⟨k, hk⟩ := exists_fields hstep
      exact ⟨k, by cases k <;> decide, hk⟩

/-- The schema of plan documents recognizes the plans. -/
theorem plan (n : Nat) : Recognizes n schema IsPlan := by
  apply ofKeywords
  intro m _ place v hv
  have hfields : ∀ f ∈ planFields, Recognizes m f.part f.Holds := by
    intro f hf
    simp only [planFields, List.mem_cons, List.not_mem_nil, or_false] at hf
    rcases hf with rfl | rfl | rfl
    · exact constant "1"
    · exact name 1 100
    · exact bounded 50 fun j _ => step j
  apply (Kept.cons settles_dialect <|
    Kept.cons (settles_type_one rfl) <|
    Kept.cons (settles_fields hv hfields) <|
    Kept.cons (settles_required ["version", "name", "steps"]) <|
    Kept.cons (settles_additional rfl) <| Kept.last settles_definitions).iff
  rw [isPlan_iff, hasFields_iff, true_and, and_true]
  rfl

end Recognizes

end Flowplan.Plan
