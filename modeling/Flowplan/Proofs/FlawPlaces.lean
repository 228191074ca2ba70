import Flowplan.Proofs.PlanFlaws

/-!
Where the flaws of a document are. Each is at the way from the root to a part that breaks what the
flaw is about, so what is found below a step comes of that step alone.
-/

namespace Flowplan
set_option autoImplicit true

open Flowplan.Json Flowplan.Schema

namespace Json

theorem sizeOf_lt_of_mem {vs : List Json} (h : v ∈ vs) : sizeOf v < sizeOf (Json.arr vs) := by
  have hlt := List.sizeOf_lt_of_mem h
  rw [Json.arr.sizeOf_spec]
  omega

theorem sizeOf_lt_of_get? {o : Object} (h : Table.get? o key = some v) :
    sizeOf v < sizeOf (Json.obj o) := by
  have hlt := List.sizeOf_lt_of_mem (Table.mem_of_get? h)
  rw [Prod.mk.sizeOf_spec] at hlt
  rw [Json.obj.sizeOf_spec]
  omega

end Json

namespace Plan.Flaw

/-- That a part of a document breaks what a kind of flaw is about. -/
def Kind.Broken : Kind → Json → Prop
  | .type names, v => ∀ name ∈ names, hasType v name = false
  | .constant text, v => v ≠ .str text
  | .choice names, v => ∀ name ∈ names, v ≠ .str name
  | .missing key, v => ∃ o, v = .obj o ∧ key ∉ Table.keys o
  | .unexpected keys, v => keys ≠ [] ∧ ∃ o, v = .obj o ∧ ∀ key ∈ keys, key ∈ Table.keys o
  | .fewItems least, v => ∃ n, itemCount? v = some n ∧ n < least
  | .manyItems most, v => ∃ n, itemCount? v = some n ∧ most < n
  | .shortText least, v => ∃ n, textLength? v = some n ∧ n < least
  | .longText most, v => ∃ n, textLength? v = some n ∧ most < n
  | .variant, v => kind? v = none

/-- Flaws that are found in the parts of a value at a place. -/
def Located (place : Locator) (v : Json) (flaws : List Flaw) : Prop :=
  ∀ f ∈ flaws, ∃ tail part, f.place = place ++ tail ∧ v.at? tail = some part ∧ f.kind.Broken part

namespace Located

variable {place : Locator} {v : Json} {c : Check}

theorem nil : Located place v [] := fun _ hf => absurd hf List.not_mem_nil

theorem append (h : Located place v front) (h' : Located place v back) :
    Located place v (front ++ back) :=
  fun f hf => (List.mem_append.1 hf).elim (h f) (h' f)

/-- A flaw of the value itself. -/
theorem here {kind : Kind} (h : kind.Broken v) : Located place v [⟨place, kind⟩] := by
  intro f hf
  obtain rfl := List.mem_singleton.1 hf
  exact ⟨[], v, (List.append_nil place).symm, rfl, h⟩

theorem flawIf {bad : Bool} {kind : Kind} (h : bad = true → kind.Broken v) :
    Located place v (flawIf bad place kind) := by
  cases bad with
  | false => exact nil
  | true => exact here (h rfl)

theorem inMember {o : Object}
    (h : ∀ w, Table.get? o key = some w → Located (place ++ [.name key]) w
      (c (place ++ [.name key]) w)) : Located place (.obj o) (inMember key c place o) := by
  unfold Flaw.inMember
  cases hw : Table.get? o key with
  | none => exact nil
  | some w =>
    intro f hf
    obtain ⟨tail, part, hplace, hpart, hbroken⟩ := h w hw f hf
    refine ⟨.name key :: tail, part, ?_, ?_, hbroken⟩
    · rw [hplace, List.append_assoc, List.singleton_append]
    · rw [at?_cons, part?_name, hw]
      exact hpart

theorem ofIndexed {vs ws : List Json} (hw : ∀ j, ws[j]? = vs[i + j]?)
    (h : ∀ w ∈ ws, ∀ place, Located place w (c place w)) :
    Located place (.arr vs) ((indexed i ws).flatMap fun e => c (place ++ [.index e.1]) e.2) := by
  induction ws generalizing i with
  | nil => exact nil
  | cons w rest ih =>
    rw [indexed, List.flatMap_cons]
    apply append
    · intro f hf
      obtain ⟨tail, part, hplace, hpart, hbroken⟩ := h w List.mem_cons_self _ f hf
      refine ⟨.index i :: tail, part, ?_, ?_, hbroken⟩
      · rw [hplace, List.append_assoc, List.singleton_append]
      · have hi : vs[i]? = some w := (hw 0).symm
        rw [at?_cons, part?_index, hi]
        exact hpart
    · apply ih
      · intro j
        rw [Nat.add_right_comm, Nat.add_assoc]
        exact hw (j + 1)
      · exact fun u hu => h u (List.mem_cons_of_mem _ hu)

theorem ofItems {vs : List Json} (h : ∀ w ∈ vs, ∀ place, Located place w (ofStep place w)) :
    Located place (.arr vs) (ofItems place 0 vs) := by
  rw [ofItems_eq]
  exact ofIndexed (fun j => by rw [Nat.zero_add]) h

theorem typed (names : List String) : Located place v (typed names place v) := by
  apply flawIf
  simp [Kind.Broken]

theorem constant (text : String) : Located place v (constant text place v) := by
  apply append (typed _) (flawIf ?_)
  intro h
  rintro rfl
  simp [string?] at h

theorem choice (names : List String) : Located place v (choice names place v) := by
  apply append (typed _) (flawIf ?_)
  intro h name hname
  rintro rfl
  simp only [string?, Bool.not_eq_true', List.any_eq_false, beq_iff_eq] at h
  exact h name hname rfl

theorem sized (least most : Nat) : Located place v (sized least most place v) := by
  apply append (append (typed _) (flawIf ?_)) (flawIf ?_)
  · simp [Kind.Broken, Option.any_eq_true]
  · simp [Kind.Broken, Option.any_eq_true]

theorem missing (needed : List String) (o : Object) :
    Located place (.obj o) (missing needed place o) := by
  intro f hf
  obtain ⟨key, hkey, rfl⟩ := List.mem_map.1 hf
  have hnone : key ∉ Table.keys o := by
    rw [← Table.has_iff_mem_keys]
    simpa using (List.mem_filter.1 hkey).2
  exact ⟨[], _, (List.append_nil place).symm, rfl, o, rfl, hnone⟩

theorem unexpected (known : List String) (o : Object) :
    Located place (.obj o) (unexpected known place o) := by
  apply flawIf
  intro h
  refine ⟨by simpa using h, o, rfl, ?_⟩
  intro key hkey
  exact (List.mem_filter.1 hkey).1

theorem inKeys (needed optional : List String) (o : Object) :
    Located place (.obj o) (inKeys needed optional place o) :=
  append (missing needed o) (unexpected _ o)

theorem notObject (h : hasType v "object" = false) :
    Located place v [⟨place, .type ["object"]⟩] := here (by simp [Kind.Broken, h])

theorem ofCondition : Located place v (ofCondition place v) := by
  cases v with
  | obj o =>
    apply append (append ?_ ?_) (inKeys _ _ o)
    · exact inMember fun w _ => typed _
    · exact inMember fun w _ => choice _
  | _ => exact notObject rfl

/-- The members of a step, where the flaws below it are located. -/
theorem inStep {o : Object} (k : StepKind) (h : Located place (.obj o) below) :
    Located place (.obj o) (inStep k place o below) := by
  apply append ?_ (inKeys _ _ o)
  cases k with
  | trigger => exact append (inMember fun w _ => typed _) (inMember fun w _ => typed _)
  | filter => exact inMember fun w _ => ofCondition
  | branch => exact h
  | slack => exact append (inMember fun w _ => typed _) (inMember fun w _ => typed _)
  | request =>
    apply append (append (append ?_ ?_) ?_) ?_
    · exact inMember fun w _ => choice _
    · exact inMember fun w _ => typed _
    · exact inMember fun w _ => typed _
    · exact inMember fun w _ => typed _
  | action => exact append (inMember fun w _ => typed _) (inMember fun w _ => typed _)

end Located

/-- Whatever a value is looked at as, the flaws found are located in it. -/
structure Placed (v : Json) : Prop where
  step : ∀ place, Located place v (ofStep place v)
  steps : ∀ place, Located place v (ofSteps place v)
  otherwise : ∀ place, Located place v (ofElse place v)
  case : ∀ place, Located place v (ofCase place v)
  cases : ∀ place, Located place v (ofCases place v)

theorem Placed.ofArray {vs : List Json} (h : ∀ w ∈ vs, Placed w) : Placed (.arr vs) where
  step place := .here rfl
  steps place := .ofItems fun w hw => (h w hw).step
  otherwise place := .ofItems fun w hw => (h w hw).step
  case place := .notObject rfl
  cases place := by
    rw [ofCases, ofCaseItems_eq]
    apply Located.append
    · exact .ofIndexed (fun j => by rw [Nat.zero_add]) fun w hw => (h w hw).case
    · exact .flawIf fun hfew => ⟨vs.length, rfl, of_decide_eq_true hfew⟩

theorem Placed.ofObject {o : Object} (h : ∀ key w, Table.get? o key = some w → Placed w) :
    Placed (.obj o) where
  step place := by
    rw [ofStep]
    cases hkind : statedKind? o with
    | none => exact .here hkind
    | some k =>
      apply Located.inStep
      rw [casesIn_eq, elseIn_eq]
      apply Located.append
      · exact .inMember fun w hw => (h _ w hw).cases _
      · exact .inMember fun w hw => (h _ w hw).otherwise _
  steps place := .typed ["array"]
  otherwise place := .typed ["array", "null"]
  case place := by
    rw [ofCase, stepsIn_eq]
    apply Located.append (.append ?_ ?_) (.inKeys _ _ o)
    · exact .inMember fun w _ => .ofCondition
    · exact .inMember fun w hw => (h _ w hw).steps _
  cases place := .typed ["array"]

theorem placed (v : Json) : Placed v := by
  cases v with
  | arr vs => exact .ofArray fun w hw => placed w
  | obj o => exact .ofObject fun key w hw => placed w
  | null => exact ⟨fun _ => .here rfl, fun _ => .typed ["array"], fun _ => .nil,
      fun _ => .notObject rfl, fun _ => .typed ["array"]⟩
  | _ => exact ⟨fun _ => .here rfl, fun _ => .typed ["array"], fun _ => .typed ["array", "null"],
      fun _ => .notObject rfl, fun _ => .typed ["array"]⟩
termination_by sizeOf v
decreasing_by
  · exact sizeOf_lt_of_mem hw
  · exact sizeOf_lt_of_get? hw

end Plan.Flaw
end Flowplan
