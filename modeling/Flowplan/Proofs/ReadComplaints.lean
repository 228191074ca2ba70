import Flowplan.Plan.Parse

namespace Flowplan
set_option autoImplicit true

open Flowplan.Json Flowplan.Record

variable {α β : Type}

namespace Record

/-- What is not valid is complained about. -/
def Checked.Explained : Checked α → Prop
  | .valid _ => True
  | .invalid cs => cs ≠ []

namespace Checked.Explained

theorem refuse (fault : Fault) : (Checked.refuse fault : Checked α).Explained :=
  List.cons_ne_nil _ _

theorem map {c : Checked α} (f : α → β) (h : c.Explained) : (f <$> c).Explained := by
  cases c with
  | valid a => trivial
  | invalid cs => exact h

theorem seq {f : Checked (α → β)} {c : Checked α} (hf : f.Explained) (hc : c.Explained) :
    (f <*> c).Explained := by
  cases f with
  | valid g =>
    cases c with
    | valid a => trivial
    | invalid cs => exact hc
  | invalid fs => exact List.append_ne_nil_of_left_ne_nil hf _

theorem under {c : Checked α} (t : Token) (h : c.Explained) : (c.under t).Explained := by
  cases c with
  | valid a => trivial
  | invalid cs => exact mt List.map_eq_nil_iff.1 h

theorem also {c : Checked α} (more : List Complaint) (h : c.Explained) :
    (c.also more).Explained := by
  cases c with
  | valid a => cases more <;> simp [Checked.also, Explained]
  | invalid cs => exact List.append_ne_nil_of_left_ne_nil h _

theorem andThen {c : Checked α} {test : α → Checked β} (h : c.Explained)
    (ht : ∀ a, (test a).Explained) : (c.andThen test).Explained := by
  cases c with
  | valid a => exact ht a
  | invalid cs => exact h

end Checked.Explained

namespace Slot

theorem missing_explained (f : Slot) : (f.missing : Checked α).Explained := List.cons_ne_nil _ _

theorem required_explained (f : Slot) (o : Object) {read : Json → Checked α}
    (h : ∀ v, (read v).Explained) : (f.required o read).Explained := by
  rw [required]
  split
  · exact missing_explained f
  · split
    · exact missing_explained f
    · exact (h _).under _

theorem withDefault_explained (f : Slot) (o : Object) (default : α) {read : Json → Checked α}
    (h : ∀ v, (read v).Explained) : (f.withDefault o default read).Explained := by
  rw [withDefault]
  split
  · trivial
  · split
    · trivial
    · exact (h _).under _

theorem member_explained (f : Slot) (o : Object) {read : Json → Checked α}
    (h : ∀ v, (read v).Explained) : (f.member o read).Explained := by
  apply withDefault_explained
  intro v
  cases v with
  | null => trivial
  | _ => exact (h _).map Member.given

end Slot

theorem ofObject_explained (name : String) (fields : List Slot) {read : Object → Checked α}
    (h : ∀ o, (read o).Explained) (v : Json) : (ofObject name fields read v).Explained := by
  cases v with
  | obj o => exact (h o).also _
  | _ => exact .refuse _

theorem string_explained (v : Json) : (string v).Explained := by
  cases v with
  | str s => trivial
  | _ => exact .refuse _

theorem object_explained (v : Json) : (object v).Explained := by
  cases v with
  | obj o => trivial
  | _ => exact .refuse _

theorem literal_explained (expected : String) (v : Json) : (literal expected v).Explained := by
  cases v with
  | str s =>
    rw [literal]
    split
    · trivial
    · exact .refuse _
  | _ => exact .refuse _

theorem sizedString_explained (least most : Nat) (v : Json) :
    (sizedString least most v).Explained := by
  apply (string_explained v).andThen
  intro s
  split
  · exact .refuse _
  · split
    · exact .refuse _
    · trivial

theorem orUnreadable_explained (b : Option Bool) : (orUnreadable b).Explained := by
  cases b with
  | none => exact .refuse _
  | some b => trivial

theorem boolean_explained (v : Json) : (boolean v).Explained := by
  cases v with
  | bool b => trivial
  | str s => exact orUnreadable_explained _
  | int n =>
    rw [boolean]
    split
    · exact orUnreadable_explained _
    · exact .refuse _
  | real x =>
    rw [boolean]
    split
    · exact orUnreadable_explained _
    · exact .refuse _
  | _ => exact .refuse _

end Record

theorem Operator.read_explained (v : Json) : (Operator.read v).Explained := by
  cases v with
  | str s =>
    rw [read]
    split
    · trivial
    · exact .refuse _
  | _ => exact .refuse _

theorem Method.read_explained (v : Json) : (Method.read v).Explained := by
  cases v with
  | str s =>
    rw [read]
    split
    · trivial
    · exact .refuse _
  | _ => exact .refuse _

theorem Condition.read_explained (v : Json) : (Condition.read v).Explained := by
  apply ofObject_explained
  intro o
  apply Checked.Explained.seq
  · apply Checked.Explained.seq
    · exact (Slot.required_explained _ o string_explained).map _
    · exact Slot.required_explained _ o Operator.read_explained
  · exact Slot.withDefault_explained _ o _ fun _ => trivial

theorem StepKind.stated_explained (k : StepKind) (o : Object) : (k.stated o).Explained :=
  Slot.withDefault_explained _ o _ (literal_explained _)

theorem StepKind.ofMembers_explained (o : Object) : (StepKind.ofMembers o).Explained := by
  rw [ofMembers]
  split
  · exact .refuse _
  · split
    · split
      · trivial
      · exact .refuse _
    · exact .refuse _

theorem atLeastOne_explained {items : Checked (List α)} (h : items.Explained) :
    (atLeastOne items).Explained := by
  apply h.andThen
  intro xs
  split
  · exact .refuse _
  · trivial

namespace Step

theorem flatOfMembers_explained (k : StepKind) (o : Object) :
    (flatOfMembers k o).Explained := by
  have hk {β : Type} (f : String → β) : (f <$> k.stated o).Explained :=
    (k.stated_explained o).map f
  have htext (f : Slot) : (f.required o string).Explained :=
    Slot.required_explained f o string_explained
  have hobject (f : Slot) : (f.member o object).Explained :=
    Slot.member_explained f o object_explained
  apply Checked.Explained.also
  cases k with
  | trigger => exact ((hk _).seq (htext _)).seq (Slot.required_explained _ o boolean_explained)
  | filter => exact (hk _).seq (Slot.required_explained _ o Condition.read_explained)
  | branch => exact hk _
  | slack => exact ((hk _).seq (htext _)).seq (htext _)
  | request =>
    exact ((((hk _).seq (Slot.required_explained _ o Method.read_explained)).seq (htext _)).seq
      (hobject _)).seq (hobject _)
  | action => exact ((hk _).seq (htext _)).seq (hobject _)

theorem branchOfParts_explained (o : Object) {cases : Option (Checked (List (Case Step)))}
    {otherwise : Option (String × Checked (Member (List Step)))}
    (hc : ∀ cs, cases = some cs → cs.Explained)
    (he : ∀ key steps, otherwise = some (key, steps) → steps.Explained) :
    (branchOfParts o cases otherwise).Explained := by
  apply Checked.Explained.also
  apply Checked.Explained.seq
  · apply Checked.Explained.seq
    · exact (StepKind.stated_explained _ o).map _
    · cases cases with
      | none => exact Slot.missing_explained _
      | some cs => exact (atLeastOne_explained (hc cs rfl)).under _
  · cases otherwise with
    | none => trivial
    | some e => exact (he e.1 e.2 rfl).under _

theorem caseOfParts_explained (o : Object) {steps : Option (Checked (List Step))}
    (hs : ∀ ss, steps = some ss → ss.Explained) : (caseOfParts o steps).Explained := by
  apply Checked.Explained.also
  apply Checked.Explained.seq
  · exact (Slot.required_explained _ o Condition.read_explained).map _
  · cases steps with
    | none => trivial
    | some ss => exact (hs ss rfl).under _

mutual

theorem read_explained (v : Json) : (read v).Explained := by
  cases v with
  | obj o =>
    have hkind := StepKind.ofMembers_explained o
    rw [read]
    split
    · rename_i cs h
      rwa [h] at hkind
    · apply Checked.Explained.under
      split
      · apply branchOfParts_explained
        · exact casesIn_explained o
        · intro key steps h
          rw [Option.or_eq_some_iff] at h
          rcases h with h | ⟨-, h⟩ <;>
            obtain ⟨read, hread, he⟩ := Option.map_eq_some_iff.1 h <;>
            obtain ⟨-, rfl⟩ := Prod.mk.inj he
          · exact elseIn_explained o read hread
          · exact elseIn_explained o read hread
      · exact flatOfMembers_explained _ o
  | _ => exact .refuse _

theorem readItems_explained (i : Nat) (vs : List Json) : (readItems i vs).Explained := by
  match vs with
  | [] => trivial
  | v :: rest =>
    exact (((read_explained v).under _).map _).seq (readItems_explained (i + 1) rest)

theorem readList_explained (v : Json) : (readList v).Explained := by
  cases v with
  | arr vs => exact readItems_explained 0 vs
  | _ => exact .refuse _

theorem readElse_explained (v : Json) : (readElse v).Explained := by
  cases v with
  | arr vs => exact (readItems_explained 0 vs).map Member.given
  | null => trivial
  | _ => exact .refuse _

theorem readCase_explained (v : Json) : (readCase v).Explained := by
  cases v with
  | obj o => exact caseOfParts_explained o (stepsIn_explained o)
  | _ => exact .refuse _

theorem readCaseItems_explained (i : Nat) (vs : List Json) : (readCaseItems i vs).Explained := by
  match vs with
  | [] => trivial
  | v :: rest =>
    exact (((readCase_explained v).under _).map _).seq (readCaseItems_explained (i + 1) rest)

theorem readCases_explained (v : Json) : (readCases v).Explained := by
  cases v with
  | arr vs => exact readCaseItems_explained 0 vs
  | _ => exact .refuse _

theorem casesIn_explained (ms : List (String × Json)) :
    ∀ cs, casesIn ms = some cs → cs.Explained := by
  match ms with
  | [] => simp [casesIn]
  | (k, v) :: rest =>
    intro cs h
    rw [casesIn] at h
    split at h
    · exact Option.some.inj h ▸ readCases_explained v
    · exact casesIn_explained rest cs h

theorem stepsIn_explained (ms : List (String × Json)) :
    ∀ ss, stepsIn ms = some ss → ss.Explained := by
  match ms with
  | [] => simp [stepsIn]
  | (k, v) :: rest =>
    intro ss h
    rw [stepsIn] at h
    split at h
    · exact Option.some.inj h ▸ readList_explained v
    · exact stepsIn_explained rest ss h

theorem elseIn_explained (ms : List (String × Json)) :
    ∀ steps, elseIn key ms = some steps → steps.Explained := by
  match ms with
  | [] => simp [elseIn]
  | (k, v) :: rest =>
    intro steps h
    rw [elseIn] at h
    split at h
    · exact Option.some.inj h ▸ readElse_explained v
    · exact elseIn_explained rest steps h

end

end Step

namespace Plan

theorem readSteps_explained (v : Json) : (readSteps v).Explained := by
  cases v with
  | arr vs =>
    rw [readSteps]
    split
    · exact .refuse _
    · exact atLeastOne_explained (Step.readItems_explained 0 vs)
  | _ => exact .refuse _

theorem read_explained (v : Json) : (Plan.read v).Explained := by
  apply ofObject_explained
  intro o
  apply Checked.Explained.seq
  · apply Checked.Explained.seq
    · exact (Slot.withDefault_explained _ o _ (literal_explained _)).map _
    · exact Slot.required_explained _ o (sizedString_explained _ _)
  · exact Slot.required_explained _ o readSteps_explained

end Plan

end Flowplan
