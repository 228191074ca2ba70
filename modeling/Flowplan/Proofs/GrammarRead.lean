import Flowplan.Plan.Read
import Flowplan.Proofs.CheckedLaws
import Flowplan.Proofs.PlanGrammar
import Flowplan.Proofs.TableLaws

namespace Flowplan
set_option autoImplicit true

open Flowplan.Json Flowplan.Record

namespace Record

variable {α β : Type}

def Checked.Succeeds (c : Checked α) : Prop := ∃ a, c = .valid a

namespace Checked.Succeeds

theorem valid (a : α) : (Checked.valid a).Succeeds := ⟨a, rfl⟩

theorem map {c : Checked α} {f : α → β} (h : c.Succeeds) : (f <$> c).Succeeds := by
  obtain ⟨a, rfl⟩ := h
  exact valid (f a)

theorem seq {f : Checked (α → β)} {c : Checked α} (hf : f.Succeeds) (hc : c.Succeeds) :
    (f <*> c).Succeeds := by
  obtain ⟨g, rfl⟩ := hf
  obtain ⟨a, rfl⟩ := hc
  exact valid (g a)

theorem under {c : Checked α} {t : Token} (h : c.Succeeds) : (c.under t).Succeeds := by
  obtain ⟨a, rfl⟩ := h
  exact valid a

theorem also {c : Checked α} (h : c.Succeeds) (hmore : more = []) : (c.also more).Succeeds := by
  obtain ⟨a, rfl⟩ := h
  exact ⟨a, also_eq_valid.2 ⟨rfl, hmore⟩⟩

end Checked.Succeeds

namespace Slot

variable {f : Slot} {o : Object}

theorem key?_of_get? (h : Table.get? o f.wire = some v) : f.key? o = some f.wire := by
  have hkey : f.wire ∈ Table.keys o := Table.mem_keys_iff_get?.2 ⟨v, h⟩
  rw [key?, if_pos (Table.has_iff_mem_keys.2 hkey)]

theorem required_succeeds {read : Json → Checked α} (h : Table.get? o f.wire = some v)
    (hread : (read v).Succeeds) : (f.required o read).Succeeds := by
  simp only [required, key?_of_get? h, h]
  exact hread.under

theorem withDefault_succeeds {read : Json → Checked α} {default : α}
    (h : Table.get? o f.wire = some v) (hread : (read v).Succeeds) :
    (f.withDefault o default read).Succeeds := by
  simp only [withDefault, key?_of_get? h, h]
  exact hread.under

theorem key?_of_absent (h : Table.get? o key = none) : (plain key).key? o = none := by
  have hhas : Table.has o key = false := by rw [Table.has, h, Option.isSome_none]
  simp [key?, plain, hhas]

/-- An object that may be left out is read where it is one. -/
theorem member_succeeds (h : IsOptionalObject (Table.get? o key)) :
    ((plain key).member o object).Succeeds := by
  cases hm : Table.get? o key with
  | none =>
    simp only [member, withDefault, key?_of_absent hm]
    exact .valid _
  | some v =>
    rw [hm] at h
    apply withDefault_succeeds hm
    cases h with
    | null => exact .valid _
    | given => exact .valid _

end Slot

theorem itemsFrom_succeeds {read : Json → Checked α} {vs : List Json}
    (h : ∀ v ∈ vs, (read v).Succeeds) : (itemsFrom read i vs).Succeeds := by
  induction vs generalizing i with
  | nil => exact .valid []
  | cons v rest ih =>
    obtain ⟨hv, hrest⟩ := List.forall_mem_cons.1 h
    rw [itemsFrom]
    exact hv.under.map.seq (ih hrest)

/-- One or more items that can be read are one or more items once read. -/
theorem atLeastOne_succeeds {read : Json → Checked α} {vs : List Json} (hvs : vs ≠ [])
    (h : ∀ v ∈ vs, (read v).Succeeds) : (atLeastOne (itemsFrom read 0 vs)).Succeeds := by
  cases vs with
  | nil => exact absurd rfl hvs
  | cons v rest =>
    obtain ⟨⟨first, hfirst⟩, hrest⟩ := List.forall_mem_cons.1 h
    obtain ⟨others, hothers⟩ := itemsFrom_succeeds (i := 1) hrest
    rw [itemsFrom, hfirst, hothers]
    exact .valid (first :: others)

theorem extras_eq_nil {fields : List Slot} {o : Object}
    (h : ∀ key ∈ Table.keys o, key ∈ fields.map Slot.wire) : extras fields o = [] := by
  rw [extras, List.map_eq_nil_iff, List.filter_eq_nil_iff]
  intro key hkey
  obtain ⟨f, hf, rfl⟩ := List.mem_map.1 (h key hkey)
  obtain ⟨v, hv⟩ := Table.mem_keys_iff_get?.1 hkey
  have hknown : f.wire ∈ fields.filterMap (·.key? o) :=
    List.mem_filterMap.2 ⟨f, hf, Slot.key?_of_get? hv⟩
  simp [hknown]

end Record

namespace HasKeys

variable {required optional : List String}

theorem get?_eq_none (keys : HasKeys required optional o)
    (h : key ∉ required ++ optional) : Table.get? o key = none := by
  cases hv : Table.get? o key with
  | none => rfl
  | some v => exact absurd (keys.only key (Table.mem_keys_iff_get?.2 ⟨v, hv⟩)) h

theorem extras {fields : List Slot} (keys : HasKeys required optional o)
    (h : fields.map Slot.wire = required ++ optional) : Record.extras fields o = [] := by
  apply extras_eq_nil
  intro key hkey
  rw [h]
  exact keys.only key hkey

end HasKeys

theorem Operator.read_succeeds (h : name ∈ ["contains", "equals", "gt", "lt", "regex"]) :
    (Operator.read (.str name)).Succeeds := by
  simp only [List.mem_cons, List.not_mem_nil, or_false] at h
  rcases h with rfl | rfl | rfl | rfl | rfl <;> exact .valid _

theorem Method.read_succeeds {name : String} (h : name ∈ ["GET", "POST", "PUT", "DELETE"]) :
    (Method.read (.str name)).Succeeds := by
  simp only [List.mem_cons, List.not_mem_nil, or_false] at h
  rcases h with rfl | rfl | rfl | rfl <;> exact .valid _

theorem Record.literal_succeeds (s : String) : (literal s (.str s)).Succeeds := by
  rw [literal, if_pos (beq_self_eq_true s)]
  exact .valid s

theorem Condition.read_succeeds (h : IsCondition v) : (Condition.read v).Succeeds := by
  obtain ⟨keys, field, op, known⟩ := h
  obtain ⟨w, value⟩ := Table.mem_keys_iff_get?.1 (keys.all "value" (by simp))
  refine Checked.Succeeds.also (.seq (.seq (.map ?_) ?_) ?_) (keys.extras rfl)
  · exact Slot.required_succeeds field (.valid _)
  · exact Slot.required_succeeds op (Operator.read_succeeds known)
  · exact Slot.withDefault_succeeds value (.valid _)

namespace StepKind

theorem ofMembers_of_type {k : StepKind} (h : Table.get? o "type" = some (.str k.name)) :
    ofMembers o = .valid k := by
  simp only [ofMembers, h, ofName?_name]

theorem stated_succeeds {k : StepKind} (h : Table.get? o "type" = some (.str k.name)) :
    (k.stated o).Succeeds := Slot.withDefault_succeeds h (literal_succeeds k.name)

end StepKind

namespace Step

theorem casesIn_eq (o : Object) : casesIn o = (Table.get? o "cases").map readCases := by
  induction o with
  | nil => rfl
  | cons e rest ih =>
    obtain ⟨k, v⟩ := e
    rw [casesIn, Table.get?]
    split
    · rfl
    · exact ih

theorem stepsIn_eq (o : Object) : stepsIn o = (Table.get? o "steps").map readList := by
  induction o with
  | nil => rfl
  | cons e rest ih =>
    obtain ⟨k, v⟩ := e
    rw [stepsIn, Table.get?]
    split
    · rfl
    · exact ih

theorem elseIn_eq (key : String) (o : Object) :
    elseIn key o = (Table.get? o key).map readElse := by
  induction o with
  | nil => rfl
  | cons e rest ih =>
    obtain ⟨k, v⟩ := e
    rw [elseIn, Table.get?]
    split
    · rfl
    · exact ih

theorem read_flat {k : StepKind} (type : Table.get? o "type" = some (.str k.name))
    (hk : k ≠ .branch) (h : (flatOfMembers k o).Succeeds) : (read (.obj o)).Succeeds := by
  simp only [read, StepKind.ofMembers_of_type type, if_neg hk]
  exact h.under

theorem readItems_eq (i : Nat) (vs : List Json) : readItems i vs = itemsFrom read i vs := by
  induction vs generalizing i with
  | nil => rfl
  | cons v rest ih => rw [readItems, itemsFrom, ih]

theorem readCaseItems_eq (i : Nat) (vs : List Json) :
    readCaseItems i vs = itemsFrom readCase i vs := by
  induction vs generalizing i with
  | nil => rfl
  | cons v rest ih => rw [readCaseItems, itemsFrom, ih]

theorem readCases_succeeds {cs : List Json} (hne : cs ≠ [])
    (h : ∀ c ∈ cs, (readCase c).Succeeds) : (atLeastOne (readCases (.arr cs))).Succeeds := by
  rw [readCases, readCaseItems_eq]
  exact atLeastOne_succeeds hne h

theorem read_branch (keys : HasKeys ["type", "cases"] ["else"] o)
    (type : Table.get? o "type" = some (.str StepKind.branch.name))
    (cases : Table.get? o "cases" = some v) (hcases : (atLeastOne (readCases v)).Succeeds)
    (helse : ∀ w, Table.get? o "else" = some w → (readElse w).Succeeds) :
    (read (.obj o)).Succeeds := by
  -- The name that the program knows the else by is no key of the grammar.
  have habsent : elseIn "else_" o = none := by
    rw [elseIn_eq, keys.get?_eq_none (by decide), Option.map_none]
  have hother : ∀ e, elseIn "else" o = some e → e.Succeeds := by
    intro e he
    rw [elseIn_eq, Option.map_eq_some_iff] at he
    obtain ⟨w, hw, rfl⟩ := he
    exact helse w hw
  simp only [read, StepKind.ofMembers_of_type type, if_true, habsent, casesIn_eq, cases,
    Option.map_some, Option.map_none, Option.or_none]
  apply Checked.Succeeds.under
  refine Checked.Succeeds.also (.seq (.seq (.map ?_) ?_) ?_) (keys.extras rfl)
  · exact StepKind.stated_succeeds type
  · exact hcases.under
  · cases hfound : elseIn "else" o with
    | none => exact .valid _
    | some e => exact (hother e hfound).under

mutual

theorem read_succeeds (h : IsStep v) : (read v).Succeeds := by
  match h with
  | .trigger keys type path signed =>
    apply read_flat (k := .trigger) type (by simp)
    refine Checked.Succeeds.also (.seq (.seq (.map ?_) ?_) ?_) (keys.extras rfl)
    · exact StepKind.stated_succeeds type
    · exact Slot.required_succeeds path (.valid _)
    · exact Slot.required_succeeds signed (.valid _)
  | .filter keys type condition isCondition =>
    apply read_flat (k := .filter) type (by simp)
    refine Checked.Succeeds.also (.seq (.map ?_) ?_) (keys.extras rfl)
    · exact StepKind.stated_succeeds type
    · exact Slot.required_succeeds condition (Condition.read_succeeds isCondition)
  | .branch keys type cases nonempty areCases otherwise =>
    apply read_branch keys type cases
    · exact readCases_succeeds nonempty fun c hc => readCase_succeeds (areCases c hc)
    · exact readElse_succeeds otherwise
  | .slack keys type channel text =>
    apply read_flat (k := .slack) type (by simp)
    refine Checked.Succeeds.also (.seq (.seq (.map ?_) ?_) ?_) (keys.extras rfl)
    · exact StepKind.stated_succeeds type
    · exact Slot.required_succeeds channel (.valid _)
    · exact Slot.required_succeeds text (.valid _)
  | .request keys type method known url headers body =>
    apply read_flat (k := .request) type (by simp)
    refine Checked.Succeeds.also (.seq (.seq (.seq (.seq (.map ?_) ?_) ?_) ?_) ?_) (keys.extras rfl)
    · exact StepKind.stated_succeeds type
    · exact Slot.required_succeeds method (Method.read_succeeds known)
    · exact Slot.required_succeeds url (.valid _)
    · exact Slot.member_succeeds headers
    · exact Slot.member_succeeds body
  | .action keys type slug input =>
    apply read_flat (k := .action) type (by simp)
    refine Checked.Succeeds.also (.seq (.seq (.map ?_) ?_) ?_) (keys.extras rfl)
    · exact StepKind.stated_succeeds type
    · exact Slot.required_succeeds slug (.valid _)
    · exact Slot.member_succeeds input

theorem readCase_succeeds (h : IsCase v) : (readCase v).Succeeds := by
  match h with
  | .mk keys condition isCondition steps areSteps =>
    have hsteps := itemsFrom_succeeds (i := 0) fun s hs => read_succeeds (areSteps s hs)
    rw [← readItems_eq] at hsteps
    rw [readCase, stepsIn_eq, steps]
    refine Checked.Succeeds.also (.seq (.map ?_) ?_) (keys.extras rfl)
    · exact Slot.required_succeeds condition (Condition.read_succeeds isCondition)
    · exact hsteps.under

theorem readElse_succeeds (h : IsElse m) : ∀ v, m = some v → (readElse v).Succeeds := by
  intro v hv
  match h with
  | .absent => simp at hv
  | .null =>
    obtain rfl := Option.some.inj hv
    exact .valid _
  | .given areSteps =>
    obtain rfl := Option.some.inj hv
    rw [readElse, readItems_eq]
    exact (itemsFrom_succeeds fun s hs => read_succeeds (areSteps s hs)).map

end

end Step

namespace Plan

theorem readSteps_succeeds {vs : List Json} (hvs : vs ≠ []) (hmost : vs.length ≤ maxSteps)
    (h : ∀ v ∈ vs, IsStep v) : (readSteps (.arr vs)).Succeeds := by
  rw [readSteps, if_neg (Nat.not_lt.2 hmost), Step.readItems_eq]
  exact atLeastOne_succeeds hvs fun v hv => Step.read_succeeds (h v hv)

theorem sizedString_succeeds (hleast : least ≤ s.length) (hmost : s.length ≤ most) :
    (sizedString least most (.str s)).Succeeds := by
  rw [sizedString, Record.string, Checked.andThen, if_neg (Nat.not_lt.2 hleast),
    if_neg (Nat.not_lt.2 hmost)]
  exact .valid s

/-- A value of the grammar is read as a plan. -/
theorem read_succeeds (h : IsPlan v) : (Plan.read v).Succeeds := by
  obtain ⟨keys, version, name, named, short, steps, nonempty, few, areSteps⟩ := h
  have hss := List.length_pos_iff.1 nonempty
  refine Checked.Succeeds.also (.seq (.seq (.map ?_) ?_) ?_) (keys.extras rfl)
  · exact Slot.withDefault_succeeds version (literal_succeeds "1")
  · exact Slot.required_succeeds name (sizedString_succeeds named short)
  · exact Slot.required_succeeds steps (readSteps_succeeds hss few areSteps)

end Plan

end Flowplan
