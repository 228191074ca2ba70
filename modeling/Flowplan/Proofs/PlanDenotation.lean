import Flowplan.Proofs.GrammarRead

/-!
Which plan a document stands for. The number is the budget of the check: a step inside of a step
is entered with less of it. A value that stands for something is read as just that.
-/

namespace Flowplan
set_option autoImplicit true

open Flowplan.Json Flowplan.Record

inductive DenotesCondition : Nat → Json → Condition → Prop
  | mk {o : Object} (keys : HasKeys ["field", "op", "value"] [] o)
      (field : Table.get? o "field" = some (.str s))
      (op : Table.get? o "op" = some (.str name)) (known : Operator.ofName? name = some op')
      (value : Table.get? o "value" = some v) :
      DenotesCondition (n + 3) (.obj o) ⟨s, op', v⟩

/-- An optional object, left out, null or given. -/
inductive DenotesObject : Option Json → Member Object → Prop
  | absent : DenotesObject none .absent
  | null : DenotesObject (some .null) .null
  | given : DenotesObject (some (.obj o)) (.given o)

mutual

inductive Denotes : Nat → Json → Step → Prop
  | trigger {o : Object} (keys : HasKeys ["type", "path", "secretHmac"] [] o)
      (type : Table.get? o "type" = some (.str "trigger.http"))
      (path : Table.get? o "path" = some (.str s))
      (signed : Table.get? o "secretHmac" = some (.bool b)) :
      Denotes (n + 4) (.obj o) (.trigger s b)
  | filter {o : Object} (keys : HasKeys ["type", "when"] [] o)
      (type : Table.get? o "type" = some (.str "filter"))
      (condition : Table.get? o "when" = some v) (denotes : DenotesCondition (n + 1) v c) :
      Denotes (n + 4) (.obj o) (.filter c)
  | branch {o : Object} {vs : List Json} (keys : HasKeys ["type", "cases"] ["else"] o)
      (type : Table.get? o "type" = some (.str "branch"))
      (cases : Table.get? o "cases" = some (.arr vs)) (nonempty : vs ≠ [])
      (denotes : DenotesCases n vs cs) (otherwise : DenotesElse n (Table.get? o "else") e) :
      Denotes (n + 4) (.obj o) (.branch cs e)
  | slack {o : Object} (keys : HasKeys ["type", "channel", "text"] [] o)
      (type : Table.get? o "type" = some (.str "action.slack.postMessage"))
      (channel : Table.get? o "channel" = some (.str s))
      (text : Table.get? o "text" = some (.str t)) :
      Denotes (n + 4) (.obj o) (.slack s t)
  | request {o : Object} (keys : HasKeys ["type", "method", "url"] ["headers", "body"] o)
      (type : Table.get? o "type" = some (.str "action.http.request"))
      (method : Table.get? o "method" = some (.str name)) (known : Method.ofName? name = some m)
      (url : Table.get? o "url" = some (.str s))
      (headers : DenotesObject (Table.get? o "headers") h)
      (body : DenotesObject (Table.get? o "body") b) :
      Denotes (n + 4) (.obj o) (.request m s h b)
  | action {o : Object} (keys : HasKeys ["type", "actionSlug"] ["input"] o)
      (type : Table.get? o "type" = some (.str "custom.action"))
      (slug : Table.get? o "actionSlug" = some (.str s))
      (input : DenotesObject (Table.get? o "input") i) :
      Denotes (n + 4) (.obj o) (.action s i)

inductive DenotesSteps : Nat → List Json → List Step → Prop
  | nil : DenotesSteps n [] []
  | cons (first : Denotes n v s) (rest : DenotesSteps n vs ss) : DenotesSteps n (v :: vs) (s :: ss)

inductive DenotesCase : Nat → Json → Case Step → Prop
  | mk {o : Object} {vs : List Json} (keys : HasKeys ["when", "steps"] [] o)
      (condition : Table.get? o "when" = some v) (denotes : DenotesCondition (n + 1) v c)
      (steps : Table.get? o "steps" = some (.arr vs)) (denotesSteps : DenotesSteps n vs ss) :
      DenotesCase (n + 3) (.obj o) ⟨c, ss⟩

inductive DenotesCases : Nat → List Json → List (Case Step) → Prop
  | nil : DenotesCases n [] []
  | cons (first : DenotesCase n v c) (rest : DenotesCases n vs cs) :
      DenotesCases n (v :: vs) (c :: cs)

inductive DenotesElse : Nat → Option Json → Member (List Step) → Prop
  | absent : DenotesElse n none .absent
  | null : DenotesElse n (some .null) .null
  | given (steps : DenotesSteps n vs ss) : DenotesElse n (some (.arr vs)) (.given ss)

end

inductive DenotesPlan : Nat → Json → Plan → Prop
  | mk {o : Object} {vs : List Json} (keys : HasKeys ["version", "name", "steps"] [] o)
      (version : Table.get? o "version" = some (.str "1"))
      (name : Table.get? o "name" = some (.str s)) (named : 1 ≤ s.length) (short : s.length ≤ 100)
      (steps : Table.get? o "steps" = some (.arr vs)) (nonempty : vs ≠ [])
      (few : vs.length ≤ 50) (denotes : DenotesSteps n vs ss) :
      DenotesPlan (n + 2) (.obj o) ⟨"1", s, ss⟩

namespace Record

variable {α : Type} {f : Slot} {o : Object} {read : Json → Checked α} {a : α}

theorem Slot.required_of_get? (h : Table.get? o f.wire = some v) :
    f.required o read = (read v).under (.name f.wire) := by
  simp only [required, key?_of_get? h, h]

theorem Slot.withDefault_of_get? (h : Table.get? o f.wire = some v) :
    f.withDefault o a read = (read v).under (.name f.wire) := by
  simp only [withDefault, key?_of_get? h, h]

theorem Slot.member_of_denotes (h : DenotesObject (Table.get? o key) m) :
    (plain key).member o object = .valid m := by
  cases hv : Table.get? o key with
  | none =>
    rw [hv] at h
    cases h
    simp only [member, withDefault, key?_of_absent hv]
  | some v =>
    rw [member, withDefault_of_get? hv]
    rw [hv] at h
    cases h <;> rfl

theorem literal_self (s : String) : literal s (.str s) = .valid s :=
  if_pos (beq_self_eq_true s)

theorem string_eq_valid : string v = .valid s ↔ v = .str s := by
  cases v <;> simp [string, Checked.refuse]

theorem sizedString_eq_valid : sizedString least most v = .valid s ↔
    v = .str s ∧ least ≤ s.length ∧ s.length ≤ most := by
  rw [sizedString, Checked.andThen_eq_valid]
  constructor
  · rintro ⟨t, ht, h⟩
    obtain rfl := string_eq_valid.1 ht
    split at h
    · simp [Checked.refuse] at h
    · split at h
      · simp [Checked.refuse] at h
      · obtain rfl := Checked.valid.inj h
        exact ⟨rfl, by omega, by omega⟩
  · rintro ⟨rfl, hleast, hmost⟩
    exact ⟨s, rfl, by rw [if_neg (Nat.not_lt.2 hleast), if_neg (Nat.not_lt.2 hmost)]⟩

end Record

theorem Condition.read_of_denotes (h : DenotesCondition n v c) : Condition.read v = .valid c := by
  obtain ⟨keys, field, op, known, value⟩ := h
  refine Checked.also_eq_valid.2 ⟨?_, keys.extras rfl⟩
  rw [ofMembers, Slot.required_of_get? field, Slot.required_of_get? op,
    Slot.withDefault_of_get? value, Operator.read]
  simp only [known]
  rfl

namespace StepKind

theorem stated_of_type {k : StepKind} (h : Table.get? o "type" = some (.str k.name)) :
    k.stated o = .valid k.name := by
  rw [stated, Slot.withDefault_of_get? h, literal_self]
  rfl

end StepKind

namespace Step

theorem read_flat_iff {k : StepKind} (type : Table.get? o "type" = some (.str k.name))
    (hk : k ≠ .branch) : read (.obj o) = .valid s ↔ flatOfMembers k o = .valid s := by
  simp only [read, StepKind.ofMembers_of_type type, if_neg hk, Checked.under_valid]

/-- A branch is read from cases and an else that are read. -/
theorem branchOfParts_of_valid (type : Table.get? o "type" = some (.str StepKind.branch.name))
    (hne : cs ≠ []) (helse : otherwise = none ∧ e = .absent ∨ otherwise = some (key, .valid e))
    (hextras : extras StepKind.branch.fields o = []) :
    branchOfParts o (some (.valid cs)) otherwise = .valid (.branch cs e) := by
  have hcases : atLeastOne (.valid cs) = .valid cs := if_neg (mt List.isEmpty_iff.1 hne)
  refine Checked.also_eq_valid.2 ⟨?_, hextras⟩
  dsimp only
  rw [StepKind.stated_of_type type, hcases]
  rcases helse with ⟨rfl, rfl⟩ | rfl <;> rfl

theorem ne_nil_of_denotesCases (h : DenotesCases n vs cs) (hne : vs ≠ []) : cs ≠ [] := by
  cases h with
  | nil => exact absurd rfl hne
  | cons => exact List.cons_ne_nil _ _

mutual

theorem read_of_denotes (h : Denotes n v s) : read v = .valid s := by
  match h with
  | .trigger keys type path signed =>
    rw [read_flat_iff (k := .trigger) type (by simp)]
    refine Checked.also_eq_valid.2 ⟨?_, keys.extras rfl⟩
    dsimp only
    rw [StepKind.stated_of_type type, Slot.required_of_get? path, Slot.required_of_get? signed]
    rfl
  | .filter keys type condition denotes =>
    rw [read_flat_iff (k := .filter) type (by simp)]
    refine Checked.also_eq_valid.2 ⟨?_, keys.extras rfl⟩
    dsimp only
    rw [StepKind.stated_of_type type, Slot.required_of_get? condition,
      Condition.read_of_denotes denotes]
    rfl
  | .branch keys type cases nonempty denotes otherwise =>
    -- The name that the program knows the else by is no key of the grammar.
    have habsent : Table.get? _ "else_" = none := keys.get?_eq_none (by decide)
    simp only [read, StepKind.ofMembers_of_type (k := .branch) type, if_true, casesIn_eq, elseIn_eq,
      cases, habsent, Option.map_some, Option.map_none, Option.or_none, readCases,
      readCaseItems_of_denotes denotes]
    apply Checked.under_valid.2
    exact branchOfParts_of_valid type (ne_nil_of_denotesCases denotes nonempty)
      (readElse_of_denotes otherwise) (keys.extras rfl)
  | .slack keys type channel text =>
    rw [read_flat_iff (k := .slack) type (by simp)]
    refine Checked.also_eq_valid.2 ⟨?_, keys.extras rfl⟩
    dsimp only
    rw [StepKind.stated_of_type type, Slot.required_of_get? channel, Slot.required_of_get? text]
    rfl
  | .request keys type method known url headers body =>
    rw [read_flat_iff (k := .request) type (by simp)]
    refine Checked.also_eq_valid.2 ⟨?_, keys.extras rfl⟩
    dsimp only
    rw [StepKind.stated_of_type type, Slot.required_of_get? method, Slot.required_of_get? url,
      Slot.member_of_denotes headers, Slot.member_of_denotes body, Method.read]
    simp only [known]
    rfl
  | .action keys type slug input =>
    rw [read_flat_iff (k := .action) type (by simp)]
    refine Checked.also_eq_valid.2 ⟨?_, keys.extras rfl⟩
    dsimp only
    rw [StepKind.stated_of_type type, Slot.required_of_get? slug, Slot.member_of_denotes input]
    rfl

theorem readItems_of_denotes (h : DenotesSteps n vs ss) : readItems i vs = .valid ss := by
  match h with
  | .nil => rfl
  | .cons first rest =>
    rw [readItems, read_of_denotes first, readItems_of_denotes rest]
    rfl

theorem readCase_of_denotes (h : DenotesCase n v c) : readCase v = .valid c := by
  match h with
  | .mk keys condition denotes steps denotesSteps =>
    rw [readCase, stepsIn_eq, steps]
    refine Checked.also_eq_valid.2 ⟨?_, keys.extras rfl⟩
    rw [Slot.required_of_get? condition, Condition.read_of_denotes denotes]
    simp only [Option.map_some, readList, readItems_of_denotes denotesSteps]
    rfl

theorem readCaseItems_of_denotes (h : DenotesCases n vs cs) : readCaseItems i vs = .valid cs := by
  match h with
  | .nil => rfl
  | .cons first rest =>
    rw [readCaseItems, readCase_of_denotes first, readCaseItems_of_denotes rest]
    rfl

theorem readElse_of_denotes (h : DenotesElse n m e) :
    (m.map readElse).map ("else", ·) = none ∧ e = .absent ∨
      (m.map readElse).map ("else", ·) = some ("else", .valid e) := by
  match h with
  | .absent => exact .inl ⟨rfl, rfl⟩
  | .null => exact .inr rfl
  | .given steps =>
    right
    rw [Option.map_some, Option.map_some, readElse, readItems_of_denotes steps]
    rfl

end

end Step

namespace Plan

theorem readSteps_of_denotes (h : DenotesSteps n vs ss) (hne : vs ≠ []) (hmost : vs.length ≤ maxSteps) :
    readSteps (.arr vs) = .valid ss := by
  have hss : ss ≠ [] := by
    cases h with
    | nil => exact absurd rfl hne
    | cons => exact List.cons_ne_nil _ _
  rw [readSteps, if_neg (Nat.not_lt.2 hmost), Step.readItems_of_denotes h]
  exact if_neg (mt List.isEmpty_iff.1 hss)

/-- A document is read as the plan that it stands for. -/
theorem read_of_denotes (h : DenotesPlan n v p) : read v = .valid p := by
  obtain ⟨keys, version, name, named, short, steps, nonempty, few, denotes⟩ := h
  have hname : sizedString 1 maxNameLength _ = .valid _ :=
    sizedString_eq_valid.2 ⟨rfl, named, short⟩
  refine Checked.also_eq_valid.2 ⟨?_, keys.extras rfl⟩
  rw [ofMembers, Slot.withDefault_of_get? version, Slot.required_of_get? name,
    Slot.required_of_get? steps, readSteps_of_denotes denotes nonempty few, literal_self, hname]
  rfl

end Plan

end Flowplan
