import Flowplan.Proofs.DocumentRecognition

namespace Flowplan.Plan
set_option autoImplicit true

open Flowplan.Json Flowplan.Schema

/-- A member whose value is a text. -/
def textField (key : String) : Field := ⟨key, Document.typed "string", fun v => ∃ s, v = .str s⟩

def flagField (key : String) : Field := ⟨key, Document.typed "boolean", fun v => ∃ b, v = .bool b⟩

/-- A member whose value is an object or null. -/
def objectField (key : String) : Field :=
  ⟨key, Document.openObject, fun v => v = .null ∨ ∃ o, v = .obj o⟩

def choiceField (key : String) (names : List String) : Field :=
  ⟨key, Document.chosen names, fun v => ∃ name ∈ names, v = .str name⟩

def constantField (key value : String) : Field :=
  ⟨key, .obj [("type", .str "string"), ("const", .str value)], fun v => v = .str value⟩

def operatorField : Field := choiceField "op" ["contains", "equals", "gt", "lt", "regex"]

def conditionFields : List Field :=
  [textField "field", operatorField, ⟨"value", .obj [], fun _ => True⟩]

def conditionField : Field := ⟨"when", Document.reference "condition", IsCondition⟩

def stepsField : Field :=
  ⟨"steps", Document.sequence, fun v => ∃ vs, v = .arr vs ∧ ∀ w ∈ vs, IsStep w⟩

def caseFields : List Field := [conditionField, stepsField]

def casesField : Field :=
  ⟨"cases", .obj [("type", .str "array"), ("items", Document.reference "branchCase"),
      ("minItems", .int 1)],
    fun v => ∃ vs, v = .arr vs ∧ (∀ w ∈ vs, IsCase w) ∧ vs ≠ []⟩

def elseField : Field :=
  ⟨"else", .obj [("type", Document.strings ["array", "null"]),
      ("items", Document.reference "step")],
    fun v => v = .null ∨ ∃ vs, v = .arr vs ∧ ∀ w ∈ vs, IsStep w⟩

def methodField : Field := choiceField "method" ["GET", "POST", "PUT", "DELETE"]

/-- The members of each type of step besides its type. -/
def ownFields : StepKind → List Field
  | .trigger => [textField "path", flagField "secretHmac"]
  | .filter => [conditionField]
  | .branch => [casesField, elseField]
  | .slack => [textField "channel", textField "text"]
  | .request => [methodField, textField "url", objectField "headers", objectField "body"]
  | .action => [textField "actionSlug", objectField "input"]

def stepFields (k : StepKind) : List Field := constantField "type" k.name :: ownFields k

def neededKeys (k : StepKind) : List String := "type" :: (Document.members k).2

def nameField : Field :=
  ⟨"name", .obj [("type", .str "string"), ("minLength", .int 1), ("maxLength", .int 100)],
    fun v => ∃ s, v = .str s ∧ 1 ≤ s.length ∧ s.length ≤ 100⟩

def planStepsField : Field :=
  ⟨"steps", .obj [("type", .str "array"), ("items", Document.reference "step"),
      ("minItems", .int 1), ("maxItems", .int 50)],
    fun v => ∃ vs, v = .arr vs ∧ (∀ w ∈ vs, IsStep w) ∧ 1 ≤ vs.length ∧ vs.length ≤ 50⟩

def planFields : List Field := [constantField "version" "1", nameField, planStepsField]

theorem variant_eq (k : StepKind) : Document.variant k =
    Document.closed ((stepFields k).map fun f => (f.key, f.part)) (neededKeys k) := by
  cases k <;> rfl

namespace HasFields

variable {fields : List Field} {needed : List String} {o : Object}

theorem exists_obj (h : HasFields fields needed v) : ∃ o, v = .obj o := by
  obtain ⟨o, rfl, -⟩ := h
  exact ⟨o, rfl⟩

/-- A member that is needed is there, with a value that its field asks for. -/
theorem exists_get? (h : HasFields fields needed (.obj o)) (f : Field) (hf : f ∈ fields)
    (hk : f.key ∈ needed) : ∃ v, Table.get? o f.key = some v ∧ f.Holds v := by
  obtain ⟨_, he, hneeded, -, hholds⟩ := h
  obtain rfl := Json.obj.inj he
  obtain ⟨v, hv⟩ := Table.mem_keys_iff_get?.1 (hneeded _ hk)
  exact ⟨v, hv, hholds f hf v hv⟩

theorem holds (h : HasFields fields needed (.obj o)) (f : Field) (hf : f ∈ fields)
    (hv : Table.get? o f.key = some v) : f.Holds v := by
  obtain ⟨_, he, -, -, hholds⟩ := h
  obtain rfl := Json.obj.inj he
  exact hholds f hf v hv

theorem hasKeys {required optional : List String} (h : HasFields fields required (.obj o))
    (hf : fields.map Field.key = required ++ optional) : HasKeys required optional o := by
  obtain ⟨_, he, hneeded, honly, -⟩ := h
  obtain rfl := Json.obj.inj he
  exact ⟨hneeded, hf ▸ honly⟩

theorem ofHasKeys {required optional : List String} (keys : HasKeys required optional o)
    (hf : fields.map Field.key = required ++ optional) (h : Fits o fields) :
    HasFields fields required (.obj o) :=
  ⟨o, rfl, keys.all, hf ▸ keys.only, h⟩

end HasFields

theorem isCondition_iff : IsCondition v ↔ HasFields conditionFields ["field", "op", "value"] v := by
  constructor
  · rintro ⟨keys, field, op, known⟩
    apply HasFields.ofHasKeys keys rfl
    exact .consOf field ⟨_, rfl⟩ <| .consOf op ⟨_, known, rfl⟩ <| .cons (fun _ _ => trivial) .nil
  · intro h
    obtain ⟨o, rfl⟩ := h.exists_obj
    obtain ⟨_, field, s, rfl⟩ := h.exists_get? (textField "field")
      (by simp [conditionFields]) (by simp [textField])
    obtain ⟨_, op, name, known, rfl⟩ := h.exists_get? operatorField
      (by simp [conditionFields]) (by simp [operatorField, choiceField])
    exact ⟨h.hasKeys rfl, field, op, known⟩

theorem isCase_iff : IsCase v ↔ HasFields caseFields ["when", "steps"] v := by
  constructor
  · rintro ⟨keys, condition, isCondition, steps, areSteps⟩
    apply HasFields.ofHasKeys keys rfl
    exact .consOf condition isCondition <| .consOf steps ⟨_, rfl, areSteps⟩ .nil
  · intro h
    obtain ⟨o, rfl⟩ := h.exists_obj
    obtain ⟨_, condition, isCondition⟩ := h.exists_get? conditionField
      (by simp [caseFields]) (by simp [conditionField])
    obtain ⟨_, steps, ss, rfl, areSteps⟩ := h.exists_get? stepsField
      (by simp [caseFields]) (by simp [stepsField])
    exact ⟨h.hasKeys rfl, condition, isCondition, steps, areSteps⟩

theorem isPlan_iff : IsPlan v ↔ HasFields planFields ["version", "name", "steps"] v := by
  constructor
  · rintro ⟨keys, version, name, named, short, steps, nonempty, few, areSteps⟩
    apply HasFields.ofHasKeys keys rfl
    exact .consOf version rfl <| .consOf name ⟨_, rfl, named, short⟩ <|
      .consOf steps ⟨_, rfl, areSteps, nonempty, few⟩ .nil
  · intro h
    obtain ⟨o, rfl⟩ := h.exists_obj
    obtain ⟨_, version, rfl⟩ := h.exists_get? (constantField "version" "1")
      (by simp [planFields]) (by simp [constantField])
    obtain ⟨_, name, s, rfl, named, short⟩ := h.exists_get? nameField
      (by simp [planFields]) (by simp [nameField])
    obtain ⟨_, steps, ss, rfl, areSteps, nonempty, few⟩ := h.exists_get? planStepsField
      (by simp [planFields]) (by simp [planStepsField])
    exact ⟨h.hasKeys rfl, version, name, named, short, steps, nonempty, few, areSteps⟩

theorem isOptionalObject_iff {m : Option Json} :
    IsOptionalObject m ↔ ∀ v, m = some v → v = .null ∨ ∃ o, v = .obj o := by
  constructor
  · rintro (_ | _ | _) v hv
    · simp at hv
    · exact .inl (Option.some.inj hv).symm
    · exact .inr ⟨_, (Option.some.inj hv).symm⟩
  · intro h
    cases m with
    | none => exact .absent
    | some v =>
      rcases h v rfl with rfl | ⟨o, rfl⟩
      · exact .null
      · exact .given

theorem isElse_iff {m : Option Json} :
    IsElse m ↔ ∀ v, m = some v → v = .null ∨ ∃ vs, v = .arr vs ∧ ∀ w ∈ vs, IsStep w := by
  constructor
  · intro h v hv
    cases h with
    | absent => simp at hv
    | null => exact .inl (Option.some.inj hv).symm
    | given areSteps => exact .inr ⟨_, (Option.some.inj hv).symm, areSteps⟩
  · intro h
    cases m with
    | none => exact .absent
    | some v =>
      rcases h v rfl with rfl | ⟨vs, rfl, areSteps⟩
      · exact .null
      · exact .given areSteps

theorem exists_fields (h : IsStep v) : ∃ k, HasFields (stepFields k) (neededKeys k) v := by
  cases h with
  | trigger keys type path signed =>
    refine ⟨.trigger, .ofHasKeys keys rfl ?_⟩
    exact .consOf type rfl <| .consOf path ⟨_, rfl⟩ <| .consOf signed ⟨_, rfl⟩ .nil
  | filter keys type condition isCondition =>
    refine ⟨.filter, .ofHasKeys keys rfl ?_⟩
    exact .consOf type rfl <| .consOf condition isCondition .nil
  | branch keys type cases nonempty areCases otherwise =>
    refine ⟨.branch, .ofHasKeys keys rfl ?_⟩
    exact .consOf type rfl <| .consOf cases ⟨_, rfl, areCases, nonempty⟩ <|
      .cons (isElse_iff.1 otherwise) .nil
  | slack keys type channel text =>
    refine ⟨.slack, .ofHasKeys keys rfl ?_⟩
    exact .consOf type rfl <| .consOf channel ⟨_, rfl⟩ <| .consOf text ⟨_, rfl⟩ .nil
  | request keys type method known url headers body =>
    refine ⟨.request, .ofHasKeys keys rfl ?_⟩
    exact .consOf type rfl <| .consOf method ⟨_, known, rfl⟩ <| .consOf url ⟨_, rfl⟩ <|
      .cons (isOptionalObject_iff.1 headers) <| .cons (isOptionalObject_iff.1 body) .nil
  | action keys type slug input =>
    refine ⟨.action, .ofHasKeys keys rfl ?_⟩
    exact .consOf type rfl <| .consOf slug ⟨_, rfl⟩ <| .cons (isOptionalObject_iff.1 input) .nil

theorem isStep_of_fields (k : StepKind) (h : HasFields (stepFields k) (neededKeys k) v) :
    IsStep v := by
  obtain ⟨o, rfl⟩ := h.exists_obj
  obtain ⟨_, type, rfl⟩ := h.exists_get? (constantField "type" k.name)
    List.mem_cons_self List.mem_cons_self
  cases k with
  | trigger =>
    obtain ⟨_, path, s, rfl⟩ := h.exists_get? (textField "path")
      (by simp [stepFields, ownFields]) (by simp [neededKeys, Document.members, textField])
    obtain ⟨_, signed, b, rfl⟩ := h.exists_get? (flagField "secretHmac")
      (by simp [stepFields, ownFields]) (by simp [neededKeys, Document.members, flagField])
    exact .trigger (h.hasKeys rfl) type path signed
  | filter =>
    obtain ⟨_, condition, isCondition⟩ := h.exists_get? conditionField
      (by simp [stepFields, ownFields]) (by simp [neededKeys, Document.members, conditionField])
    exact .filter (h.hasKeys rfl) type condition isCondition
  | branch =>
    obtain ⟨_, cases, cs, rfl, areCases, nonempty⟩ := h.exists_get? casesField
      (by simp [stepFields, ownFields]) (by simp [neededKeys, Document.members, casesField])
    have otherwise := isElse_iff.2 fun w => h.holds (v := w) elseField
      (by simp [stepFields, ownFields])
    exact .branch (h.hasKeys rfl) type cases nonempty areCases otherwise
  | slack =>
    obtain ⟨_, channel, s, rfl⟩ := h.exists_get? (textField "channel")
      (by simp [stepFields, ownFields]) (by simp [neededKeys, Document.members, textField])
    obtain ⟨_, text, t, rfl⟩ := h.exists_get? (textField "text")
      (by simp [stepFields, ownFields]) (by simp [neededKeys, Document.members, textField])
    exact .slack (h.hasKeys rfl) type channel text
  | request =>
    obtain ⟨_, method, m, known, rfl⟩ := h.exists_get? methodField
      (by simp [stepFields, ownFields])
      (by simp [neededKeys, Document.members, methodField, choiceField])
    obtain ⟨_, url, s, rfl⟩ := h.exists_get? (textField "url")
      (by simp [stepFields, ownFields]) (by simp [neededKeys, Document.members, textField])
    have headers := isOptionalObject_iff.2 fun w => h.holds (v := w) (objectField "headers")
      (by simp [stepFields, ownFields])
    have body := isOptionalObject_iff.2 fun w => h.holds (v := w) (objectField "body")
      (by simp [stepFields, ownFields])
    exact .request (h.hasKeys rfl) type method known url headers body
  | action =>
    obtain ⟨_, slug, s, rfl⟩ := h.exists_get? (textField "actionSlug")
      (by simp [stepFields, ownFields]) (by simp [neededKeys, Document.members, textField])
    have input := isOptionalObject_iff.2 fun w => h.holds (v := w) (objectField "input")
      (by simp [stepFields, ownFields])
    exact .action (h.hasKeys rfl) type slug input

end Flowplan.Plan
