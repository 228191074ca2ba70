import Mathlib.Data.List.Forall2
import Flowplan.Proofs.SchemaReports

/-!
The schema of plan documents reports, part by part, what the direct way through a document finds.
-/

namespace Flowplan.Plan
set_option autoImplicit true

open Flowplan.Json Flowplan.Schema

namespace Flaw

variable {c c' : Check} {place : Locator}

/-- With some budget, a part of the schema of plan documents reports what a check finds. -/
def Tells (budget : Nat) (part : Json) (c : Check) : Prop :=
  ∀ place v, Reports (check schema budget part place v) (c place v)

def inItems (c : Check) : Check := fun place v =>
  (indexed 0 (items v)).flatMap fun e => c (place ++ [.index e.1]) e.2

/-- An object with all of the needed members and no others than the entries. -/
def inObject (entries : List Entry) (needed : List String) : Check := fun place v =>
  match v with
  | .obj o => inEntries entries place o ++
    (missing needed place o ++ unexpected (entries.map Entry.key) place o)
  | _ => [⟨place, .type ["object"]⟩]

namespace Tells

theorem congr (h : Tells n part c) (hc : ∀ place v, c place v = c' place v) :
    Tells n part c' := by
  intro place v
  rw [← hc]
  exact h place v

theorem ofKeywords {keywords : Object}
    (h : ∀ m < n, ∀ place v, Told (resolve schema) (check schema m) ⟨keywords, place, v⟩
      keywords (c place v)) : Tells n (.obj keywords) c := by
  intro place v
  cases n with
  | zero => exact .tooDeep
  | succ m => exact h m (Nat.lt_succ_self m) place v

theorem anything : Tells n (.obj []) fun _ _ => [] := ofKeywords fun _ _ _ _ => .nil

theorem typed (h : typeNames.contains t = true) : Tells n (Document.typed t) (Flaw.typed [t]) :=
  ofKeywords fun _ _ _ _ => .last (reports_type_one h)

theorem constant (text : String) :
    Tells n (.obj [("type", .str "string"), ("const", .str text)]) (Flaw.constant text) :=
  ofKeywords fun _ _ _ _ => .cons (reports_type_one rfl) (.last (reports_const text))

theorem choice (names : List String) : Tells n (Document.chosen names) (Flaw.choice names) :=
  ofKeywords fun _ _ _ _ => .cons (reports_type_one rfl) (.last (reports_enum names))

theorem openObject : Tells n Document.openObject Flaw.openObject := by
  apply ofKeywords
  intro m _ place v
  have htypes : ∀ t ∈ ["object", "null"], typeNames.contains t = true := by decide
  rw [← List.append_nil (Flaw.openObject place v)]
  exact .cons (reports_type htypes) (.last reports_additional_open)

theorem sized (least most : Nat) :
    Tells n (.obj [("type", .str "string"), ("minLength", .int least), ("maxLength", .int most)])
      (Flaw.sized least most) := by
  apply ofKeywords
  intro m _ place v
  rw [Flaw.sized, List.append_assoc]
  exact .cons (reports_type_one rfl) <|
    .cons (reports_minLength least) (.last (reports_maxLength most))

theorem reference {target : String} (ht : resolve schema ("#/$defs/" ++ target) = some part)
    (h : ∀ m < n, Tells m part c) : Tells n (Document.reference target) c :=
  ofKeywords fun m hm place v => .last (reports_ref ht (h m hm place v))

theorem inObject_eq (entries : List Entry) (needed : List String) (place : Locator) (v : Json) :
    inObject entries needed place v = Flaw.typed ["object"] place v ++
      (inEntries entries place (members v) ++ ((match v with
        | .obj o => missing needed place o
        | _ => []) ++ unexpected (entries.map Entry.key) place (members v))) := by
  have hnone : inEntries entries place [] = [] := by
    rw [inEntries, List.flatMap_eq_nil_iff]
    intro e _
    rfl
  cases v with
  | obj o => rfl
  | _ =>
    simp only [members, hnone]
    rfl

theorem closed (entries : List Entry) {needed : List String} (hnamed : Named needed)
    (h : ∀ e ∈ entries, ∀ m < n, Tells m e.part e.flaws) :
    Tells n (Document.closed (entries.map fun e => (e.key, e.part)) needed)
      (inObject entries needed) := by
  apply ofKeywords
  intro m hm place v
  have hkeys : Table.keys (entries.map fun e => (e.key, e.part)) = entries.map Entry.key :=
    List.map_map
  rw [inObject_eq, ← hkeys]
  exact .cons (reports_type_one rfl) <|
    .cons (reports_properties fun e he w => h e he m hm _ w) <|
    .cons (reports_required hnamed) <| .last (reports_additional rfl)

theorem elements {s : Schema.Site} {target : String}
    (hfixed : Table.get? s.schema "prefixItems" = none)
    (h : Tells m (Document.reference target) c) :
    Reports (applyKeyword (resolve schema) (check schema m) s "items" (Document.reference target))
      (inItems c s.place s.subject) := reports_items hfixed h

theorem sequence {target : String} (h : ∀ m < n, Tells m (Document.reference target) c) :
    Tells n (.obj [("type", .str "array"), ("items", Document.reference target)]) fun place v =>
      Flaw.typed ["array"] place v ++ inItems c place v :=
  ofKeywords fun m hm _ _ => .cons (reports_type_one rfl) (.last (elements rfl (h m hm)))

theorem sequenceOrNull {target : String} (h : ∀ m < n, Tells m (Document.reference target) c) :
    Tells n (.obj [("type", Document.strings ["array", "null"]),
      ("items", Document.reference target)]) fun place v =>
        Flaw.typed ["array", "null"] place v ++ inItems c place v := by
  apply ofKeywords
  intro m hm place v
  have htypes : ∀ t ∈ ["array", "null"], typeNames.contains t = true := by decide
  exact .cons (reports_type htypes) (.last (elements rfl (h m hm)))

theorem nonempty {target : String} (h : ∀ m < n, Tells m (Document.reference target) c) :
    Tells n (.obj [("type", .str "array"), ("items", Document.reference target),
      ("minItems", .int 1)]) fun place v => Flaw.typed ["array"] place v ++ (inItems c place v ++
        flawIf ((itemCount? v).any (· < 1)) place (.fewItems 1)) :=
  ofKeywords fun m hm _ _ => .cons (reports_type_one rfl) <|
    .cons (elements rfl (h m hm)) (.last (reports_minItems 1))

theorem bounded {target : String} (most : Nat)
    (h : ∀ m < n, Tells m (Document.reference target) c) :
    Tells n (.obj [("type", .str "array"), ("items", Document.reference target),
      ("minItems", .int 1), ("maxItems", .int most)]) fun place v =>
        Flaw.typed ["array"] place v ++ (inItems c place v ++
          (flawIf ((itemCount? v).any (· < 1)) place (.fewItems 1) ++
            flawIf ((itemCount? v).any (most < ·)) place (.manyItems most))) :=
  ofKeywords fun m hm _ _ => .cons (reports_type_one rfl) <|
    .cons (elements rfl (h m hm)) <| .cons (reports_minItems 1) (.last (reports_maxItems most))

end Tells

theorem ofSteps_eq (place : Locator) (v : Json) :
    ofSteps place v = typed ["array"] place v ++ inItems ofStep place v := by
  cases v with
  | arr vs =>
    rw [ofSteps, ofItems_eq]
    rfl
  | _ => rfl

theorem ofElse_eq (place : Locator) (v : Json) :
    ofElse place v = typed ["array", "null"] place v ++ inItems ofStep place v := by
  cases v with
  | arr vs =>
    rw [ofElse, ofItems_eq]
    rfl
  | _ => rfl

theorem ofCases_eq (place : Locator) (v : Json) :
    ofCases place v = typed ["array"] place v ++ (inItems ofCase place v ++
      flawIf ((itemCount? v).any (· < 1)) place (.fewItems 1)) := by
  cases v with
  | arr vs =>
    rw [ofCases, ofCaseItems_eq]
    rfl
  | _ => rfl

theorem ofPlanSteps_eq (place : Locator) (v : Json) :
    ofPlanSteps place v = typed ["array"] place v ++ (inItems ofStep place v ++
      (flawIf ((itemCount? v).any (· < 1)) place (.fewItems 1) ++
        flawIf ((itemCount? v).any (50 < ·)) place (.manyItems 50))) := by
  cases v with
  | arr vs =>
    rw [ofPlanSteps, ofItems_eq, List.append_assoc]
    rfl
  | _ => rfl

def textEntry (key : String) : Entry := ⟨key, Document.typed "string", typed ["string"]⟩

def objectEntry (key : String) : Entry := ⟨key, Document.openObject, openObject⟩

def choiceEntry (key : String) (names : List String) : Entry :=
  ⟨key, Document.chosen names, choice names⟩

def constantEntry (key text : String) : Entry :=
  ⟨key, .obj [("type", .str "string"), ("const", .str text)], constant text⟩

def conditionEntries : List Entry := [textEntry "field",
  choiceEntry "op" ["contains", "equals", "gt", "lt", "regex"], ⟨"value", .obj [], fun _ _ => []⟩]

def conditionEntry : Entry := ⟨"when", Document.reference "condition", ofCondition⟩

def caseEntries : List Entry := [conditionEntry, ⟨"steps", Document.sequence, ofSteps⟩]

def casesEntry : Entry := ⟨"cases", .obj [("type", .str "array"),
  ("items", Document.reference "branchCase"), ("minItems", .int 1)], ofCases⟩

def elseEntry : Entry := ⟨"else", .obj [("type", Document.strings ["array", "null"]),
  ("items", Document.reference "step")], ofElse⟩

/-- The members of each type of step besides its type. -/
def ownEntries : StepKind → List Entry
  | .trigger => [textEntry "path",
    ⟨"secretHmac", Document.typed "boolean", typed ["boolean"]⟩]
  | .filter => [conditionEntry]
  | .branch => [casesEntry, elseEntry]
  | .slack => [textEntry "channel", textEntry "text"]
  | .request => [choiceEntry "method" ["GET", "POST", "PUT", "DELETE"], textEntry "url",
    objectEntry "headers", objectEntry "body"]
  | .action => [textEntry "actionSlug", objectEntry "input"]

def stepEntries (k : StepKind) : List Entry := constantEntry "type" k.name :: ownEntries k

def planEntries : List Entry := [constantEntry "version" "1",
  ⟨"name", .obj [("type", .str "string"), ("minLength", .int 1), ("maxLength", .int 100)],
    sized 1 100⟩,
  ⟨"steps", .obj [("type", .str "array"), ("items", Document.reference "step"),
    ("minItems", .int 1), ("maxItems", .int 50)], ofPlanSteps⟩]

/-- What is wrong with a value as a step of one type, whatever type it states. -/
def ofVariant (k : StepKind) : Check := inObject (stepEntries k) (needed k)

theorem ofCondition_eq (place : Locator) (v : Json) :
    ofCondition place v = inObject conditionEntries ["field", "op", "value"] place v := by
  cases v with
  | obj o =>
    have hvalue : inMember "value" (fun _ _ => []) place o = [] := by
      unfold inMember
      split <;> rfl
    simp [ofCondition, inObject, inEntries, conditionEntries, textEntry, choiceEntry, hvalue,
      inKeys]
  | _ => rfl

theorem ofCase_eq (place : Locator) (v : Json) :
    ofCase place v = inObject caseEntries ["when", "steps"] place v := by
  cases v with
  | obj o =>
    rw [ofCase, stepsIn_eq]
    simp [inObject, inEntries, caseEntries, conditionEntry, inKeys]
  | _ => rfl

theorem ofPlan_eq (v : Json) :
    ofPlan v = inObject planEntries ["version", "name", "steps"] [] v := by
  cases v with
  | obj o => simp [ofPlan, inObject, inEntries, planEntries, constantEntry, inKeys]
  | _ => rfl

theorem statedKind?_eq_some {o : Object} :
    statedKind? o = some k ↔ Table.get? o "type" = some (.str k.name) := by
  unfold statedKind?
  split
  · rename_i t ht
    rw [ht, Option.some.injEq, Json.str.injEq]
    constructor
    · intro h
      have hname := List.find?_some (p := fun k : StepKind => k.name == t) h
      exact (beq_iff_eq.1 hname).symm
    · rintro rfl
      exact StepKind.ofName?_name k
  · rename_i hother
    refine iff_of_false nofun ?_
    intro h
    exact hother _ h

theorem constant_self (text : String) (place : Locator) : constant text place (.str text) = [] := by
  simp [constant, typed, flawIf, hasType, string?]

/-- A step is looked at as the type that it states asks for. -/
theorem ofStep_known {o : Object} (h : statedKind? o = some k) (place : Locator) :
    ofStep place (.obj o) = ofVariant k place (.obj o) := by
  have htype : inMember "type" (constant k.name) place o = [] := by
    rw [inMember, statedKind?_eq_some.1 h]
    exact constant_self k.name _
  rw [ofStep, h]
  simp only [casesIn_eq, elseIn_eq]
  rw [ofVariant, inObject, inEntries, stepEntries, List.flatMap_cons, constantEntry, htype]
  cases k <;> simp [inStep, ownEntries, inKeys, needed, optional, textEntry, objectEntry,
    choiceEntry, conditionEntry, casesEntry, elseEntry]

theorem ofStep_unknown (h : kind? v = none) (place : Locator) :
    ofStep place v = [⟨place, .variant⟩] := by
  cases v with
  | obj o =>
    have hstated : statedKind? o = none := h
    rw [ofStep, hstated]
  | _ => rfl

/-- Something is wrong with a value as a step of a type that it does not state. -/
theorem kind?_of_ofVariant (h : ofVariant k place v = []) :
    kind? v = some k := by
  cases v with
  | obj o =>
    rw [ofVariant, inObject, List.append_eq_nil_iff, List.append_eq_nil_iff] at h
    obtain ⟨hentries, hmissing, -⟩ := h
    have hkey : Table.has o "type" = true := by
      rw [missing, List.map_eq_nil_iff, List.filter_eq_nil_iff] at hmissing
      have hneeded : "type" ∈ needed k := by cases k <;> exact List.mem_cons_self
      simpa using hmissing "type" hneeded
    obtain ⟨w, hw⟩ := Table.mem_keys_iff_get?.1 (Table.has_iff_mem_keys.1 hkey)
    rw [inEntries, stepEntries, List.flatMap_cons, List.append_eq_nil_iff] at hentries
    have htype : inMember "type" (constant k.name) place o = [] := hentries.1
    rw [inMember, hw] at htype
    have hname : string? w = some k.name := by
      have hconstant := (List.append_eq_nil_iff.1 htype).2
      simpa [flawIf] using hconstant
    cases w with
    | str t =>
      obtain rfl : t = k.name := Option.some.inj hname
      exact statedKind?_eq_some.2 hw
    | _ => cases hname
  | _ => exact absurd h (List.cons_ne_nil _ _)

/-- The alternatives of a choice of which none holds are what is found in each of them. -/
theorem firstValid_alternatives {descend : Descent} {s : Schema.Site} {schemas : List Json}
    {acc : List (List Violation)}
    (h : applyOneOf.firstValid s descend schemas acc = .ok (.inl alternatives)) :
    ∃ founds, alternatives = acc.reverse ++ founds ∧
      List.Forall₂ (fun part found => descend part s.place s.subject = .ok found) schemas
        founds := by
  induction schemas generalizing acc with
  | nil =>
    rw [applyOneOf.firstValid] at h
    obtain rfl := Sum.inl.inj (Except.ok.inj h)
    exact ⟨[], (List.append_nil _).symm, .nil⟩
  | cons part rest ih =>
    rw [applyOneOf.firstValid] at h
    cases hd : descend part s.place s.subject with
    | error e => simp [hd, bind, Except.bind] at h
    | ok found =>
      cases found with
      | nil => simp [hd, bind, Except.bind] at h
      | cons w ws =>
        simp only [hd, bind, Except.bind, List.isEmpty_cons, Bool.false_eq_true, if_false] at h
        obtain ⟨founds, rfl, hfounds⟩ := ih h
        refine ⟨(w :: ws) :: founds, ?_, .cons hd hfounds⟩
        rw [List.reverse_cons, List.append_assoc, List.singleton_append]

theorem expandAt_of_forall₂ {R : κ → List Violation → Prop} (h : List.Forall₂ R ks founds)
    (hk : ks[i]? = some k) :
    ∃ found, R k found ∧ expandAt names founds i = expandList names found := by
  induction h generalizing i with
  | nil => exact nomatch hk
  | @cons j found rest others hj _ ih =>
    cases i with
    | zero =>
      obtain rfl := Option.some.inj hk
      exact ⟨found, hj, by rw [expandAt]⟩
    | succ i =>
      obtain ⟨found', hfound', he⟩ := ih hk
      exact ⟨found', hfound', by rw [expandAt, he]⟩

theorem knownVariant?_eq_none (h : kind? v = none) : knownVariant? StepKind.names v = none := by
  cases v with
  | obj o =>
    unfold knownVariant?
    dsimp only
    split
    · rename_i t ht
      rw [List.idxOf?_eq_none_iff]
      intro hmem
      obtain ⟨k, -, rfl⟩ := List.mem_map.1 hmem
      have hstated : statedKind? o = some k := statedKind?_eq_some.2 ht
      exact nomatch hstated.symm.trans h
    · rfl
  | _ => rfl

/-- The variant of a step is looked up by the place of its type among the variants. -/
theorem knownVariant?_eq_some (h : kind? v = some k) :
    ∃ i, knownVariant? StepKind.names v = some i ∧ StepKind.all[i]? = some k := by
  cases v with
  | obj o =>
    have htype := statedKind?_eq_some.1 h
    have hindex : ∃ i, StepKind.names.idxOf? k.name = some i ∧ StepKind.all[i]? = some k := by
      cases k <;> exact ⟨_, rfl, rfl⟩
    obtain ⟨i, hi, hk⟩ := hindex
    refine ⟨i, ?_, hk⟩
    unfold knownVariant?
    simp only [htype, hi]
  | _ => exact nomatch h

/-- What an alternative of a choice reports, where the choice is between variants of steps. -/
def Reported (n : Nat) (place : Locator) (v : Json) (k : StepKind) (found : List Violation) :
    Prop :=
  check schema n (Document.variant k) place v = .ok found ∧ Shown found (ofVariant k place v)

theorem forall₂_reported {founds : List (List Violation)}
    (h : List.Forall₂ (fun part found => check schema n part place v = .ok found)
      (ks.map Document.variant) founds)
    (hvariant : ∀ k ∈ ks, Reports (check schema n (Document.variant k) place v)
      (ofVariant k place v)) : List.Forall₂ (Reported n place v) ks founds := by
  induction ks generalizing founds with
  | nil =>
    cases h
    exact .nil
  | cons k rest ih =>
    cases h with
    | cons hfound hfounds =>
      refine .cons ⟨hfound, ?_⟩ (ih hfounds fun j hj => hvariant j (List.mem_cons_of_mem _ hj))
      rcases hvariant k List.mem_cons_self with hdeep | ⟨_, hok, hshown⟩
      · exact nomatch hfound.symm.trans hdeep
      · obtain rfl := Except.ok.inj (hfound.symm.trans hok)
        exact hshown

/-- The violation of a choice between the variants of steps comes to what is wrong with the step. -/
theorem shown_choice {founds : List (List Violation)} {rule : Json} {message : String}
    (h : List.Forall₂ (Reported n place v) StepKind.all founds)
    (hbroken : ∀ k ∈ StepKind.all, ofVariant k place v ≠ []) :
    Shown [⟨place, some "oneOf", rule, v, message, founds⟩] (ofStep place v) := by
  rw [Shown, expandList, expandList, List.append_nil, Violation.expand, if_pos rfl]
  cases hkind : kind? v with
  | none =>
    rw [knownVariant?_eq_none hkind, ofStep_unknown hkind]
    rfl
  | some k =>
    obtain ⟨i, hi, hk⟩ := knownVariant?_eq_some hkind
    obtain ⟨found, ⟨-, hshown⟩, hexpand⟩ := expandAt_of_forall₂ h hk
    have hne : expandList StepKind.names found ≠ [] := by
      rw [Ne, expandList_eq_nil_iff, hshown.eq_nil_iff]
      exact hbroken k (List.mem_of_getElem? hk)
    rw [hi]
    dsimp only
    rw [hexpand, if_neg (mt List.isEmpty_iff.1 hne)]
    cases v with
    | obj o =>
      rw [ofStep_known hkind]
      exact hshown
    | _ => cases hkind

/-- The choice between the variants of steps reports what is wrong with the step. -/
theorem reports_step {n : Nat} {s : Schema.Site}
    (h : ∀ k ∈ StepKind.all, Reports (check schema n (Document.variant k) s.place s.subject)
      (ofVariant k s.place s.subject)) :
    Reports (applyKeyword (resolve schema) (check schema n) s "oneOf"
      (.arr (StepKind.all.map Document.variant))) (ofStep s.place s.subject) := by
  have hsettles : ∀ k ∈ StepKind.all, Settles (check schema n (Document.variant k) s.place s.subject)
      (ofVariant k s.place s.subject = []) := fun k hk => (h k hk).settles
  change Reports (applyOneOf s (check schema n) (.arr (StepKind.all.map Document.variant))) _
  rw [applyOneOf, items]
  rcases firstValid_map hsettles [] with
    hr | ⟨alternatives, hr, hbroken⟩ | ⟨before, k, rest, hsplit, hk, hr⟩
  · rw [hr]
    exact .tooDeep
  · rw [hr]
    obtain ⟨founds, rfl, hfounds⟩ := firstValid_alternatives hr
    exact .ok (shown_choice (forall₂_reported hfounds h) hbroken)
  · have hkind := kind?_of_ofVariant hk
    -- The type that a step states is the only one that it can be of.
    have hother : ∀ j ∈ rest, ofVariant j s.place s.subject ≠ [] := by
      intro j hj hvalid
      obtain rfl := Option.some.inj (hkind.symm.trans (kind?_of_ofVariant hvalid))
      have hnodup : (before ++ k :: rest).Nodup := hsplit ▸ (by decide)
      exact (List.nodup_cons.1 (List.nodup_append.1 hnodup).2.1).1 hj
    have hrest : ∀ j ∈ rest, j ∈ StepKind.all := by
      intro j hj
      rw [hsplit]
      exact List.mem_append_right _ (List.mem_cons_of_mem _ hj)
    have hstep : ofStep s.place s.subject = [] := by
      cases hs : s.subject with
      | obj o =>
        rw [hs] at hk hkind
        rw [ofStep_known hkind, hk]
      | _ =>
        rw [hs] at hkind
        cases hkind
    rw [hstep]
    simp only [hr, bind, Except.bind]
    rcases othersValid_map fun j hj => hsettles j (hrest j hj) with ho | ⟨others, ho, hothers⟩
    · rw [ho]
      exact .tooDeep
    · rw [ho, hothers.2 hother]
      exact .nothing

namespace Tells

theorem condition (n : Nat) : Tells n (Document.reference "condition") ofCondition := by
  apply reference resolve_condition
  intro m _
  have hnamed : Named ["field", "op", "value"] := by
    unfold Named
    decide
  apply (closed conditionEntries hnamed ?_).congr
  · intro place v
    exact (ofCondition_eq place v).symm
  · intro e he j _
    simp only [conditionEntries, List.mem_cons, List.not_mem_nil, or_false] at he
    rcases he with rfl | rfl | rfl
    · exact typed rfl
    · exact choice _
    · exact anything

/-- A case is told about where its steps are. -/
theorem branchCase (hstep : ∀ m < n, Tells m (Document.reference "step") ofStep) :
    Tells n (Document.reference "branchCase") ofCase := by
  apply reference resolve_branchCase
  intro m hm
  have hnamed : Named ["when", "steps"] := by
    unfold Named
    decide
  apply (closed caseEntries hnamed ?_).congr
  · intro place v
    exact (ofCase_eq place v).symm
  · intro e he j hj
    simp only [caseEntries, List.mem_cons, List.not_mem_nil, or_false] at he
    rcases he with rfl | rfl
    · exact condition j
    · have hsteps := sequence (n := j) fun i hi => hstep i (by omega)
      exact hsteps.congr fun place v => (ofSteps_eq place v).symm

/-- What is wrong with the members of a step, where the steps inside of it are told about. -/
theorem ownEntries (k : StepKind) (he : e ∈ ownEntries k)
    (hstep : ∀ m < n, Tells m (Document.reference "step") ofStep) : Tells n e.part e.flaws := by
  cases k <;> simp only [Flaw.ownEntries, List.mem_cons, List.not_mem_nil, or_false] at he
  case trigger =>
    rcases he with rfl | rfl
    · exact typed rfl
    · exact typed rfl
  case filter =>
    obtain rfl := he
    exact condition n
  case branch =>
    rcases he with rfl | rfl
    · have hcases := nonempty (n := n) fun m hm => branchCase fun j hj => hstep j (by omega)
      exact hcases.congr fun place v => (ofCases_eq place v).symm
    · exact (sequenceOrNull hstep).congr fun place v => (ofElse_eq place v).symm
  case slack =>
    rcases he with rfl | rfl
    · exact typed rfl
    · exact typed rfl
  case request =>
    rcases he with rfl | rfl | rfl | rfl
    · exact choice _
    · exact typed rfl
    · exact openObject
    · exact openObject
  case action =>
    rcases he with rfl | rfl
    · exact typed rfl
    · exact openObject

theorem variant (k : StepKind) (hstep : ∀ m < n, Tells m (Document.reference "step") ofStep) :
    Tells n (Document.variant k) (ofVariant k) := by
  have hvariant : Document.variant k =
      Document.closed ((stepEntries k).map fun e => (e.key, e.part)) (needed k) := by
    cases k <;> rfl
  have hnamed : Named (needed k) := by
    unfold Named
    cases k <;> decide
  rw [hvariant]
  apply closed _ hnamed
  intro e he m hm
  rcases List.mem_cons.1 he with rfl | he
  · exact constant k.name
  · exact ownEntries k he fun j hj => hstep j (by omega)

/-- The schema of steps reports what is wrong with a step, and with the steps below it. -/
theorem step (n : Nat) : Tells n (Document.reference "step") ofStep := by
  -- The induction is on the budget: a step inside of a step is entered with less of it.
  induction n using Nat.strongRecOn with
  | ind n ih =>
    apply reference resolve_step
    intro m hm
    apply ofKeywords
    intro j hj place v
    apply Told.last
    apply reports_step
    intro k _
    exact variant k (fun i hi => ih i (by omega)) place v

/-- The schema of plan documents reports what is wrong with a plan. -/
theorem plan (n : Nat) (v : Json) : Reports (check schema n schema [] v) (ofPlan v) := by
  have hentries : ∀ m < n, ∀ e ∈ planEntries, Tells m e.part e.flaws := by
    intro m _ e he
    simp only [planEntries, List.mem_cons, List.not_mem_nil, or_false] at he
    rcases he with rfl | rfl | rfl
    · exact constant "1"
    · exact sized 1 100
    · have hsteps := bounded (n := m) 50 fun j _ => step j
      exact hsteps.congr fun place v => (ofPlanSteps_eq place v).symm
  have hnamed : Named ["version", "name", "steps"] := by
    unfold Named
    decide
  cases n with
  | zero => exact .tooDeep
  | succ m =>
    have htold : Told (resolve schema) (check schema m) ⟨members schema, [], v⟩ (members schema) _ :=
      .cons reports_dialect <|
      .cons (reports_type_one rfl) <|
      .cons (reports_properties fun e he w => hentries m (Nat.lt_succ_self m) e he _ w) <|
      .cons (reports_required hnamed) <| .cons (reports_additional rfl) (.last reports_definitions)
    rw [List.nil_append, List.append_nil] at htold
    rw [ofPlan_eq, inObject_eq]
    exact htold

end Tells
end Flaw
end Flowplan.Plan
