import Flowplan.Proofs.PlanDump

namespace Flowplan
set_option autoImplicit true

open Flowplan.Json Flowplan.Plan

theorem HasKeys.of_keys {o : Object} {required optional : List String}
    (h : Table.keys o = required ++ optional) :
    HasKeys required optional o :=
  ⟨fun _ hkey => h ▸ List.mem_append_left _ hkey, fun _ hkey => h ▸ hkey⟩

theorem Operator.toJson_of_ofName? {text : String} (h : ofName? text = some op) :
    op.toJson = .str text := by
  have hall : ∀ e ∈ known, e.2.toJson = .str e.1 := by simp [known, toJson]
  exact hall _ (Table.mem_of_get? h)

theorem Method.name_of_ofName? {text : String} (h : ofName? text = some m) : m.name = text := by
  have hall : ∀ e ∈ known, e.2.name = e.1 := by simp [known, name]
  exact hall _ (Table.mem_of_get? h)

namespace Json

theorem optionalKeys_of_type {k : StepKind} (h : Table.get? o "type" = some (.str k.name)) :
    optionalKeys o = k.optional := by
  simp only [optionalKeys, h, StepKind.ofName?_name]
  rfl

theorem optionalKeys_of_absent (h : Table.get? o "type" = none) : optionalKeys o = [] := by
  simp only [optionalKeys, h]

end Json

/-- A condition is written as what it was read from, and what is written stands for it. -/
theorem dump_of_denotesCondition (h : DenotesCondition n v c) (hfinite : v.allFinite = true) :
    DenotesCondition n c.toJson c ∧ Rearranged c.toJson v.completed := by
  obtain ⟨keys, field, op, known, value⟩ := h
  have htype := optionalKeys_of_absent (keys.get?_eq_none (by decide))
  simp only [Condition.toJson, Operator.toJson_of_ofName? known,
    finite_eq_self _ (allFinite_of_get? hfinite value)]
  constructor
  · exact .mk (.of_keys rfl) rfl rfl known rfl
  · apply rearranged_of_fills keys htype rfl
    simp only [List.forall_mem_cons]
    exact ⟨.of_get? field (by decide), .of_get? op (by decide), .of_get? value (by decide),
      List.forall_mem_nil _⟩

/-- An optional object is written as it is, and as null where it was left out. -/
theorem member_of_denotesObject (key : String) (h : DenotesObject m i)
    (hfinite : ∀ v, m = some v → v.allFinite = true) (hkey : key ∉ partKeys) :
    ∃ w, Extent.full.member key (objectMember i) = [(key, w)] ∧ Fills key m w ∧
      DenotesObject (some w) i.settled := by
  cases h with
  | absent => exact ⟨.null, rfl, .absent, .null⟩
  | null => exact ⟨.null, rfl, .value hkey, .null⟩
  | given =>
    refine ⟨_, ?_, .value hkey, .given⟩
    rw [objectMember, Member.map, finite_eq_self _ (hfinite _ rfl)]
    rfl

namespace Step

theorem length_of_rearranged (h : List.Forall₂ Rearranged ws (completedItems vs)) :
    ws.length = vs.length := by
  rw [h.length_eq, length_completedItems]

theorem ne_nil_of_rearranged (h : List.Forall₂ Rearranged ws (completedItems vs)) (hne : vs ≠ []) :
    ws ≠ [] := by
  rw [← List.length_pos_iff, length_of_rearranged h]
  exact List.length_pos_iff.2 hne

mutual

/-- A step is written as what it was read from, rearranged and with null for what was left out, and
what is written stands for the step. -/
theorem dump_of_denotes (h : Denotes n v s) (hfinite : v.allFinite = true) :
    Denotes n (s.toJson .full) s.settled ∧ Rearranged (s.toJson .full) v.completed := by
  match h with
  | .trigger keys type path signed =>
    refine ⟨.trigger (.of_keys rfl) rfl rfl rfl, ?_⟩
    apply rearranged_of_fills keys (optionalKeys_of_type (k := .trigger) type) rfl
    simp only [List.forall_mem_cons]
    exact ⟨.of_get? type (by decide), .of_get? path (by decide), .of_get? signed (by decide),
      List.forall_mem_nil _⟩
  | .filter keys type condition denotes =>
    obtain ⟨hdenotes, hsame⟩ :=
      dump_of_denotesCondition denotes (allFinite_of_get? hfinite condition)
    refine ⟨.filter (.of_keys rfl) rfl rfl hdenotes, ?_⟩
    apply rearranged_of_fills keys (optionalKeys_of_type (k := .filter) type) rfl
    simp only [List.forall_mem_cons]
    exact ⟨.of_get? type (by decide), .of_part condition (by decide) hsame,
      List.forall_mem_nil _⟩
  | .branch keys type cases nonempty denotes otherwise =>
    obtain ⟨hdenotes, hsame⟩ := dumpCases_of_denotes denotes (allFinite_of_get? hfinite cases)
    obtain ⟨w, hw, hfills, helse⟩ :=
      dumpElse_of_denotes otherwise fun _ => allFinite_of_get? hfinite
    simp only [toJson, hw]
    constructor
    · exact .branch (.of_keys rfl) rfl rfl (ne_nil_of_rearranged hsame nonempty) hdenotes helse
    · apply rearranged_of_fills keys (optionalKeys_of_type (k := .branch) type) rfl
      simp only [List.cons_append, List.nil_append, List.forall_mem_cons]
      exact ⟨.of_get? type (by decide), .of_part cases (by decide) (.items hsame), hfills,
        List.forall_mem_nil _⟩
  | .slack keys type channel text =>
    refine ⟨.slack (.of_keys rfl) rfl rfl rfl, ?_⟩
    apply rearranged_of_fills keys (optionalKeys_of_type (k := .slack) type) rfl
    simp only [List.forall_mem_cons]
    exact ⟨.of_get? type (by decide), .of_get? channel (by decide), .of_get? text (by decide),
      List.forall_mem_nil _⟩
  | .request keys type method known url headers body =>
    obtain ⟨w, hw, hfillsHeaders, hheaders⟩ :=
      member_of_denotesObject "headers" headers (fun _ => allFinite_of_get? hfinite) (by decide)
    obtain ⟨u, hu, hfillsBody, hbody⟩ :=
      member_of_denotesObject "body" body (fun _ => allFinite_of_get? hfinite) (by decide)
    simp only [toJson, hw, hu, Method.name_of_ofName? known]
    refine ⟨.request (.of_keys rfl) rfl rfl known rfl hheaders hbody, ?_⟩
    apply rearranged_of_fills keys (optionalKeys_of_type (k := .request) type) rfl
    simp only [List.cons_append, List.nil_append, List.forall_mem_cons]
    exact ⟨.of_get? type (by decide), .of_get? method (by decide), .of_get? url (by decide),
      hfillsHeaders, hfillsBody, List.forall_mem_nil _⟩
  | .action keys type slug input =>
    obtain ⟨w, hw, hfills, hinput⟩ :=
      member_of_denotesObject "input" input (fun _ => allFinite_of_get? hfinite) (by decide)
    simp only [toJson, hw]
    refine ⟨.action (.of_keys rfl) rfl rfl hinput, ?_⟩
    apply rearranged_of_fills keys (optionalKeys_of_type (k := .action) type) rfl
    simp only [List.cons_append, List.nil_append, List.forall_mem_cons]
    exact ⟨.of_get? type (by decide), .of_get? slug (by decide), hfills, List.forall_mem_nil _⟩

theorem dumpSteps_of_denotes (h : DenotesSteps n vs ss) (hfinite : allFiniteItems vs = true) :
    DenotesSteps n (listToJson .full ss) (settledList ss) ∧
      List.Forall₂ Rearranged (listToJson .full ss) (completedItems vs) := by
  match h with
  | .nil => exact ⟨.nil, .nil⟩
  | .cons first rest =>
    rw [allFiniteItems, Bool.and_eq_true] at hfinite
    obtain ⟨hfirst, hsame⟩ := dump_of_denotes first hfinite.1
    obtain ⟨hrest, hothers⟩ := dumpSteps_of_denotes rest hfinite.2
    exact ⟨.cons hfirst hrest, .cons hsame hothers⟩

theorem dumpCase_of_denotes (h : DenotesCase n v c) (hfinite : v.allFinite = true) :
    DenotesCase n (caseToJson .full c) (settledCase c) ∧
      Rearranged (caseToJson .full c) v.completed := by
  obtain ⟨_, _⟩ := c
  match h with
  | .mk keys condition denotes steps denotesSteps =>
    obtain ⟨hdenotes, hsame⟩ :=
      dump_of_denotesCondition denotes (allFinite_of_get? hfinite condition)
    obtain ⟨hsteps, hall⟩ :=
      dumpSteps_of_denotes denotesSteps (allFinite_of_get? hfinite steps)
    refine ⟨.mk (.of_keys rfl) rfl hdenotes rfl hsteps, ?_⟩
    apply rearranged_of_fills keys (optionalKeys_of_absent (keys.get?_eq_none (by decide))) rfl
    simp only [List.forall_mem_cons]
    exact ⟨.of_part condition (by decide) hsame, .of_part steps (by decide) (.items hall),
      List.forall_mem_nil _⟩

theorem dumpCases_of_denotes (h : DenotesCases n vs cs) (hfinite : allFiniteItems vs = true) :
    DenotesCases n (casesToJson .full cs) (settledCases cs) ∧
      List.Forall₂ Rearranged (casesToJson .full cs) (completedItems vs) := by
  match h with
  | .nil => exact ⟨.nil, .nil⟩
  | .cons first rest =>
    rw [allFiniteItems, Bool.and_eq_true] at hfinite
    obtain ⟨hfirst, hsame⟩ := dumpCase_of_denotes first hfinite.1
    obtain ⟨hrest, hothers⟩ := dumpCases_of_denotes rest hfinite.2
    exact ⟨.cons hfirst hrest, .cons hsame hothers⟩

theorem dumpElse_of_denotes (h : DenotesElse n m e)
    (hfinite : ∀ v, m = some v → v.allFinite = true) :
    ∃ w, Extent.full.member "else" (elseToJson .full e) = [("else", w)] ∧ Fills "else" m w ∧
      DenotesElse n (some w) (settledElse e) := by
  match h with
  | .absent => exact ⟨.null, rfl, .absent, .null⟩
  | .null => exact ⟨.null, rfl, .part (by decide) .same, .null⟩
  | .given steps =>
    obtain ⟨hsteps, hall⟩ := dumpSteps_of_denotes steps (hfinite _ rfl)
    exact ⟨_, rfl, .part (by decide) (.items hall), .given hsteps⟩

end

end Step

namespace Plan

/-- A plan is written as the document that it stands for, and what is written stands for it. -/
theorem dump_of_denotes (h : DenotesPlan n v p) (hfinite : v.allFinite = true) :
    DenotesPlan n p.toJson p.settled ∧ Rearranged p.toJson v.completed := by
  obtain ⟨keys, version, name, named, short, steps, nonempty, few, denotes⟩ := h
  obtain ⟨hsteps, hall⟩ := Step.dumpSteps_of_denotes denotes (allFinite_of_get? hfinite steps)
  constructor
  · refine .mk (.of_keys rfl) rfl rfl named short rfl ?_ ?_ hsteps
    · exact Step.ne_nil_of_rearranged hall nonempty
    · rwa [Step.length_of_rearranged hall]
  · apply rearranged_of_fills keys (optionalKeys_of_absent (keys.get?_eq_none (by decide))) rfl
    simp only [List.forall_mem_cons]
    exact ⟨.of_get? version (by decide), .of_get? name (by decide),
      .of_part steps (by decide) (.items hall), List.forall_mem_nil _⟩

/-- A parsed plan is written as its document, up to the order of members and with null for what was
left out, and parses as the same plan again. -/
theorem parse_dump {o : Object} (hfinite : (Json.obj o).allFinite = true)
    (hparse : parse (.value (.obj o)) = .ok (.ok p)) :
    Rearranged p.toJson (Json.obj o).completed ∧
      ∃ q, parse (.value p.toJson) = .ok (.ok q) ∧ q.Same p := by
  have hdenotes := ofJson_eq_ok_iff_denotes.1 (Except.ok.inj hparse)
  obtain ⟨hwritten, hsame⟩ := dump_of_denotes hdenotes hfinite
  refine ⟨hsame, p.settled, ?_, same_settled p⟩
  exact congrArg Except.ok (ofJson_eq_ok_iff_denotes.2 hwritten)

/-- A document with its members in no special order and without its optional ones, all the way
down. -/
def sparseMembers : Object :=
  let condition (value : Json) : Json :=
    .obj [("value", value), ("op", .str "equals"), ("field", .str "a")]
  let request : Json := .obj [("url", .str "https://a"), ("type", .str "action.http.request"),
    ("method", .str "PUT"), ("body", .obj [("when", .int 1), ("else", .real (.ofInt 1))])]
  let action : Json := .obj [("actionSlug", .str "notify"), ("type", .str "custom.action")]
  let way (value : Json) (steps : List Json) : Json :=
    .obj [("steps", .arr steps), ("when", condition value)]
  let branch (ways : List Json) : Json := .obj [("cases", .arr ways), ("type", .str "branch")]
  [("steps", .arr [branch [way (.int 1) [branch [way (.real (.ofInt 1)) [action]]],
    way .null [request]]]), ("name", .str "P"), ("version", .str "1")]

theorem parse_dump_sparse : ∃ p, (Json.obj sparseMembers).allFinite = true ∧
    parse (.value (.obj sparseMembers)) = .ok (.ok p) ∧
    Rearranged p.toJson (Json.obj sparseMembers).completed ∧
      ∃ q, parse (.value p.toJson) = .ok (.ok q) ∧ q.Same p := by
  have hfinite : (Json.obj sparseMembers).allFinite = true := by decide +kernel
  have hsome : (parse? (.value (.obj sparseMembers))).isSome = true := by decide +kernel
  obtain ⟨p, hp⟩ := Option.isSome_iff_exists.1 hsome
  have hparse := parse?_eq_some hp
  exact ⟨p, hfinite, hparse, parse_dump hfinite hparse⟩

end Plan

end Flowplan
