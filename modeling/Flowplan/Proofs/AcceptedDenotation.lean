import Flowplan.Proofs.PlanAcceptance
import Flowplan.Proofs.SchemaDenotation

/-!
A value is parsed as a plan exactly if it stands for that plan within the budget of the check.
-/

namespace Flowplan
set_option autoImplicit true

open Flowplan.Json Flowplan.Record Flowplan.Schema Flowplan.Plan

namespace Plan.Closes

variable {fields : Object} {needed optional : List String}

theorem hasKeys (h : Closes n place fields needed o)
    (hfields : Table.keys fields = needed ++ optional) : HasKeys needed optional o :=
  ⟨h.all, hfields ▸ h.only⟩

theorem exists_get? (h : Closes n place fields needed o) (key : String) (hkey : key ∈ needed) :
    ∃ v, Table.get? o key = some v := Table.mem_keys_iff_get?.1 (h.all key hkey)

end Plan.Closes

theorem Operator.read_eq_valid : Operator.read v = .valid op ↔
    ∃ name, v = .str name ∧ Operator.ofName? name = some op := by
  cases v with
  | str s =>
    rw [Operator.read]
    cases h : ofName? s <;> simp [h, Checked.refuse]
  | _ => simp [Operator.read, Checked.refuse]

theorem Method.read_eq_valid : Method.read v = .valid m ↔
    ∃ text, v = .str text ∧ Method.ofName? text = some m := by
  cases v with
  | str s =>
    rw [Method.read]
    cases h : ofName? s <;> simp [h, Checked.refuse]
  | _ => simp [Method.read, Checked.refuse]

theorem denotesObject_of_member (h : (Slot.plain key).member o object = .valid m) :
    DenotesObject (Table.get? o key) m := by
  cases hv : Table.get? o key with
  | none =>
    simp only [Slot.member, Slot.withDefault, Slot.key?_of_absent hv, Checked.valid.injEq] at h
    exact h ▸ .absent
  | some v =>
    rw [Slot.member, Slot.withDefault_of_get? hv, Checked.under_valid] at h
    cases v with
    | null => exact Checked.valid.inj h ▸ .null
    | obj ms => exact Checked.valid.inj h ▸ .given
    | _ => simp [object, Checked.map, Checked.refuse] at h

theorem denotesCondition_of_accepted
    (hcheck : check schema n (Document.reference "condition") place v = .ok [])
    (hread : Condition.read v = .valid c) : DenotesCondition n v c := by
  obtain ⟨m, rfl, hclosed⟩ := (check_reference_iff resolve_condition).1 hcheck
  obtain ⟨j, o, rfl, rfl, hcloses⟩ := check_closed_iff.1 hclosed
  obtain ⟨_, hfield⟩ := hcloses.exists_get? "field" (by simp)
  obtain ⟨_, hop⟩ := hcloses.exists_get? "op" (by simp)
  obtain ⟨_, hvalue⟩ := hcloses.exists_get? "value" (by simp)
  obtain ⟨i, rfl, -⟩ := check_eq_nil.1 (hcloses.suits.head hfield)
  obtain ⟨hmembers, -⟩ := Checked.also_eq_valid.1 hread
  rw [Condition.ofMembers, Slot.required_of_get? hfield, Slot.required_of_get? hop,
    Slot.withDefault_of_get? hvalue] at hmembers
  obtain ⟨_, value, hseq, hvalueRead, rfl⟩ := Checked.seq_eq_valid.1 hmembers
  obtain ⟨_, op, hmap, hopRead, rfl⟩ := Checked.seq_eq_valid.1 hseq
  obtain ⟨field, hfieldRead, rfl⟩ := Checked.map_eq_valid.1 hmap
  obtain rfl := string_eq_valid.1 (Checked.under_valid.1 hfieldRead)
  obtain ⟨name, rfl, hname⟩ := Operator.read_eq_valid.1 (Checked.under_valid.1 hopRead)
  obtain rfl := Checked.valid.inj (Checked.under_valid.1 hvalueRead)
  exact .mk (hcloses.hasKeys rfl) hfield hop hname hvalue

namespace Step

/-- What a check with a budget lets through stands for the step that is read from it. -/
def Understood (n : Nat) : Prop := ∀ {place v s},
  check schema n (Document.reference "step") place v = .ok [] → read v = .valid s → Denotes n v s

theorem denotesSteps_of_accepted (h : Understood n)
    (hcheck : ∀ e ∈ indexed i vs,
      check schema n (Document.reference "step") (place ++ [.index e.1]) e.2 = .ok [])
    (hread : readItems j vs = .valid ss) : DenotesSteps n vs ss := by
  induction vs generalizing i j ss with
  | nil => exact Checked.valid.inj hread ▸ .nil
  | cons v rest ih =>
    obtain ⟨hfirst, hrest⟩ := List.forall_mem_cons.1 hcheck
    rw [readItems] at hread
    obtain ⟨_, others, hmap, hothers, rfl⟩ := Checked.seq_eq_valid.1 hread
    obtain ⟨s, hs, rfl⟩ := Checked.map_eq_valid.1 hmap
    exact .cons (h hfirst (Checked.under_valid.1 hs)) (ih hrest hothers)

theorem denotesCase_of_accepted (h : ∀ m < n, Understood m)
    (hcheck : check schema n (Document.reference "branchCase") place v = .ok [])
    (hread : readCase v = .valid c) : DenotesCase n v c := by
  obtain ⟨m, rfl, hclosed⟩ := (check_reference_iff resolve_branchCase).1 hcheck
  obtain ⟨j, o, rfl, rfl, hcloses⟩ := check_closed_iff.1 hclosed
  obtain ⟨_, hwhen⟩ := hcloses.exists_get? "when" (by simp)
  obtain ⟨w, hsteps⟩ := hcloses.exists_get? "steps" (by simp)
  rw [readCase, stepsIn_eq, hsteps] at hread
  obtain ⟨hmembers, -⟩ := Checked.also_eq_valid.1 hread
  rw [Slot.required_of_get? hwhen] at hmembers
  obtain ⟨_, ss, hmap, hstepsRead, rfl⟩ := Checked.seq_eq_valid.1 hmembers
  obtain ⟨condition, hconditionRead, rfl⟩ := Checked.map_eq_valid.1 hmap
  have hlist : readList w = .valid ss := Checked.under_valid.1 hstepsRead
  cases w with
  | arr vs =>
    obtain ⟨i, rfl, hitems⟩ :=
      accepts_of_check (hcloses.suits.tail.head hsteps) (.tail _ (.head _)) rfl
    refine .mk (hcloses.hasKeys rfl) hwhen ?_ hsteps ?_
    · exact denotesCondition_of_accepted (hcloses.suits.head hwhen)
        (Checked.under_valid.1 hconditionRead)
    · exact denotesSteps_of_accepted (h i (by omega)) hitems hlist
  | _ => simp [readList, Checked.refuse] at hlist

theorem denotesCases_of_accepted (h : ∀ m < n, Understood m)
    (hcheck : ∀ e ∈ indexed i vs,
      check schema n (Document.reference "branchCase") (place ++ [.index e.1]) e.2 = .ok [])
    (hread : readCaseItems j vs = .valid cs) : DenotesCases n vs cs := by
  induction vs generalizing i j cs with
  | nil => exact Checked.valid.inj hread ▸ .nil
  | cons v rest ih =>
    obtain ⟨hfirst, hrest⟩ := List.forall_mem_cons.1 hcheck
    rw [readCaseItems] at hread
    obtain ⟨_, others, hmap, hothers, rfl⟩ := Checked.seq_eq_valid.1 hread
    obtain ⟨c, hc, rfl⟩ := Checked.map_eq_valid.1 hmap
    exact .cons (denotesCase_of_accepted h hfirst (Checked.under_valid.1 hc)) (ih hrest hothers)

theorem denotesElse_of_accepted (h : Understood n)
    (hcheck : ∀ w, m = some w → check schema (n + 1) (.obj
      [("type", Document.strings ["array", "null"]), ("items", Document.reference "step")])
        place w = .ok [])
    (hread : (m.map readElse).map ("else", ·) = none ∧ e = .absent ∨
      ∃ key, (m.map readElse).map ("else", ·) = some (key, .valid e)) :
    DenotesElse n m e := by
  cases m with
  | none =>
    obtain ⟨-, rfl⟩ | ⟨_, hsome⟩ := hread
    · exact .absent
    · simp at hsome
  | some w =>
    obtain ⟨hnone, -⟩ | ⟨_, hsome⟩ := hread
    · simp at hnone
    · have hread : readElse w = .valid e := (Prod.mk.inj (Option.some.inj hsome)).2
      cases w with
      | null => exact Checked.valid.inj hread ▸ .null
      | arr vs =>
        obtain ⟨ss, hitems, rfl⟩ := Checked.map_eq_valid.1 (hread : Member.given <$> _ = _)
        obtain ⟨_, ⟨⟩, haccepts⟩ := accepts_of_check (hcheck _ rfl) (.tail _ (.head _)) rfl
        exact .given (denotesSteps_of_accepted h haccepts hitems)
      | _ => simp [readElse, Checked.refuse] at hread

theorem denotes_branch (h : ∀ m ≤ n, Understood m)
    (htype : Table.get? o "type" = some (.str StepKind.branch.name))
    (hcloses : Closes (n + 1) place (stepProperties .branch) (neededKeys .branch) o)
    (hread : read (.obj o) = .valid s) : Denotes (n + 4) (.obj o) s := by
  have keys : HasKeys ["type", "cases"] ["else"] o := hcloses.hasKeys rfl
  have habsent : Table.get? o "else_" = none := keys.get?_eq_none (by decide)
  obtain ⟨w, hcases⟩ := hcloses.exists_get? "cases" (.tail _ (.head _))
  simp only [read, StepKind.ofMembers_of_type (k := .branch) htype, if_true, casesIn_eq, elseIn_eq,
    hcases, habsent, Option.map_some, Option.map_none, Option.or_none, Checked.under_valid] at hread
  obtain ⟨cs, e, rfl, hne, hcasesRead, helse⟩ := branchOfParts_eq_valid hread
  have hlist : readCases w = .valid cs := Option.some.inj hcasesRead
  cases w with
  | arr vs =>
    obtain ⟨_, ⟨⟩, haccepts⟩ :=
      accepts_of_check (hcloses.suits.tail.head hcases) (.tail _ (.head _)) rfl
    have hdenotes := denotesCases_of_accepted (fun m hm => h m (by omega)) haccepts hlist
    refine .branch keys htype hcases ?_ hdenotes ?_
    · rintro rfl
      exact hne (Checked.valid.inj hlist).symm
    · exact denotesElse_of_accepted (h n (Nat.le_refl n)) (hcloses.suits.tail.tail _ (.head _)) helse
  | _ => simp [readCases, Checked.refuse] at hlist

/-- A step that stays as it is read from its members, each of which the check has let through. -/
theorem denotes_flat {k : StepKind} (hk : k ≠ .branch)
    (htype : Table.get? o "type" = some (.str k.name))
    (hcloses : Closes (n + 1) place (stepProperties k) (neededKeys k) o)
    (hread : flatOfMembers k o = .valid s) : Denotes (n + 4) (.obj o) s := by
  obtain ⟨hmembers, -⟩ := Checked.also_eq_valid.1 hread
  cases k <;> dsimp only at hmembers <;> rw [StepKind.stated_of_type htype] at hmembers
  case branch => exact absurd rfl hk
  case trigger =>
    obtain ⟨_, hpath⟩ := hcloses.exists_get? "path" (.tail _ (.head _))
    obtain ⟨_, hsigned⟩ := hcloses.exists_get? "secretHmac" (.tail _ (.tail _ (.head _)))
    obtain ⟨_, -, b, rfl⟩ := check_flag_iff.1 (hcloses.suits.tail.tail.head hsigned)
    rw [Slot.required_of_get? hpath, Slot.required_of_get? hsigned] at hmembers
    obtain ⟨_, _, hseq, hsignedRead, rfl⟩ := Checked.seq_eq_valid.1 hmembers
    obtain ⟨_, path, hmap, hpathRead, rfl⟩ := Checked.seq_eq_valid.1 hseq
    obtain ⟨_, -, rfl⟩ := Checked.map_eq_valid.1 hmap
    obtain rfl := string_eq_valid.1 (Checked.under_valid.1 hpathRead)
    obtain rfl := Checked.valid.inj (Checked.under_valid.1 hsignedRead)
    exact .trigger (hcloses.hasKeys rfl) htype hpath hsigned
  case filter =>
    obtain ⟨_, hwhen⟩ := hcloses.exists_get? "when" (.tail _ (.head _))
    rw [Slot.required_of_get? hwhen] at hmembers
    obtain ⟨_, condition, hmap, hwhenRead, rfl⟩ := Checked.seq_eq_valid.1 hmembers
    obtain ⟨_, -, rfl⟩ := Checked.map_eq_valid.1 hmap
    exact .filter (hcloses.hasKeys rfl) htype hwhen (denotesCondition_of_accepted
      (hcloses.suits.tail.head hwhen) (Checked.under_valid.1 hwhenRead))
  case slack =>
    obtain ⟨_, hchannel⟩ := hcloses.exists_get? "channel" (.tail _ (.head _))
    obtain ⟨_, htext⟩ := hcloses.exists_get? "text" (.tail _ (.tail _ (.head _)))
    rw [Slot.required_of_get? hchannel, Slot.required_of_get? htext] at hmembers
    obtain ⟨_, text, hseq, htextRead, rfl⟩ := Checked.seq_eq_valid.1 hmembers
    obtain ⟨_, channel, hmap, hchannelRead, rfl⟩ := Checked.seq_eq_valid.1 hseq
    obtain ⟨_, -, rfl⟩ := Checked.map_eq_valid.1 hmap
    obtain rfl := string_eq_valid.1 (Checked.under_valid.1 hchannelRead)
    obtain rfl := string_eq_valid.1 (Checked.under_valid.1 htextRead)
    exact .slack (hcloses.hasKeys rfl) htype hchannel htext
  case request =>
    obtain ⟨_, hmethod⟩ := hcloses.exists_get? "method" (.tail _ (.head _))
    obtain ⟨_, hurl⟩ := hcloses.exists_get? "url" (.tail _ (.tail _ (.head _)))
    rw [Slot.required_of_get? hmethod, Slot.required_of_get? hurl] at hmembers
    obtain ⟨_, body, hbefore, hbodyRead, rfl⟩ := Checked.seq_eq_valid.1 hmembers
    obtain ⟨_, headers, hneeded, hheadersRead, rfl⟩ := Checked.seq_eq_valid.1 hbefore
    obtain ⟨_, url, hseq, hurlRead, rfl⟩ := Checked.seq_eq_valid.1 hneeded
    obtain ⟨_, method, hmap, hmethodRead, rfl⟩ := Checked.seq_eq_valid.1 hseq
    obtain ⟨_, -, rfl⟩ := Checked.map_eq_valid.1 hmap
    obtain ⟨name, rfl, hname⟩ := Method.read_eq_valid.1 (Checked.under_valid.1 hmethodRead)
    obtain rfl := string_eq_valid.1 (Checked.under_valid.1 hurlRead)
    exact .request (hcloses.hasKeys rfl) htype hmethod hname hurl
      (denotesObject_of_member hheadersRead) (denotesObject_of_member hbodyRead)
  case action =>
    obtain ⟨_, hslug⟩ := hcloses.exists_get? "actionSlug" (.tail _ (.head _))
    rw [Slot.required_of_get? hslug] at hmembers
    obtain ⟨_, input, hseq, hinputRead, rfl⟩ := Checked.seq_eq_valid.1 hmembers
    obtain ⟨_, slug, hmap, hslugRead, rfl⟩ := Checked.seq_eq_valid.1 hseq
    obtain ⟨_, -, rfl⟩ := Checked.map_eq_valid.1 hmap
    obtain rfl := string_eq_valid.1 (Checked.under_valid.1 hslugRead)
    exact .action (hcloses.hasKeys rfl) htype hslug (denotesObject_of_member hinputRead)

theorem understood (n : Nat) : Understood n := by
  -- The induction is on the budget, as in the recognition of steps.
  induction n using Nat.strongRecOn with
  | ind n ih =>
    intro place v s hcheck hread
    obtain ⟨m, k, o, rfl, rfl, htype, hcloses⟩ := check_step_iff.1 hcheck
    by_cases hk : k = .branch
    · subst hk
      exact denotes_branch (fun j hj => ih j (by omega)) htype hcloses hread
    · exact denotes_flat hk htype hcloses ((read_flat_iff htype hk).1 hread)

end Step

namespace Plan

theorem literal_eq_valid (h : literal expected v = .valid s) : s = expected := by
  cases v with
  | str t =>
    rw [literal] at h
    split at h
    · rename_i ht
      exact (Checked.valid.inj h).symm.trans (beq_iff_eq.1 ht)
    · simp [Checked.refuse] at h
  | _ => simp [literal, Checked.refuse] at h

theorem readSteps_eq_valid (h : readSteps w = .valid ss) : ∃ vs, w = .arr vs ∧
    vs.length ≤ maxSteps ∧ vs ≠ [] ∧ Step.readItems 0 vs = .valid ss := by
  cases w with
  | arr vs =>
    rw [readSteps] at h
    split at h
    · simp [Checked.refuse] at h
    · rename_i hfew
      obtain ⟨xs, hread, hxs⟩ := Checked.andThen_eq_valid.1 h
      split at hxs
      · simp [Checked.refuse] at hxs
      · rename_i hne
        obtain rfl := Checked.valid.inj hxs
        refine ⟨vs, rfl, Nat.not_lt.1 hfew, ?_, hread⟩
        rintro rfl
        exact hne (List.isEmpty_iff.2 (Checked.valid.inj hread).symm)
  | _ => simp [readSteps, Checked.refuse] at h

theorem denotesPlan_of_accepted (hcheck : check schema n schema place v = .ok [])
    (hread : read v = .valid p) : DenotesPlan n v p := by
  obtain ⟨m, o, rfl, rfl, hcloses⟩ := check_plan_iff.1 hcheck
  obtain ⟨_, hversion⟩ := hcloses.exists_get? "version" (.head _)
  obtain ⟨_, hname⟩ := hcloses.exists_get? "name" (.tail _ (.head _))
  obtain ⟨_, hsteps⟩ := hcloses.exists_get? "steps" (.tail _ (.tail _ (.head _)))
  obtain ⟨_, rfl, rfl⟩ := check_constant_iff.1 (hcloses.suits.head hversion)
  obtain ⟨hmembers, -⟩ := Checked.also_eq_valid.1 hread
  rw [ofMembers, Slot.withDefault_of_get? hversion, Slot.required_of_get? hname,
    Slot.required_of_get? hsteps] at hmembers
  obtain ⟨_, steps, hseq, hstepsRead, rfl⟩ := Checked.seq_eq_valid.1 hmembers
  obtain ⟨_, name, hmap, hnameRead, rfl⟩ := Checked.seq_eq_valid.1 hseq
  obtain ⟨version, hversionRead, rfl⟩ := Checked.map_eq_valid.1 hmap
  obtain rfl := literal_eq_valid (Checked.under_valid.1 hversionRead)
  obtain ⟨rfl, hleast, hmost⟩ := sizedString_eq_valid.1 (Checked.under_valid.1 hnameRead)
  obtain ⟨vs, rfl, hfew, hne, hitems⟩ := readSteps_eq_valid (Checked.under_valid.1 hstepsRead)
  obtain ⟨_, ⟨⟩, haccepts⟩ :=
    accepts_of_check (hcloses.suits.tail.tail.head hsteps) (.tail _ (.head _)) rfl
  exact .mk (hcloses.hasKeys rfl) hversion hname hleast hmost hsteps hne hfew
    (Step.denotesSteps_of_accepted (Step.understood _) haccepts hitems)

/-- A value is taken for a plan exactly if it stands for the plan within the budget. -/
theorem ofJson_eq_ok_iff_denotes : ofJson v = .ok p ↔ DenotesPlan defaultBudget v p := by
  rw [ofJson_eq_ok_iff, violations]
  constructor
  · rintro ⟨hcheck, hread⟩
    exact denotesPlan_of_accepted hcheck hread
  · intro h
    exact ⟨check_of_denotesPlan h, read_of_denotes h⟩

end Plan

end Flowplan
