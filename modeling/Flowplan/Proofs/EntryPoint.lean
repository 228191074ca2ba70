import Flowplan.Proofs.AcceptedWorkflow

namespace Flowplan
set_option autoImplicit true

open Flowplan.Json

namespace Step

/-- Everything below a step is inside of one more branch than the step itself. -/
theorem eq_of_mem_sites {t : Step} (h : .step depth place' t ∈ sites depth place s) : t = s := by
  cases s with
  | branch cases otherwise =>
    rw [sites, List.mem_cons, List.mem_append] at h
    rcases h with h | h | h
    · exact (Site.step.inj h).2.2
    · exact absurd (le_depth_sitesCases cases h) (Nat.not_succ_le_self depth)
    · exact absurd (le_depth_sitesElse otherwise h) (Nat.not_succ_le_self depth)
  | _ => exact (Site.step.inj (List.mem_singleton.1 h)).2.2

theorem mem_of_mem_sitesList {s : Step} {steps : List Step}
    (h : .step depth place' s ∈ sitesList depth place i steps) : s ∈ steps := by
  induction steps generalizing i with
  | nil => exact absurd h List.not_mem_nil
  | cons t rest ih =>
    rcases List.mem_append.1 h with h | h
    · exact eq_of_mem_sites h ▸ List.mem_cons_self
    · exact List.mem_cons_of_mem t (ih h)

end Step

/-- A plan that starts with a trigger and has no second one among its own steps has all other
triggers inside branches. -/
theorem Plan.Accepted.exists_tail {p : Plan} (h : p.Accepted limit context) :
    ∃ s rest, p.nestedSteps = (0, s) :: rest ∧ s.kind? = some .trigger ∧
      ∀ x ∈ rest, x.2.kind? = some .trigger → 0 < x.1 := by
  obtain ⟨s, hhead, hkind⟩ := Option.bind_eq_some_iff.1 h.start
  obtain ⟨others, hsteps⟩ := List.head?_eq_some_iff.1 hhead
  have hfew := h.triggers
  rw [hsteps, List.countP_cons_of_pos (by simpa using hkind)] at hfew
  have hnone : others.countP (fun t => t.kind? = some .trigger) = 0 := by omega
  cases s with
  | trigger path signed =>
    have hnested : p.nestedSteps = (0, .trigger path signed) ::
        (Step.sitesList 0 [.name "steps"] 1 others).filterMap Site.nested? := by
      rw [nestedSteps, Plan.sites, hsteps]
      rfl
    refine ⟨_, _, hnested, hkind, ?_⟩
    rintro ⟨depth, t⟩ ht htrigger
    obtain ⟨x, hx, hstep⟩ := List.mem_filterMap.1 ht
    obtain ⟨place, rfl⟩ := Site.nested?_eq_some.1 hstep
    apply Nat.pos_of_ne_zero
    rintro rfl
    exact List.countP_eq_zero.1 hnone t (Step.mem_of_mem_sitesList hx) (by simpa using htrigger)
  | _ => simp [Step.kind?] at hkind

variable {α β : Type}

theorem countP_eq_of_forall₂ {P : α → Bool} {Q : β → Bool} {as : List α} {bs : List β}
    (h : List.Forall₂ (fun a b => Q b = P a) as bs) : bs.countP Q = as.countP P := by
  induction h with
  | nil => rfl
  | cons hab h ih => rw [List.countP_cons, List.countP_cons, hab, ih]

namespace Pipeline

/-- The entry points of a workflow. The node of the first step is one of them, and no other node of
a step that stands in no branch is; the rest are the nodes of triggers inside branches. -/
theorem entries_of_outcome
    (h : (ofSource (full settings options context) src).outcome = .ok result) :
    ∃ p, Plan.parse src = .ok (.ok p) ∧
      (∃ n, result.workflow.nodes.head? = some n ∧ n.id = "node_000" ∧
        n.type = "n8n-nodes-base.webhook") ∧
      List.Forall₂ (fun (depth, s) n =>
          n.type = "n8n-nodes-base.webhook" ↔ s.kind? = some .trigger ∧ 0 < depth)
        p.nestedSteps.tail result.workflow.nodes.tail ∧
      result.workflow.nodes.countP (fun n => n.type = "n8n-nodes-base.webhook") =
        1 + p.nestedSteps.countP fun (depth, s) => s.kind? = some .trigger ∧ 0 < depth := by
  obtain ⟨p, calls, hparse, haccepted, hcompiles⟩ := exists_accepted h
  obtain ⟨s, rest, hnested, hkind, hinside⟩ := haccepted.exists_tail
  have hnodes := hcompiles.forall₂_nestedSteps
  rw [hnested] at hnodes
  obtain ⟨n, others, hn, hothers, hw⟩ := List.forall₂_cons_left_iff.1 hnodes
  have hhead : n.type = "n8n-nodes-base.webhook" := hn.webhook_iff.2 hkind
  have htail : List.Forall₂ (fun (x : Nat × Step) (m : Node) =>
      m.type = "n8n-nodes-base.webhook" ↔ x.2.kind? = some .trigger ∧ 0 < x.1) rest others := by
    refine ((List.forall₂_and_left _ _).2 ⟨hinside, hothers⟩).imp ?_
    rintro x m ⟨hx, hm⟩
    rw [hm.webhook_iff]
    exact ⟨fun hkind => ⟨hkind, hx hkind⟩, And.left⟩
  refine ⟨p, hparse, hcompiles.exists_entry haccepted.start, ?_, ?_⟩
  · rw [hw, hnested]
    exact htail
  · have hcount : others.countP (fun m => m.type = "n8n-nodes-base.webhook") =
        rest.countP fun (depth, s) => s.kind? = some .trigger ∧ 0 < depth :=
      countP_eq_of_forall₂ (htail.imp fun _ _ h => decide_eq_decide.2 h)
    rw [hw, hnested, List.countP_cons_of_pos (by simpa using hhead),
      List.countP_cons_of_neg (by simp), hcount, Nat.add_comm]

/-- A branch may hold a second trigger, and the workflow has a second entry point then. -/
theorem two_entries_of_branching_document : ∃ result : CompileResult,
    (ofSource (full .default .default .small) (.value Plan.branchingDocument)).outcome =
      .ok result ∧
    result.workflow.nodes.countP (fun n => n.type = "n8n-nodes-base.webhook") = 2 := by
  obtain ⟨result, hresult⟩ := exists_outcome_of_branchingDocument
  obtain ⟨p, calls, hparse, -, hcompiles⟩ := exists_accepted hresult
  have hcount : result.workflow.nodes.countP (fun n => n.type = "n8n-nodes-base.webhook") =
      (Step.all p.steps).countP fun s => s.kind? = some .trigger :=
    countP_eq_of_forall₂ (hcompiles.nodes.imp fun _ _ h => decide_eq_decide.2 h.webhook_iff)
  have htriggers : (Plan.parse? (.value Plan.branchingDocument)).map (fun p =>
      (Step.preorderList p.steps).countP fun s => s.kind? = some .trigger) = some 2 := by
    decide +kernel
  rw [Plan.parse?_of_parse hparse] at htriggers
  refine ⟨result, hresult, ?_⟩
  rw [hcount, Step.all_eq_preorderList]
  exact Option.some.inj htriggers

/-- The trigger that is not in the branch is the first step. -/
theorem entries_of_branching_document : ∃ (p : Plan) (result : CompileResult),
    Plan.parse (.value Plan.branchingDocument) = .ok (.ok p) ∧
    (ofSource (full .default .default .small) (.value Plan.branchingDocument)).outcome =
      .ok result ∧
    (∃ n, result.workflow.nodes.head? = some n ∧ n.id = "node_000" ∧
      n.type = "n8n-nodes-base.webhook") ∧
    result.workflow.nodes.countP (fun n => n.type = "n8n-nodes-base.webhook") =
      1 + p.nestedSteps.countP (fun (depth, s) => s.kind? = some .trigger ∧ 0 < depth) := by
  obtain ⟨result, hresult⟩ := exists_outcome_of_branchingDocument
  obtain ⟨p, hparse, hentry, -, hcount⟩ := entries_of_outcome hresult
  exact ⟨p, result, hparse, hresult, hentry, hcount⟩

end Pipeline
end Flowplan
