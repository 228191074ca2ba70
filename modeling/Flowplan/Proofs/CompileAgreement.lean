import Flowplan.Proofs.CompileFailure
import Flowplan.Proofs.FindingPlaces
import Flowplan.Proofs.FlattenRefusal
import Flowplan.Proofs.ReadComplaints

namespace Flowplan
set_option autoImplicit true

open Flowplan.Action (Definition)

namespace Compilation

section

variable {settings : Settings} {options : Layout.Options} {context : Context} {p : Plan}

/-- A compilation succeeds where there is no reason to refuse its plan. -/
theorem exists_outcome (hc : context.Dependable registry) (ho : options.Integral)
    (hne : p.steps ≠ []) (hk : Step.AllKnown p.steps)
    (h : p.refused? settings.maxBranchDepth registry = none) :
    ∃ result, (ofPlan settings options context p).outcome = .ok result := by
  have hobstacle := Plan.obstacle_along settings.maxBranchDepth registry hk
  rw [h] at hobstacle
  obtain ⟨result, hresult, -⟩ := ofPlan_of_clear settings hc.steady ho hne hobstacle
  exact ⟨result, hresult⟩

end

end Compilation

theorem Validation.find?_issues (limit : Int) {context : Context}
    (hc : context.Dependable registry) {p : Plan} (hne : p.steps ≠ [])
    (hk : Step.AllKnown p.steps) :
    (ofPlan limit context p).issues.find? (·.refusalCode?.isSome) =
      (p.refused? limit registry).map fun refused => refused.2.toIssue := by
  have hfun : (fun i : Issue => i.refusalCode?.isSome) ∘ Finding.toIssue =
      fun f => f.rule.refuses := funext Finding.isSome_refusalCode?
  simp only [ofPlan, Inspection.run_ofPlan hc.answers hne hk, Inspection.allFindings,
    List.find?_map, hfun, Plan.find?_findings hc, Option.map_map]
  rfl

namespace Compilation

section

variable {settings : Settings} {options : Layout.Options} {context : Context} {p : Plan}

end

end Compilation

namespace Pipeline

section

variable {options : Layout.Options} {context : Context}

theorem exists_outcome_of_valid (settings : Settings) {p : Plan} (hc : context.Dependable registry)
    (ho : options.Integral) (hne : p.steps ≠ []) (hk : Step.AllKnown p.steps)
    (hv : (Validation.ofPlan settings.maxBranchDepth context p).valid = true) :
    ∃ result, (full settings options context (.ok p)).outcome = .ok result := by
  have hnone : p.refused? settings.maxBranchDepth registry = none := by
    have hfind := Validation.find?_issues settings.maxBranchDepth hc hne hk
    rw [List.isEmpty_iff.1 hv] at hfind
    exact Option.map_eq_none_iff.1 hfind.symm
  -- The compiler asks the registry again, after the calls that the rules have made.
  have hafter := hc.after (Validation.ofPlan settings.maxBranchDepth context p).calls
  obtain ⟨result, hresult⟩ := Compilation.exists_outcome hafter ho hne hk hnone
  refine ⟨result, ?_⟩
  simp only [full, hv, if_true, ofCompilation, hresult]
  rfl

end

end Pipeline

end Flowplan
