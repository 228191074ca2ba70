import Flowplan.Proofs.FlattenObstacle
import Flowplan.Proofs.SiteRefusals

/-!
The obstacles of a plan that was read from a document, where the registry answers every question, are
what the plan is refused for.
-/

namespace Flowplan
set_option autoImplicit true

theorem Context.Dependable.steady {c : Context} (h : c.Dependable registry) :
    c.Steady fun slug => .ok (registry slug) :=
  h.resolve

namespace Site

/-- Nothing stands in the way of a known step but what it is refused for. -/
theorem obstacle?_of_known {s : Step} (hs : s.Known) (depth : Nat) (place : Locator) :
    s.obstacle? limit (fun slug => .ok (registry slug)) depth =
      ((Site.step depth place s).refused? limit registry).map fun refused => .refusal refused.1 := by
  cases s with
  | branch cases otherwise =>
    have hcases : cases.findSome? (fun c => c.condition.op.obstacle? (.branch cases otherwise)) =
        none :=
      List.findSome?_eq_none_iff.2 fun c hc => Operator.obstacle?_of_known (hs c hc) _
    simp only [Step.obstacle?, Step.kind?, true_and, refused?, Step.nodeObstacle?, hcases]
    split <;> rfl
  | action slug input =>
    simp only [refused?]
    cases hslug : registry slug <;> simp [Step.obstacle?, Step.kind?, Step.nodeObstacle?, hslug]
  | filter c => exact Operator.obstacle?_of_known hs _
  | bare type => exact False.elim hs
  | _ => rfl

end Site

theorem Course.obstacle_along_sites {xs : List Site}
    (h : ∀ s ∈ xs.filterMap Site.step?, s.Known) :
    (along limit (fun slug => .ok (registry slug)) (xs.filterMap Site.nested?)).obstacle =
      (xs.findSome? (Site.refused? limit registry)).map fun refused => .refusal refused.1 := by
  induction xs with
  | nil => rfl
  | cons x rest ih =>
    cases x with
    | step depth place s =>
      obtain ⟨hs, hrest⟩ := List.forall_mem_cons.1 h
      change (andThen ⟨s.obstacle? limit _ depth, s.lookups⟩ _).obstacle = _
      rw [Site.obstacle?_of_known hs depth place, List.findSome?_cons]
      cases (Site.step depth place s).refused? limit registry with
      | some refused => rfl
      | none => exact ih hrest
    | emptyCase depth place => exact ih h
    | emptyElse depth place => exact ih h

namespace Step

/-- Something is found at every branch that is too deep. -/
def FindsDeep {α : Type} (limit : Int) (f : Site → Option α) : Prop :=
  ∀ (depth : Nat) place cases otherwise, limit ≤ depth →
    (f (.step depth place (.branch cases otherwise))).isSome = true

section

variable {α : Type} {limit : Int} {f : Site → Option α}

mutual

/-- Where something is found at every branch that is too deep, it does not matter that nothing below
such a branch is in view. -/
theorem findSome?_visited_sites (hf : FindsDeep limit f) (hd : WithinLimit limit depth)
    (place : Locator) (s : Step) :
    ((sites depth place s).filter (Site.visited limit)).findSome? f =
      (sites depth place s).findSome? f := by
  have hv : (Site.step depth place s).visited limit = true := Site.visited_iff.2 hd
  cases s with
  | branch cases otherwise =>
    rw [sites, List.filter_cons_of_pos hv, List.findSome?_cons, List.findSome?_cons]
    cases hfound : f (.step depth place (.branch cases otherwise)) with
    | some a => rfl
    | none =>
      have hdeep : ¬ limit ≤ depth := by
        intro hle
        have hsome := hf depth place cases otherwise hle
        simp [hfound] at hsome
      have hd' := hd.succ hdeep
      simp only [List.filter_append, List.findSome?_append,
        findSome?_visited_sitesCases hf hd' place 0 cases,
        findSome?_visited_sitesElse hf hd' place otherwise]
  | _ =>
    rw [sites, List.filter_cons_of_pos hv]
    rfl

theorem findSome?_visited_sitesCases (hf : FindsDeep limit f) (hd : WithinLimit limit depth)
    (place : Locator) (i : Nat) (cases : List (Case Step)) :
    ((sitesCases depth place i cases).filter (Site.visited limit)).findSome? f =
      (sitesCases depth place i cases).findSome? f := by
  match cases with
  | [] => rfl
  | ⟨condition, steps⟩ :: rest =>
    rw [sitesCases, List.filter_append, List.findSome?_append, List.findSome?_append,
      findSome?_visited_sitesCases hf hd place (i + 1) rest]
    congr 1
    cases steps with
    | nil =>
      rw [if_pos List.isEmpty_nil, List.filter_cons_of_pos (Site.visited_iff.2 hd)]
      rfl
    | cons s steps => exact findSome?_visited_sitesList hf hd _ 0 (s :: steps)

theorem findSome?_visited_sitesElse (hf : FindsDeep limit f) (hd : WithinLimit limit depth)
    (place : Locator) (otherwise : Member (List Step)) :
    ((sitesElse depth place otherwise).filter (Site.visited limit)).findSome? f =
      (sitesElse depth place otherwise).findSome? f := by
  match otherwise with
  | .absent => rfl
  | .null => rfl
  | .given [] =>
    rw [sitesElse, if_pos List.isEmpty_nil, List.filter_cons_of_pos (Site.visited_iff.2 hd)]
    rfl
  | .given (s :: steps) => exact findSome?_visited_sitesList hf hd _ 0 (s :: steps)

theorem findSome?_visited_sitesList (hf : FindsDeep limit f) (hd : WithinLimit limit depth)
    (place : Locator) (i : Nat) (steps : List Step) :
    ((sitesList depth place i steps).filter (Site.visited limit)).findSome? f =
      (sitesList depth place i steps).findSome? f := by
  match steps with
  | [] => rfl
  | s :: rest =>
    rw [sitesList, List.filter_append, List.findSome?_append, List.findSome?_append,
      findSome?_visited_sites hf hd _ s, findSome?_visited_sitesList hf hd place (i + 1) rest]

end

end

end Step

/-- What stops the compilation of a known plan is what the plan is refused for. -/
theorem Plan.obstacle_along (limit : Int) (registry : String → Option Action.Definition) {p : Plan}
    (hk : Step.AllKnown p.steps) :
    (Course.along limit (fun slug => .ok (registry slug)) p.nestedSteps).obstacle =
      (p.refused? limit registry).map fun refused => .refusal refused.1 := by
  have hknown : ∀ s ∈ p.sites.filterMap Site.step?, s.Known := by
    rw [p.steps_sites, Step.all_eq_preorderList]
    exact hk
  have hdeep : Step.FindsDeep limit (Site.refused? limit registry) := by
    intro depth place cases otherwise hd
    simp only [Site.refused?, if_pos hd, Option.isSome_some]
  rw [Plan.refused?, Plan.sites, Step.findSome?_visited_sitesList hdeep (WithinLimit.zero limit)]
  exact Course.obstacle_along_sites hknown

end Flowplan
