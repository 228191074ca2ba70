import Flowplan.Proofs.RuleFindings
import Flowplan.Workflow.Obstacle

namespace Flowplan
set_option autoImplicit true

open Flowplan.Json

/-- The collaborators answer every question, and the registry answers from a table. -/
structure Context.Dependable (c : Context) (registry : String → Option Action.Definition) :
    Prop where
  resolve : ∀ history slug, c.resolve history slug = .ok (registry slug)
  allows : ∀ history url, ∃ b, c.allows history url = .ok b

namespace Context.Dependable

theorem answers {c : Context} (h : c.Dependable registry) : c.Answers := by
  intro history call
  cases call with
  | allows url => exact h.allows history url
  | resolve slug =>
    rw [Context.answer, h.resolve]
    exact ⟨_, rfl⟩

theorem grants_resolve {c : Context} (h : c.Dependable registry) (history : List Call)
    (slug : String) : c.grants history (.resolve slug) = (registry slug).isSome := by
  rw [Context.grants, Context.answer, h.resolve]
  rfl

theorem after {c : Context} (h : c.Dependable registry) (calls : List Call) :
    (c.after calls).Dependable registry :=
  ⟨fun history slug => h.resolve (calls ++ history) slug,
    fun history url => h.allows (calls ++ history) url⟩

end Context.Dependable

/-- The rules that a plan has to keep to be compiled at all. -/
def Rule.refuses : Rule → Bool
  | .tooDeep _ => true
  | .unknownAction _ => true
  | _ => false

/-- The code with which a plan is refused that has an issue, if it is refused for it. -/
def Issue.refusalCode? (i : Issue) : Option String :=
  if i.code = "MAX_DEPTH_EXCEEDED" then some "MAX_DEPTH_EXCEEDED"
  else if i.code = "UNKNOWN_ACTION_SLUG" then some "UNKNOWN_CUSTOM_ACTION"
  else none

theorem Finding.isSome_refusalCode? (f : Finding) :
    f.toIssue.refusalCode?.isSome = f.rule.refuses := by
  obtain ⟨place, rule⟩ := f
  cases rule <;> rfl

namespace Site

/-- How a plan is refused for a site and what the rules find there, where it is refused. -/
def refused? (limit : Int) (registry : String → Option Action.Definition) :
    Site → Option (Refusal × Finding)
  | .step depth place s => match s with
    | .branch _ _ =>
      if limit ≤ depth then some (.tooDeep limit s, ⟨place, .tooDeep limit⟩) else none
    | .action slug _ =>
      if (registry slug).isSome then none
      else some (.unknownAction slug s, ⟨place ++ [.name "actionSlug"], .unknownAction slug⟩)
    | _ => none
  | .emptyCase _ _ => none
  | .emptyElse _ _ => none

theorem find?_violations (x : Site)
    (hg : ∀ slug, granted (.resolve slug) = (registry slug).isSome) :
    (x.violations limit granted).find? (·.rule.refuses) =
      (x.refused? limit registry).map Prod.snd := by
  cases x with
  | step depth place s =>
    cases s with
    | trigger path signed =>
      simp only [violations, refused?]
      split <;> split <;> rfl
    | slack channel text =>
      simp only [violations, refused?]
      split <;> rfl
    | request method url headers body =>
      simp only [violations, refused?]
      split <;> rfl
    | action slug input =>
      simp only [violations, refused?, hg]
      split <;> rfl
    | branch cases otherwise =>
      simp only [violations, refused?]
      split <;> rfl
    | filter condition => rfl
    | bare type => rfl
  | emptyCase depth place => rfl
  | emptyElse depth place => rfl

/-- The first report for which a plan is refused is that of the first site for which it is. -/
theorem find?_reports {context : Context} (hc : context.Dependable registry)
    (history : List Call) (xs : List Site) :
    (reports limit context history xs).find? (·.rule.refuses) =
      (xs.findSome? (refused? limit registry)).map Prod.snd := by
  induction xs generalizing history with
  | nil => rfl
  | cons x rest ih =>
    rw [reports, List.find?_append, find?_violations x (hc.grants_resolve history), ih,
      List.findSome?_cons]
    cases x.refused? limit registry <;> rfl

end Site

namespace Plan

/-- The first thing that a plan is refused for. -/
def refused? (limit : Int) (registry : String → Option Action.Definition) (p : Plan) :
    Option (Refusal × Finding) :=
  (p.sites.filter (Site.visited limit)).findSome? (Site.refused? limit registry)

theorem find?_findings {context : Context} (hc : context.Dependable registry) (p : Plan) :
    (p.findings limit context).find? (·.rule.refuses) =
      (p.refused? limit registry).map Prod.snd := by
  have hstart : p.startFindings.find? (·.rule.refuses) = none := by
    rw [startFindings]
    split <;> rfl
  have htriggers : p.triggerFindings.find? (·.rule.refuses) = none := by
    rw [triggerFindings]
    split <;> rfl
  rw [findings, List.find?_append, List.find?_append, hstart, htriggers, Option.none_or,
    Option.or_none, Site.find?_reports hc]
  rfl

end Plan

end Flowplan
