import Flowplan.Proofs.ReadPlan
import Flowplan.Proofs.SiteRules

namespace Flowplan
set_option autoImplicit true

open Flowplan.Json

theorem Text.startsWith_eq_head? (s : String) (c : Char) :
    Text.startsWith s (String.singleton c) = decide (s.toList.head? = some c) := by
  rw [startsWith, String.toList_singleton]
  cases s.toList with
  | nil => rfl
  | cons d rest =>
    rw [List.isPrefixOf, List.isPrefixOf, Bool.and_true, List.head?_cons]
    by_cases h : c = d
    · simp [h]
    · have h' : ¬ d = c := fun he => h he.symm
      simp [h, h']

namespace Inspection

theorem run_ofWebhookPath (context : Context) (history : List Call) (place : Locator)
    (path : String) :
    run context history (Check.ofWebhookPath place path) =
      ⟨(if path.toList.head? = some '/' then []
          else [⟨place ++ [.name "path"], .webhookPath path⟩]) ++
        (if ' ' ∈ path.toList ∨ '?' ∈ path.toList then
          [⟨place ++ [.name "path"], .webhookPathFormat path⟩] else []), history, none⟩ := by
  have hslash : Text.startsWith path "/" = decide (path.toList.head? = some '/') :=
    Text.startsWith_eq_head? path '/'
  rw [Check.ofWebhookPath, run_append _ (run_brokenIf ..), run_brokenIf, hslash]
  simp

theorem run_ofChannel (context : Context) (history : List Call) (place : Locator)
    (channel : String) :
    run context history (Check.ofChannel place channel) =
      ⟨if channel.toList.head? = some '#' ∨ channel.toList.head? = some '@' then []
        else [⟨place ++ [.name "channel"], .slackChannel channel⟩], history, none⟩ := by
  have hhash : Text.startsWith channel "#" = decide (channel.toList.head? = some '#') :=
    Text.startsWith_eq_head? channel '#'
  have hat : Text.startsWith channel "@" = decide (channel.toList.head? = some '@') :=
    Text.startsWith_eq_head? channel '@'
  rw [Check.ofChannel, run_brokenIf, hhash, hat]
  by_cases h : channel.toList.head? = some '#' <;>
    by_cases h' : channel.toList.head? = some '@' <;> simp [h, h']

/-- The checks of a site find what is broken there and make the site's call. -/
theorem run_checks {context : Context} (hc : context.Answers) (history : List Call) (x : Site) :
    run context history (x.checks limit) =
      ⟨x.violations limit (context.grants history), history ++ x.calls, none⟩ := by
  cases x with
  | step depth place s =>
    cases s with
    | trigger path signed =>
      simp only [Site.calls, List.append_nil]
      exact run_ofWebhookPath context history place path
    | slack channel text =>
      simp only [Site.calls, List.append_nil]
      exact run_ofChannel context history place channel
    | request method url headers body => exact run_ask hc history _ _
    | action slug input => exact run_ask hc history _ _
    | branch cases otherwise =>
      simp only [Site.calls, List.append_nil, Site.checks, Site.violations]
      split <;> rfl
    | filter condition =>
      simp only [Site.calls, List.append_nil]
      rfl
    | bare type =>
      simp only [Site.calls, List.append_nil]
      rfl
  | emptyCase depth place =>
    simp only [Site.calls, List.append_nil]
    rfl
  | emptyElse depth place =>
    simp only [Site.calls, List.append_nil]
    rfl

theorem run_flatMap_checks {context : Context} (hc : context.Answers) (history : List Call)
    (xs : List Site) :
    run context history (xs.flatMap (Site.checks limit)) =
      ⟨Site.reports limit context history xs, history ++ xs.flatMap Site.calls, none⟩ := by
  induction xs generalizing history with
  | nil => simp only [List.flatMap_nil, List.append_nil, run, Site.reports]
  | cons x rest ih =>
    rw [List.flatMap_cons, run_append _ (run_checks hc history x), ih, Site.reports,
      List.flatMap_cons, List.append_assoc]

end Inspection

namespace Plan

/-- A plan starts with a trigger. -/
def startFindings (p : Plan) : List Finding :=
  if p.steps.head?.bind Step.kind? = some .trigger then []
  else [⟨[.name "steps", .index 0, .name "type"], .startsWithoutTrigger⟩]

/-- A plan has no second trigger among its own steps. -/
def triggerFindings (p : Plan) : List Finding :=
  if 1 < p.steps.countP (fun s => s.kind? = some .trigger) then [⟨[.name "steps"], .manyTriggers⟩]
  else []

/-- All broken rules of a plan in the order of the document: how it starts, its sites as far as
they are looked at, its triggers. -/
def findings (limit : Int) (context : Context) (p : Plan) : List Finding :=
  p.startFindings ++ Site.reports limit context [] (p.sites.filter (Site.visited limit)) ++
    p.triggerFindings

end Plan

namespace Step

theorem mem_preorderList (h : s ∈ steps) : s ∈ preorderList steps := by
  induction steps with
  | nil => exact absurd h List.not_mem_nil
  | cons t rest ih =>
    rw [preorderList, List.mem_append, preorder_eq_cons]
    rcases List.mem_cons.1 h with rfl | h
    · exact .inl List.mem_cons_self
    · exact .inr (ih h)

theorem isTrigger?_of_known {s : Step} (h : s.Known) :
    s.isTrigger? = some (decide (s.kind? = some .trigger)) := by
  cases s with
  | bare type => exact absurd h id
  | _ => rfl

theorem mapM_isTrigger? {steps : List Step} (h : ∀ s ∈ steps, s.Known) :
    steps.mapM isTrigger? = some (steps.map fun s => decide (s.kind? = some .trigger)) := by
  induction steps with
  | nil => rfl
  | cons s rest ih =>
    rw [List.mapM_cons, isTrigger?_of_known (h s List.mem_cons_self),
      ih fun t ht => h t (List.mem_cons_of_mem _ ht)]
    rfl

end Step

/-- Whether a value is a step that starts a workflow, by the type that it states. -/
def Json.isTrigger (v : Json) : Bool :=
  match v.part? (.name "type") with
  | some (.str type) => Step.isTriggerType type
  | _ => false

namespace Inspection

theorem run_ofStart (context : Context) (history : List Call) {p : Plan} (hne : p.steps ≠ [])
    (hk : Step.AllKnown p.steps) :
    run context history (Check.ofStart p.steps) = ⟨p.startFindings, history, none⟩ := by
  obtain ⟨version, name, steps⟩ := p
  cases steps with
  | nil => exact absurd rfl hne
  | cons s rest =>
    have hs : s.Known := hk s (Step.mem_preorderList List.mem_cons_self)
    simp only [Check.ofStart, Step.isTrigger?_of_known hs, run_brokenIf, Plan.startFindings,
      List.head?_cons, Option.bind_some]
    by_cases h : s.kind? = some .trigger <;> simp [h]

theorem run_ofTriggers (context : Context) (history : List Call) {p : Plan}
    (hk : Step.AllKnown p.steps) :
    run context history (Check.ofTriggers p.steps) = ⟨p.triggerFindings, history, none⟩ := by
  have hmap := Step.mapM_isTrigger? fun s hs => hk s (Step.mem_preorderList hs)
  rw [Check.ofTriggers, hmap]
  simp only [run_brokenIf, Plan.triggerFindings, List.count_eq_countP, List.countP_map]
  simp [Function.comp_def]

/-- The checks of a plan with known steps, made by collaborators that answer, find all its broken
rules and are not interrupted. -/
theorem run_ofPlan {context : Context} (hc : context.Answers) {p : Plan} (hne : p.steps ≠ [])
    (hk : Step.AllKnown p.steps) :
    run context [] (Check.ofPlan limit p) =
      ⟨p.findings limit context,
        (p.sites.filter (Site.visited limit)).flatMap Site.calls, none⟩ := by
  rw [Check.ofPlan, Check.ofSteps_eq_flatMap _ 0 p.steps (WithinLimit.zero limit),
    List.append_assoc, run_append _ (run_ofStart context [] hne hk),
    run_append _ (run_flatMap_checks hc [] _), run_ofTriggers context _ hk, Plan.findings,
    List.append_assoc]
  rfl

end Inspection

end Flowplan
