import Flowplan.Compile
import Flowplan.Proofs.AcceptedWorkflow
import Flowplan.Proofs.RegisteredActions

/-!
What the rules and the compiler tell of a registry. Main statement: an organization finds what the
newest registrations that it can see say, and those for other organizations or under slugs that a
document does not use change nothing of what comes of it.
-/

namespace Flowplan
set_option autoImplicit true

open Flowplan.Action

variable {slugs : String → Bool} {c c' : Context}

/-- Not a step of an action under another slug. -/
def Step.Within (slugs : String → Bool) : Step → Prop
  | .action slug _ => slugs slug = true
  | _ => True

/-- The same organization and hosts, and the same answers about some of the actions. -/
structure Context.AgreeOn (slugs : String → Bool) (c c' : Context) : Prop where
  org : c'.org = c.org
  allows : c'.allows = c.allows
  resolve : ∀ history slug, slugs slug = true → c'.resolve history slug = c.resolve history slug

theorem Context.AgreeOn.after (h : AgreeOn slugs c c') (calls : List Call) :
    AgreeOn slugs (c.after calls) (c'.after calls) where
  org := h.org
  allows := by rw [Context.after, Context.after, h.allows]
  resolve history := h.resolve (calls ++ history)

/-- Not a question about an action under another slug. -/
def Check.Within (slugs : String → Bool) : Check → Prop
  | .ask (.resolve slug) _ => slugs slug = true
  | _ => True

namespace Check

theorem within_brokenIf (h : check ∈ brokenIf bad place rule) : check.Within slugs := by
  rw [brokenIf] at h
  split at h
  · rw [List.mem_singleton.1 h]
    trivial
  · exact absurd h List.not_mem_nil

theorem within_ofStart (h : check ∈ ofStart steps) : check.Within slugs := by
  cases steps with
  | nil =>
    rw [List.mem_singleton.1 h]
    trivial
  | cons s rest =>
    rw [ofStart] at h
    split at h
    · rw [List.mem_singleton.1 h]
      trivial
    · exact within_brokenIf h

theorem within_ofTriggers (h : check ∈ ofTriggers steps) : check.Within slugs := by
  rw [ofTriggers] at h
  split at h
  · rw [List.mem_singleton.1 h]
    trivial
  · exact within_brokenIf h

theorem within_checks {x : Site} (hx : ∀ s, x.step? = some s → s.Within slugs)
    (h : check ∈ x.checks limit) : check.Within slugs := by
  cases x with
  | step depth place s =>
    have hs := hx s rfl
    cases s with
    | trigger path signed => exact (List.mem_append.1 h).elim within_brokenIf within_brokenIf
    | slack channel text => exact within_brokenIf h
    | request method url headers body =>
      rw [List.mem_singleton.1 h]
      trivial
    | action slug input =>
      rw [List.mem_singleton.1 h]
      exact hs
    | branch cases otherwise =>
      rw [Site.checks] at h
      split at h
      · rw [List.mem_singleton.1 h]
        trivial
      · exact absurd h List.not_mem_nil
    | filter condition => exact absurd h List.not_mem_nil
    | bare type => exact absurd h List.not_mem_nil
  | emptyCase depth place =>
    rw [List.mem_singleton.1 h]
    trivial
  | emptyElse depth place =>
    rw [List.mem_singleton.1 h]
    trivial

/-- The rules ask about no action but those of the steps. -/
theorem within_ofPlan {p : Plan} (hp : ∀ s ∈ Step.all p.steps, s.Within slugs)
    (h : check ∈ ofPlan limit p) : check.Within slugs := by
  rw [ofPlan, List.mem_append, List.mem_append] at h
  rcases h with (h | h) | h
  · exact within_ofStart h
  · rw [ofSteps_eq_flatMap _ 0 p.steps (.zero limit), List.mem_flatMap] at h
    obtain ⟨x, hx, hcheck⟩ := h
    refine within_checks (fun s hs => hp s ?_) hcheck
    rw [Step.all_eq_preorderList, ← Step.steps_sitesList 0 [.name "steps"] 0 p.steps]
    exact List.mem_filterMap.2 ⟨x, List.mem_of_mem_filter hx, hs⟩
  · exact within_ofTriggers h

end Check

theorem Context.AgreeOn.answer_eq (h : AgreeOn slugs c c')
    (hcheck : (Check.ask call otherwise).Within slugs) (history : List Call) :
    c'.answer history call = c.answer history call := by
  cases call with
  | allows url => rw [answer, answer, h.allows]
  | resolve slug => rw [answer, answer, h.resolve history slug hcheck]

theorem Inspection.run_of_agreeOn (h : c.AgreeOn slugs c') {checks : List Check}
    (hchecks : ∀ check ∈ checks, check.Within slugs) (history : List Call) :
    run c' history checks = run c history checks := by
  induction checks generalizing history with
  | nil => rfl
  | cons check rest ih =>
    have hrest := ih fun check hc => hchecks check (List.mem_cons_of_mem _ hc)
    cases check with
    | broken f => rw [run, run, hrest]
    | noType => rfl
    | ask call otherwise =>
      rw [run, run, h.answer_eq (hchecks _ List.mem_cons_self), hrest]

theorem Validation.ofPlan_of_agreeOn (h : c.AgreeOn slugs c') {p : Plan}
    (hp : ∀ s ∈ Step.all p.steps, s.Within slugs) (limit : Int) :
    ofPlan limit c' p = ofPlan limit c p := by
  have hchecks : ∀ check ∈ Check.ofPlan limit p, check.Within slugs := fun _ =>
    Check.within_ofPlan hp
  have hrun := Inspection.run_of_agreeOn h hchecks []
  simp only [ofPlan, hrun, logOf, h.org]

namespace Builder

open Step

variable {settings : Settings} {name : String}

theorem node_of_agreeOn (h : c.AgreeOn slugs c') (hs : s.Within slugs) (id : String) :
    (Builder.mk settings c' name).node id s = (Builder.mk settings c name).node id s := by
  cases s with
  | action slug input =>
    have hresolve : Build.resolve c' slug = Build.resolve c slug := by
      simp only [Build.resolve, h.resolve _ slug hs]
    simp only [node, hresolve]
  | _ => rfl

theorem own_of_agreeOn (h : c.AgreeOn slugs c') (hs : s.Within slugs) (depth index : Int) :
    (Builder.mk settings c' name).own depth index s =
      (Builder.mk settings c name).own depth index s := by
  have hcount : (Builder.mk settings c' name).outputCount? s =
      (Builder.mk settings c name).outputCount? s := by
    cases s <;> rfl
  simp only [own, node_of_agreeOn h hs, hcount]

mutual

theorem flattenStep_of_agreeOn (h : c.AgreeOn slugs c') (s : Step)
    (hs : ∀ t ∈ preorder s, t.Within slugs) (depth index : Int) :
    (Builder.mk settings c' name).flattenStep depth index s =
      (Builder.mk settings c name).flattenStep depth index s := by
  cases s with
  | branch cases otherwise =>
    rw [preorder] at hs
    simp only [flattenStep, own_of_agreeOn h (hs _ List.mem_cons_self),
      flattenCases_of_agreeOn h cases fun t ht =>
        hs t (List.mem_cons_of_mem _ (List.mem_append_left _ ht)),
      flattenElse_of_agreeOn h otherwise fun t ht =>
        hs t (List.mem_cons_of_mem _ (List.mem_append_right _ ht))]
  | _ => exact own_of_agreeOn h (hs _ List.mem_cons_self) depth index

theorem flattenCases_of_agreeOn (h : c.AgreeOn slugs c') (cases : List (Case Step))
    (hs : ∀ t ∈ preorderCases cases, t.Within slugs) (depth index : Int) :
    (Builder.mk settings c' name).flattenCases depth index cases =
      (Builder.mk settings c name).flattenCases depth index cases := by
  match cases with
  | [] => rfl
  | ⟨_, steps⟩ :: rest =>
    simp only [flattenCases,
      flattenList_of_agreeOn h steps fun t ht => hs t (List.mem_append_left _ ht),
      flattenCases_of_agreeOn h rest fun t ht => hs t (List.mem_append_right _ ht)]

theorem flattenElse_of_agreeOn (h : c.AgreeOn slugs c') (otherwise : Member (List Step))
    (hs : ∀ t ∈ preorderElse otherwise, t.Within slugs) (depth index : Int) :
    (Builder.mk settings c' name).flattenElse depth index otherwise =
      (Builder.mk settings c name).flattenElse depth index otherwise := by
  match otherwise with
  | .absent => rfl
  | .null => rfl
  | .given steps => exact flattenList_of_agreeOn h steps hs depth index

theorem flattenList_of_agreeOn (h : c.AgreeOn slugs c') (steps : List Step)
    (hs : ∀ t ∈ preorderList steps, t.Within slugs) (depth index : Int) :
    (Builder.mk settings c' name).flattenList depth index steps =
      (Builder.mk settings c name).flattenList depth index steps := by
  match steps with
  | [] => rfl
  | s :: rest =>
    simp only [flattenList,
      flattenStep_of_agreeOn h s fun t ht => hs t (List.mem_append_left _ ht),
      flattenList_of_agreeOn h rest fun t ht => hs t (List.mem_append_right _ ht)]

end

end Builder

theorem Compilation.ofPlan_of_agreeOn (h : c.AgreeOn slugs c') {p : Plan}
    (hp : ∀ s ∈ Step.all p.steps, s.Within slugs) (settings : Settings)
    (options : Layout.Options) : ofPlan settings options c' p = ofPlan settings options c p := by
  have hflatten : (Builder.mk settings c' p.name).flatten 0 0 p.steps =
      (Builder.mk settings c p.name).flatten 0 0 p.steps := by
    rw [Step.all_eq_preorderList] at hp
    rw [Builder.flatten, Builder.flatten, Builder.flattenList_of_agreeOn h p.steps hp]
  have hworkflow : workflow settings options c' p = workflow settings options c p := by
    rw [workflow, workflow, graph, graph, hflatten]
  simp only [ofPlan, hworkflow, startLog, successLog, failureLog, h.org]

/-- The plan in a document has no steps of actions under other slugs. -/
def Plan.Source.Within (slugs : String → Bool) (src : Source) : Prop :=
  ∀ p, Plan.parse src = .ok (.ok p) → ∀ s ∈ Step.all p.steps, s.Within slugs

theorem Validation.ofSource_of_agreeOn (h : c.AgreeOn slugs c') (hsrc : src.Within slugs)
    (limit : Int) : ofSource limit c' src = ofSource limit c src := by
  rw [ofSource, ofSource]
  cases hparse : Plan.parse src with
  | error e => rfl
  | ok parsed => cases parsed with
    | error ds => rfl
    | ok p => exact congrArg Except.ok (ofPlan_of_agreeOn h (hsrc p hparse) limit)

theorem Pipeline.ofSource_of_agreeOn (h : c.AgreeOn slugs c') (hsrc : src.Within slugs)
    (settings : Settings) (options : Layout.Options) :
    ofSource (full settings options c') src = ofSource (full settings options c) src := by
  rw [ofSource, ofSource]
  cases hparse : Plan.parse src with
  | error e => rfl
  | ok parsed => cases parsed with
    | error ds => rfl
    | ok p =>
      simp only [full, Validation.ofPlan_of_agreeOn h (hsrc p hparse),
        Compilation.ofPlan_of_agreeOn (h.after _) (hsrc p hparse)]

/-- A registry that answers for an organization, beside any hosts. -/
def Context.ofRegistry (org : String) (allows : List Call → String → Except Outage Bool)
    (registry : Registry) : Context where
  org := org
  allows := allows
  resolve _ slug := .ok (registry.lookUp slug org)

namespace Action.History

open Registration

/-- Whatever a registry has been through, an organization finds the newest action that is registered
for it, else the newest that is registered for all, else one that was there at first. What it cannot
see under the slugs that it asks for may be left out, added or moved anywhere: neither what it finds
nor what comes of a document with these slugs changes. -/
theorem finds_newest_visible {h : History} (hr : h.registry = .ok r) : ∃ es,
    h.registrations = .ok es ∧
    (∀ slug org, r.lookUp slug org =
      ((newest? (isOwned org slug) es).or (newest? (isShared slug) es)).or
        (Table.get? (Table.ofPairs h.origin.initial) slug)) ∧
    ∀ org slugs (h' : History) r' es', h'.registry = .ok r' → h'.registrations = .ok es' →
      es'.filter (isVisible org slugs) = es.filter (isVisible org slugs) →
      (∀ slug, slugs slug = true → Table.get? (Table.ofPairs h'.origin.initial) slug =
        Table.get? (Table.ofPairs h.origin.initial) slug) →
      (∀ slug, slugs slug = true → r'.lookUp slug org = r.lookUp slug org) ∧
      ∀ allows src, src.Within slugs →
        (∀ limit, Validation.ofSource limit (.ofRegistry org allows r') src =
          Validation.ofSource limit (.ofRegistry org allows r) src) ∧
        ∀ settings options,
          Pipeline.ofSource (.full settings options (.ofRegistry org allows r')) src =
            Pipeline.ofSource (.full settings options (.ofRegistry org allows r)) src := by
  obtain ⟨es, hes, rfl⟩ := exists_registrations hr
  refine ⟨es, hes, Registry.lookUp_enterAll h.origin.initial es, ?_⟩
  intro org slugs h' r' es' hr' hes' hvisible hinitial
  obtain ⟨fs, hfs, rfl⟩ := exists_registrations hr'
  obtain rfl := Except.ok.inj (hes'.symm.trans hfs)
  have hfind (slug : String) (hslug : slugs slug = true) :
      ((Registry.ofShared h'.origin.initial).enterAll es').lookUp slug org =
        ((Registry.ofShared h.origin.initial).enterAll es).lookUp slug org := by
    rw [Registry.lookUp_enterAll, Registry.lookUp_enterAll, hinitial slug hslug,
      newest?_of_visible (isVisible_of_isOwned hslug) hvisible,
      newest?_of_visible (isVisible_of_isShared hslug) hvisible]
  refine ⟨hfind, fun allows src hsrc => ?_⟩
  have hagree : Context.AgreeOn slugs
      (.ofRegistry org allows ((Registry.ofShared h.origin.initial).enterAll es))
      (.ofRegistry org allows ((Registry.ofShared h'.origin.initial).enterAll es')) :=
    ⟨rfl, rfl, fun _ slug hslug => congrArg Except.ok (hfind slug hslug)⟩
  exact ⟨Validation.ofSource_of_agreeOn hagree hsrc, Pipeline.ofSource_of_agreeOn hagree hsrc⟩

/-- One shared action. -/
def shared : History :=
  ⟨.descriptions (.obj [("notify", .obj [("url", .str "https://b")])]), []⟩

/-- The same, but for an action under another slug and one that another organization puts in the place
of the shared one. -/
def crowded : History :=
  ⟨.descriptions (.obj [("other", .obj [("url", .str "https://c"), ("org_id", .null)]),
      ("notify", .obj [("url", .str "https://b")])]),
    [⟨.org "elsewhere", ⟨"notify", "https://d", "GET", none, none, []⟩⟩]⟩

theorem finds_newest_visible_crowded : ∃ r r', crowded.registry = .ok r ∧
    shared.registry = .ok r' ∧
    (r.lookUp "notify" "elsewhere").map Definition.url = some "https://d" ∧
    r'.lookUp "notify" "org" = r.lookUp "notify" "org" ∧
    (Plan.Source.value Plan.branchingDocument).Within (· == "notify") ∧
    ∀ allows, Pipeline.ofSource (.full .default .default (.ofRegistry "org" allows r'))
        (.value Plan.branchingDocument) =
      Pipeline.ofSource (.full .default .default (.ofRegistry "org" allows r))
        (.value Plan.branchingDocument) := by
  have hsrc : (Plan.Source.value Plan.branchingDocument).Within (· == "notify") := by
    have hall : (Plan.parse? (.value Plan.branchingDocument)).all (fun p =>
        (Step.preorderList p.steps).all fun s => match s with
          | .action slug _ => slug == "notify"
          | _ => true) = true := by
      decide +kernel
    intro p hparse s hs
    rw [Plan.parse?, hparse, Option.all_some, List.all_eq_true] at hall
    rw [Step.all_eq_preorderList] at hs
    have hslug := hall s hs
    cases s with
    | action slug input => exact hslug
    | _ => trivial
  obtain ⟨es, hes, hlookUp, hsame⟩ := finds_newest_visible (h := crowded) rfl
  obtain ⟨hfind, hdocument⟩ := hsame "org" (· == "notify") shared _ _ rfl rfl
    (by cases hes; rfl) (fun _ _ => rfl)
  exact ⟨_, _, rfl, rfl, rfl, hfind "notify" rfl, hsrc,
    fun allows => (hdocument allows _ hsrc).2 .default .default⟩

end Action.History
end Flowplan
