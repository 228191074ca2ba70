import Flowplan.Proofs.AcceptedPlan
import Flowplan.Proofs.CompileAgreement
import Flowplan.Proofs.CompiledNodes

namespace Flowplan
set_option autoImplicit true

open Flowplan.Json

namespace Builder

theorem Renders.type_eq {b : Builder} (h : b.Renders s n) :
    ∃ k, s.kind? = some k ∧ n.type = k.nodeType := by
  obtain ⟨m, hm, position, rfl⟩ := h
  exact hm.type_eq

/-- Triggers and nothing else are compiled to webhooks. -/
theorem Renders.webhook_iff {b : Builder} (h : b.Renders s n) :
    n.type = "n8n-nodes-base.webhook" ↔ s.kind? = some .trigger := by
  obtain ⟨k, hkind, htype⟩ := h.type_eq
  rw [hkind, htype]
  cases k <;> decide

/-- A workflow starts with the node of the first step. -/
theorem Compiles.exists_head {b : Builder} (h : b.Compiles (s :: rest) w) :
    ∃ n, w.nodes.head? = some n ∧ n.id = "node_000" ∧ b.Renders s n := by
  have hfirst : (Step.all (s :: rest))[0]? = some s := by
    rw [Step.all_eq_preorderList, Step.preorderList, Step.preorder_eq_cons]
    rfl
  obtain ⟨hlt, -⟩ := List.getElem?_eq_some_iff.1 hfirst
  rw [h.nodes.length_eq] at hlt
  have hn := List.getElem?_eq_getElem hlt
  obtain ⟨t, ht, hrenders⟩ := h.exists_step hn
  obtain rfl := Option.some.inj (ht.symm.trans hfirst)
  exact ⟨_, by rwa [List.head?_eq_getElem?], (h.id_eq hn).trans nodeId_zero, hrenders⟩

theorem Compiles.exists_entry {b : Builder} (h : b.Compiles steps w)
    (hstart : steps.head?.bind Step.kind? = some .trigger) :
    ∃ n, w.nodes.head? = some n ∧ n.id = "node_000" ∧ n.type = "n8n-nodes-base.webhook" := by
  obtain ⟨s, hhead, hkind⟩ := Option.bind_eq_some_iff.1 hstart
  obtain ⟨rest, rfl⟩ := List.head?_eq_some_iff.1 hhead
  obtain ⟨n, hn, hid, hrenders⟩ := h.exists_head
  exact ⟨n, hn, hid, hrenders.webhook_iff.2 hkind⟩

theorem Compiles.forall₂_nestedSteps {b : Builder} {p : Plan} (h : b.Compiles p.steps w) :
    List.Forall₂ (fun x n => b.Renders x.2 n) p.nestedSteps w.nodes := by
  have hnodes := h.nodes
  rwa [← p.steps_nestedSteps, List.forall₂_map_left_iff] at hnodes

end Builder

/-- A document that is compiled holds a plan whose checks find nothing, and the workflow is that of
its steps. -/
theorem Pipeline.exists_accepted
    (h : (ofSource (full settings options context) src).outcome = .ok result) :
    ∃ p calls, Plan.parse src = .ok (.ok p) ∧ p.Accepted settings.maxBranchDepth context ∧
      Builder.Compiles ⟨settings, context.after calls, p.name⟩ p.steps result.workflow := by
  unfold ofSource at h
  split at h
  · simp at h
  · rename_i parsed hparse
    cases parsed with
    | error ds => simp [full, invalid] at h
    | ok p =>
      obtain ⟨hne, hk⟩ := Plan.known_of_parse hparse
      simp only [full] at h
      split at h
      · rename_i hvalid
        exact ⟨p, _, hparse, Plan.accepted_of_valid hne hk hvalid,
          Compilation.compiles_of_outcome (mapError_eq_ok.1 h)⟩
      · simp [invalid] at h

/-- Each step of an accepted plan has a place at which its checks find nothing. -/
theorem Plan.Accepted.exists_checks {p : Plan} (h : p.Accepted limit context) :
    ∀ x ∈ p.nestedSteps, ∃ place, AllPass context ((Site.step x.1 place x.2).checks limit) := by
  intro x hx
  obtain ⟨place, hsite⟩ := Plan.exists_site hx
  exact ⟨place, h.sites _ hsite⟩

/-- A document with every kind of step, one of them a trigger inside a branch. -/
def Plan.branchingDocument : Json :=
  let condition : Json := .obj [("field", .str "a"), ("op", .str "gt"), ("value", .int 1)]
  let trigger (path : String) : Json := .obj [("type", .str "trigger.http"),
    ("path", .str path), ("secretHmac", .bool true)]
  let slack : Json := .obj [("type", .str "action.slack.postMessage"), ("channel", .str "#a"),
    ("text", .str "b")]
  let request : Json := .obj [("type", .str "action.http.request"), ("method", .str "GET"),
    ("url", .str "https://a")]
  let action : Json := .obj [("type", .str "custom.action"), ("actionSlug", .str "notify")]
  let way (steps : List Json) : Json := .obj [("when", condition), ("steps", .arr steps)]
  let branch (ways otherwise : List Json) : Json := .obj [("type", .str "branch"),
    ("cases", .arr ways), ("else", .arr otherwise)]
  .obj [("version", .str "1"), ("name", .str "P"), ("steps", .arr [
    trigger "/in", branch [way [request, trigger "/below"], way [slack]] [action],
    .obj [("type", .str "filter"), ("when", condition)]])]

/-- A registry of one action. -/
def notifyOnly (slug : String) : Option Action.Definition :=
  if slug = "notify" then some ⟨"notify", "https://b", "POST", none, none, []⟩ else none

/-- Collaborators that allow one URL and know one action. -/
def Context.small : Context :=
  ⟨"org", fun _ url => .ok (url == "https://a"), fun _ slug => .ok (notifyOnly slug)⟩

theorem Context.small_dependable : Context.small.Dependable notifyOnly :=
  ⟨fun _ _ => rfl, fun _ _ => ⟨_, rfl⟩⟩

/-- A document whose plan is valid is compiled. -/
theorem Pipeline.exists_outcome_of_parse? {context : Context} (settings : Settings)
    (hc : context.Dependable registry)
    (h : (Plan.parse? src).map (fun p =>
      (Validation.ofPlan settings.maxBranchDepth context p).valid) = some true) :
    ∃ result, (ofSource (full settings (.ofSettings settings) context) src).outcome =
      .ok result := by
  obtain ⟨p, hp, hvalid⟩ := Option.map_eq_some_iff.1 h
  have hparse := Plan.parse?_eq_some hp
  obtain ⟨hne, hk⟩ := Plan.known_of_parse hparse
  obtain ⟨result, hresult⟩ :=
    exists_outcome_of_valid settings hc (.ofSettings settings) hne hk hvalid
  refine ⟨result, ?_⟩
  rw [ofSource, hparse]
  exact hresult

theorem Pipeline.exists_outcome_of_branchingDocument : ∃ result,
    (ofSource (full .default .default .small) (.value Plan.branchingDocument)).outcome =
      .ok result :=
  exists_outcome_of_parse? .default Context.small_dependable (by decide +kernel)

end Flowplan
