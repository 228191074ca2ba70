import Flowplan.Proofs.AcceptedWorkflow
import Flowplan.Proofs.SettingsBounds

namespace Flowplan
set_option autoImplicit true

open Flowplan.Json
open Flowplan.Action (Definition)

variable {allows : String → Except Outage Bool}
  {registry : String → String → Except Outage (Option Definition)}

/-- Collaborators whose answers depend on the question alone. They need not answer every one. -/
structure Context.Stateless (c : Context) (allows : String → Except Outage Bool)
    (registry : String → String → Except Outage (Option Definition)) : Prop where
  allows : ∀ history url, c.allows history url = allows url
  resolve : ∀ history slug, c.resolve history slug = registry slug c.org

theorem Context.Stateless.after {c : Context} (h : c.Stateless allows registry)
    (calls : List Call) : (c.after calls).Stateless allows registry :=
  ⟨fun history url => h.allows (calls ++ history) url,
    fun history slug => h.resolve (calls ++ history) slug⟩

/-- What can be relied on in the node of a step with so many branches around it. -/
structure Node.Safe (settings : Settings) (allows : String → Except Outage Bool)
    (find : String → Except Outage (Option Definition)) (depth : Nat) (s : Step) (n : Node) :
    Prop where
  name_length : (n.name.length : Int) ≤ settings.maxNodeNameLength
  name_chars : ∀ c ∈ n.name.toList, c.isAlphanum = true ∨ c = '_'
  webhook : n.type = "n8n-nodes-base.webhook" → ∃ path,
    Table.get? n.parameters "path" = some (.str path) ∧
      path.toList.head? = some '/' ∧ ' ' ∉ path.toList ∧ '?' ∉ path.toList
  slack : n.type = "n8n-nodes-base.slack" → ∃ channel,
    Table.get? n.parameters "channel" = some (.str channel) ∧
      (channel.toList.head? = some '#' ∨ channel.toList.head? = some '@')
  request : n.type = "n8n-nodes-base.httpRequest" → ∃ url,
    Table.get? n.parameters "url" = some (.str url) ∧
      ((∃ method headers body, s = .request method url headers body ∧ allows url = .ok true) ∨
        ∃ slug input d, s = .action slug input ∧ find slug = .ok (some d) ∧ d.url = url)
  switch : n.type = "n8n-nodes-base.switch" →
    (∃ cases otherwise, s = .branch cases otherwise) ∧ (depth : Int) < settings.maxBranchDepth

theorem length_nodeName (hs : 0 ≤ settings.maxNodeNameLength) (label : String) :
    ((nodeName settings label).length : Int) ≤ settings.maxNodeNameLength := by
  have hlength : (nodeName settings label).length ≤ settings.maxNodeNameLength.toNat := by
    rw [nodeName, Text.cut, String.length_ofList, if_neg (by omega)]
    exact List.length_take_le _ _
  omega

theorem isNameChar_of_mem_nodeName (h : c ∈ (nodeName settings label).toList) :
    c.isAlphanum = true ∨ c = '_' := by
  rw [nodeName, Text.cut, String.toList_ofList] at h
  have hmem := List.mem_of_mem_take h
  rw [String.toList_map] at hmem
  obtain ⟨d, -, rfl⟩ := List.mem_map.1 hmem
  split
  · rename_i hd
    simpa [isNameChar] using hd
  · exact .inr rfl

namespace Builder

variable {b : Builder} {id : String} {context : Context}

theorem Builds.exists_label (h : b.Builds id s n) : ∃ label, n.name = nodeName b.settings label := by
  cases h <;> exact ⟨_, rfl⟩

theorem Builds.exists_path (h : b.Builds id s n) (htype : n.type = "n8n-nodes-base.webhook") :
    ∃ path signed, s = .trigger path signed ∧
      Table.get? n.parameters "path" = some (.str path) := by
  cases h with
  | trigger => exact ⟨_, _, rfl, rfl⟩
  | _ => simp [Node.filter, Node.switch, Node.slack, Node.request] at htype

theorem Builds.exists_channel (h : b.Builds id s n) (htype : n.type = "n8n-nodes-base.slack") :
    ∃ channel text, s = .slack channel text ∧
      Table.get? n.parameters "channel" = some (.str channel) := by
  cases h with
  | slack => exact ⟨_, _, rfl, rfl⟩
  | _ => simp [Node.webhook, Node.filter, Node.switch, Node.request] at htype

/-- A request goes to the URL of its step, or to that of the definition that the registry has given
for the action. -/
theorem Builds.exists_url (h : b.Builds id s n) (htype : n.type = "n8n-nodes-base.httpRequest") :
    ∃ url, Table.get? n.parameters "url" = some (.str url) ∧
      ((∃ method headers body, s = .request method url headers body) ∨
        ∃ slug input calls d, s = .action slug input ∧
          b.context.resolve calls slug = .ok (some d) ∧ d.url = url) := by
  cases h with
  | request => exact ⟨_, rfl, .inl ⟨_, _, _, rfl⟩⟩
  | action hd => exact ⟨_, rfl, .inr ⟨_, _, _, _, rfl, hd, rfl⟩⟩
  | _ => simp [Node.webhook, Node.filter, Node.switch, Node.slack] at htype

theorem Builds.exists_cases (h : b.Builds id s n) (htype : n.type = "n8n-nodes-base.switch") :
    ∃ cases otherwise, s = .branch cases otherwise := by
  cases h with
  | branch => exact ⟨_, _, rfl⟩
  | _ => simp [Node.webhook, Node.filter, Node.slack, Node.request] at htype

/-- A step whose checks find nothing has a safe node. -/
theorem Renders.safe (hn : b.Renders s n) (hs : b.settings.Bounded)
    (hb : b.context.Stateless allows registry) (hc : context.Stateless allows registry)
    (hpass : AllPass context ((Site.step depth place s).checks b.settings.maxBranchDepth)) :
    n.Safe b.settings allows (fun slug => registry slug b.context.org) depth s := by
  obtain ⟨m, hm, position, rfl⟩ := hn
  obtain ⟨label, hname⟩ := hm.exists_label
  refine ⟨?_, ?_, ?_, ?_, ?_, ?_⟩
  · have := hs.maxNodeNameLength
    exact hname ▸ length_nodeName (by omega) label
  · exact fun c h => isNameChar_of_mem_nodeName (hname ▸ h)
  · intro htype
    obtain ⟨path, signed, rfl, hpath⟩ := hm.exists_path htype
    exact ⟨path, hpath, hpass.trigger⟩
  · intro htype
    obtain ⟨channel, text, rfl, hchannel⟩ := hm.exists_channel htype
    exact ⟨channel, hchannel, hpass.slack⟩
  · intro htype
    obtain ⟨url, hurl, hstep⟩ := hm.exists_url htype
    refine ⟨url, hurl, ?_⟩
    rcases hstep with ⟨method, headers, body, rfl⟩ | ⟨slug, input, calls, d, rfl, hd, hdurl⟩
    · obtain ⟨history, hallows⟩ := hpass.request
      exact .inl ⟨method, headers, body, rfl, (hc.allows history url).symm.trans hallows⟩
    · exact .inr ⟨slug, input, d, rfl, (hb.resolve calls slug).symm.trans hd, hdurl⟩
  · intro htype
    obtain ⟨cases, otherwise, rfl⟩ := hm.exists_cases htype
    exact ⟨⟨cases, otherwise, rfl⟩, hpass.branch⟩

end Builder

namespace Pipeline

/-- Every document that is compiled gives a safe workflow: it starts with the webhook `node_000`,
and each step of the plan, however deep, has a node that is safe. -/
theorem safe_of_outcome (hs : settings.Bounded) (hc : context.Stateless allows registry)
    (h : (ofSource (full settings options context) src).outcome = .ok result) :
    ∃ p, Plan.parse src = .ok (.ok p) ∧
      p.nestedSteps.map Prod.snd = Step.all p.steps ∧
      (result.workflow.nodes.map Node.id).Nodup ∧
      (∃ n, result.workflow.nodes.head? = some n ∧ n.id = "node_000" ∧
        n.type = "n8n-nodes-base.webhook") ∧
      List.Forall₂ (fun (depth, s) n =>
          Node.Safe settings allows (fun slug => registry slug context.org) depth s n)
        p.nestedSteps result.workflow.nodes := by
  obtain ⟨p, calls, hparse, haccepted, hcompiles⟩ := exists_accepted h
  refine ⟨p, hparse, p.steps_nestedSteps, hcompiles.nodup_ids,
    hcompiles.exists_entry haccepted.start, ?_⟩
  refine ((List.forall₂_and_left _ _).2
    ⟨haccepted.exists_checks, hcompiles.forall₂_nestedSteps⟩).imp ?_
  rintro ⟨depth, s⟩ n ⟨⟨place, hchecks⟩, hn⟩
  exact hn.safe hs (hc.after calls) hc hchecks

/-- All nodes of a document with a branch are safe, those below the branch too. -/
theorem safe_of_outcome_on_branching_document : ∃ (p : Plan) (result : CompileResult),
    Settings.default.Bounded ∧
    Context.small.Stateless (fun url => .ok (url == "https://a"))
      (fun slug _ => .ok (notifyOnly slug)) ∧
    (ofSource (full .default .default .small) (.value Plan.branchingDocument)).outcome =
      .ok result ∧
    p.nestedSteps.map Prod.fst = [0, 0, 1, 1, 1, 1, 0] ∧
    List.Forall₂ (fun (depth, s) n =>
        Node.Safe .default (fun url => .ok (url == "https://a"))
          (fun slug => .ok (notifyOnly slug)) depth s n)
      p.nestedSteps result.workflow.nodes := by
  obtain ⟨result, hresult⟩ := exists_outcome_of_branchingDocument
  have hc : Context.small.Stateless (fun url => .ok (url == "https://a"))
      (fun slug _ => .ok (notifyOnly slug)) := ⟨fun _ _ => rfl, fun _ _ => rfl⟩
  obtain ⟨p, hparse, -, -, -, hsafe⟩ := safe_of_outcome .default hc hresult
  have hdepths : (Plan.parse? (.value Plan.branchingDocument)).map (fun p =>
      p.nestedSteps.map Prod.fst) = some [0, 0, 1, 1, 1, 1, 0] := by
    decide +kernel
  rw [Plan.parse?_of_parse hparse] at hdepths
  exact ⟨p, result, .default, hc, hresult, Option.some.inj hdepths, hsafe⟩

end Pipeline
end Flowplan
