import Flowplan.Proofs.AcceptedWorkflow

namespace Flowplan
set_option autoImplicit true

open Flowplan.Json

namespace Node

/-- The rules in the parameters of a switch. -/
def rules? (n : Node) : Option (List Json) :=
  match (Json.obj n.parameters).at? [.name "rules", .name "values"] with
  | some (.arr rules) => some rules
  | _ => none

/-- The outputs that the parameters of a switch name: one for each rule, and one for when no rule
holds. -/
def declaredOutputs (n : Node) : List Json :=
  (n.rules?.getD []).filterMap (·.part? (.name "output")) ++
    ((Json.obj n.parameters).part? (.name "fallbackOutput")).toList

/-- The parameters of a switch agree with its branch and with so many connections: the rules are
those of the cases in their order, numbered from zero, and the outputs that are named are those
that the connections have, except that the missing else of a branch is named by a negative
number. -/
structure Switches (s : Step) (cases : List (Case Step)) (otherwise : Member (List Step))
    (count : Nat) (n : Node) : Prop where
  rules : ∃ rules, n.rules? = some rules ∧ List.Forall₂ (fun (c, i) rule =>
    ∃ v, condition c.condition s = .ok v ∧
      rule = .obj [("conditions", conditions v), ("output", .int (i : Nat))]) cases.zipIdx rules
  declared : n.declaredOutputs = (List.range cases.length).map (fun i : Nat => .int i) ++
    [.int (if otherwise.toOption.isSome then cases.length else -1)]
  count_eq : count = if otherwise.toOption.isSome then cases.length + 1 else cases.length
  valid_iff : ∀ o : Int, .int o ∈ n.declaredOutputs ∧ o ≠ -1 ↔ 0 ≤ o ∧ o < count

/-- The number of outgoing connections is what the type and the parameters of a node call for. -/
def Outputs (settings : Settings) (n : Node) (count : Nat) : Step → Prop
  | .filter _ => n.type = "n8n-nodes-base.if" ∧
    count = if settings.filterFalseOutputTerminates then 1 else 2
  | .branch cases otherwise => n.type = "n8n-nodes-base.switch" ∧
    n.Switches (.branch cases otherwise) cases otherwise count
  | _ => n.type ≠ "n8n-nodes-base.if" ∧ n.type ≠ "n8n-nodes-base.switch" ∧ count = 1

/-- The rules of some cases, numbered from an index, and the outputs that they name. -/
theorem rules_of_rulesFrom (h : rulesFrom s i cases = .ok rules) :
    List.Forall₂ (fun (c, j) rule => ∃ v, condition c.condition s = .ok v ∧
        rule = .obj [("conditions", conditions v), ("output", .int (j : Nat))])
      (cases.zipIdx i) rules ∧
    rules.filterMap (·.part? (.name "output")) =
      (List.range' i cases.length).map fun j : Nat => .int j := by
  induction cases generalizing i rules with
  | nil =>
    obtain rfl := Except.ok.inj h
    exact ⟨.nil, rfl⟩
  | cons c rest ih =>
    obtain ⟨v, hv, h⟩ := bind_eq_ok.1 h
    obtain ⟨others, ho, h⟩ := bind_eq_ok.1 h
    obtain rfl := pure_eq_ok.1 h
    obtain ⟨hrules, houtputs⟩ := ih ho
    exact ⟨.cons ⟨v, hv, rfl⟩ hrules, congrArg (Json.int i :: ·) houtputs⟩

theorem mem_outputs_iff {o : Int} {count : Nat} :
    Json.int o ∈ (List.range count).map (fun i : Nat => Json.int i) ↔ 0 ≤ o ∧ o < count := by
  rw [List.mem_map]
  constructor
  · rintro ⟨i, hi, heq⟩
    obtain rfl := Json.int.inj heq
    have := List.mem_range.1 hi
    omega
  · rintro ⟨hleast, hmost⟩
    refine ⟨o.toNat, List.mem_range.2 (by omega), ?_⟩
    rw [Int.toNat_of_nonneg hleast]

theorem switches_of_rulesFrom (settings : Settings) (id : String)
    (otherwise : Member (List Step)) (h : rulesFrom s 0 cases = .ok rules) :
    (switch settings id rules (fallbackOutput cases.length otherwise)).Switches s cases otherwise
      (cases.length + otherwise.toOption.toList.length) := by
  obtain ⟨hrules, houtputs⟩ := rules_of_rulesFrom h
  rw [← List.range_eq_range'] at houtputs
  have hfallback : fallbackOutput cases.length otherwise =
      if otherwise.toOption.isSome then (cases.length : Int) else -1 := by
    cases otherwise <;> rfl
  have hdeclared : (switch settings id rules
      (fallbackOutput cases.length otherwise)).declaredOutputs =
        (List.range cases.length).map (fun i : Nat => .int i) ++
          [.int (if otherwise.toOption.isSome then cases.length else -1)] := by
    rw [← houtputs, ← hfallback]
    rfl
  refine ⟨⟨rules, rfl, hrules⟩, hdeclared, ?_, ?_⟩
  · cases otherwise <;> rfl
  · intro o
    rw [hdeclared, List.mem_append, mem_outputs_iff, List.mem_singleton, Json.int.injEq]
    cases otherwise <;> simp only [Member.toOption, Option.isSome_some, Option.isSome_none,
      Option.toList_some, Option.toList_none, List.length_singleton, List.length_nil, if_true,
      Bool.false_eq_true, if_false] <;> omega

theorem Switches.place (h : Switches s cases otherwise count n) (position : Int × Int) :
    (n.place position).Switches s cases otherwise count :=
  ⟨h.rules, h.declared, h.count_eq, h.valid_iff⟩

theorem Outputs.place {n : Node} (h : n.Outputs settings count s) (position : Int × Int) :
    (n.place position).Outputs settings count s := by
  cases s with
  | branch cases otherwise => exact ⟨h.1, h.2.place position⟩
  | _ => exact h

end Node

namespace Builder

theorem Builds.outputs {b : Builder} {id : String} (h : b.Builds id s n) :
    n.Outputs b.settings ((b.outputCount? s).getD 1) s := by
  cases h with
  | filter => exact ⟨rfl, rfl⟩
  | branch hr => exact ⟨rfl, Node.switches_of_rulesFrom b.settings id _ hr⟩
  | _ => simp [Node.Outputs, Node.webhook, Node.slack, Node.request, outputCount?]

theorem Renders.outputs {b : Builder} (h : b.Renders s n) :
    n.Outputs b.settings ((b.outputCount? s).getD 1) s := by
  obtain ⟨m, hm, position, rfl⟩ := h
  exact hm.outputs.place position

/-- Every node has an output to go on from; a branch has one for its first case. -/
theorem outputCount_pos (b : Builder) {s : Step} (h : s.HasCases) :
    0 < (b.outputCount? s).getD 1 := by
  cases s with
  | filter c =>
    simp only [outputCount?, Option.getD_some]
    split <;> omega
  | branch cases otherwise =>
    have := List.length_pos_iff.2 h
    simp only [outputCount?, Option.getD_some]
    omega
  | _ => exact Nat.one_pos

theorem get?_decision (b : Builder) (index : Int) (s : Step) :
    Table.get? (b.decision index s) (nodeId index) = b.outputCount? s := by
  rw [decision]
  cases b.outputCount? s with
  | none => rfl
  | some count => exact if_pos rfl

/-- The output count of a decision is found under the identifier of its node. -/
theorem get?_decisionsFrom {b : Builder} {index : Int} (hi : 0 ≤ index) {k : Nat}
    (hs : steps[k]? = some s) :
    Table.get? (b.decisionsFrom index steps) (nodeId (index + k)) = b.outputCount? s := by
  induction steps generalizing index k with
  | nil => simp at hs
  | cons t rest ih =>
    rw [decisionsFrom, Table.get?_append]
    cases k with
    | zero =>
      obtain rfl := Option.some.inj hs
      -- A step that is no decision has no entry, and those of later steps are not mistaken for it.
      have hrest : Table.get? (b.decisionsFrom (index + 1) rest) (nodeId index) = none := by
        apply Table.get?_of_notMem
        intro hmem
        obtain ⟨j, hj, -, he⟩ := exists_of_mem_keys_decisionsFrom hmem
        have := nodeId_injective hi (by omega) he
        omega
      rw [Int.natCast_zero, Int.add_zero, get?_decision, hrest, Option.or_none]
    | succ k =>
      have hfirst : Table.get? (b.decision index t) (nodeId (index + (k + 1 : Nat))) = none := by
        apply Table.get?_of_notMem
        intro hmem
        have := nodeId_injective (by omega) hi (exists_of_mem_keys_decision hmem)
        omega
      have hindex : index + (k + 1 : Nat) = index + 1 + k := by omega
      rw [hfirst, Option.none_or, hindex]
      exact ih (by omega) hs

section

variable {b : Builder} {i : Nat}

/-- The output count of a step stands under the identifier of its node. -/
theorem Compiles.get?_outputs (h : b.Compiles steps w) (hs : (Step.all steps)[i]? = some s)
    (hn : w.nodes[i]? = some n) :
    Table.get? (b.decisionsFrom 0 (Step.all steps)) n.id = b.outputCount? s := by
  have hcount := get?_decisionsFrom (b := b) (Int.le_refl 0) hs
  rwa [Int.zero_add, ← h.id_eq hn] at hcount

/-- From a node that is not the last, all connections go to the next one, as many as the node has
outputs. -/
theorem Compiles.get?_connections (h : b.Compiles steps w) (hs : (Step.all steps)[i]? = some s)
    (hn : w.nodes[i]? = some n) (hnext : w.nodes[i + 1]? = some m) :
    Table.get? w.connections n.id = some [("main",
      List.replicate ((b.outputCount? s).getD 1) (ConnectionMap.wire n.id m.id))] := by
  have hids {j : Nat} {k : Node} (hk : w.nodes[j]? = some k) :
      (w.nodes.map Node.id)[j]? = some k.id := by
    rw [List.getElem?_map, hk, Option.map_some]
  have hmem := ConnectionMap.mem_ofIds (b.decisionsFrom 0 (Step.all steps)) (hids hn) (hids hnext)
  rw [h.get?_outputs hs hn, ← h.connections] at hmem
  apply Table.get?_of_mem ?_ hmem
  rw [h.connections]
  exact ConnectionMap.nodup_keys_ofIds _ h.nodup_ids

/-- Every node has an output on record, or the one of a node that is no decision. -/
theorem Compiles.outputs_pos (h : b.Compiles steps w)
    (hcases : ∀ s ∈ Step.all steps, s.HasCases) :
    ∀ id ∈ w.nodes.map Node.id,
      0 < (Table.get? (b.decisionsFrom 0 (Step.all steps)) id).getD 1 := by
  intro id hid
  obtain ⟨m, hm, rfl⟩ := List.mem_map.1 hid
  obtain ⟨j, hj⟩ := List.mem_iff_getElem?.1 hm
  obtain ⟨s, hs, -⟩ := h.exists_step hj
  rw [h.get?_outputs hs hj]
  exact b.outputCount_pos (hcases s (List.mem_of_getElem? hs))

theorem Compiles.reaches (h : b.Compiles steps w) (hcases : ∀ s ∈ Step.all steps, s.HasCases)
    (hn : n ∈ w.nodes) : Relation.ReflTransGen w.connections.Leads "node_000" n.id := by
  obtain ⟨i, hi⟩ := List.mem_iff_getElem?.1 hn
  obtain ⟨hlt, -⟩ := List.getElem?_eq_some_iff.1 hi
  have hfirst := List.getElem?_eq_getElem (Nat.zero_lt_of_lt hlt)
  rw [h.connections, ← nodeId_zero]
  apply ConnectionMap.reaches_ofIds (h.outputs_pos hcases) (i := i)
  · rw [List.getElem?_map, hfirst, Option.map_some, h.id_eq hfirst]
    rfl
  · rw [List.getElem?_map, hi, Option.map_some]

end

end Builder

namespace Compilation

/-- The connections of a workflow that a parsed plan is compiled to. Each node but the last has as
many as its parameters name outputs, all to the next node, so that every node is reached from the
first one. -/
theorem wires_of_outcome (hp : Plan.parse src = .ok (.ok p))
    (h : (ofPlan settings options context p).outcome = .ok result) :
    let nodes := result.workflow.nodes
    let connections := result.workflow.connections
    nodes.map Node.id = (List.range (Step.count p.steps)).map (fun i : Nat => nodeId i) ∧
    (nodes.map Node.id).Nodup ∧
    Table.keys connections = (nodes.map Node.id).dropLast ∧
    (∀ (i : Nat) s a, (Step.all p.steps)[i]? = some s → nodes[i]? = some a →
      ∃ count, a.Outputs settings count s ∧ ∀ b, nodes[i + 1]? = some b →
        Table.get? connections a.id =
          some [("main", List.replicate count ⟨a.id, "main", b.id, "main"⟩)]) ∧
    (∀ n ∈ nodes, Relation.ReflTransGen connections.Leads "node_000" n.id) ∧
    ∀ a outlets port wires w, (a, outlets) ∈ connections → (port, wires) ∈ outlets → w ∈ wires →
      w.source ∈ nodes.map Node.id ∧ w.target ∈ nodes.map Node.id := by
  obtain ⟨hne, hread⟩ := Plan.allRead_of_parse hp
  have hcompiles := compiles_of_outcome h
  -- A branch of a parsed plan has a case, so that no node is without an output.
  have hcases : ∀ s ∈ Step.all p.steps, s.HasCases := by
    rw [Step.all_eq_preorderList]
    exact fun s hs => (hread s hs).2
  refine ⟨hcompiles.ids, hcompiles.nodup_ids, ?_, ?_, fun n => hcompiles.reaches hcases, ?_⟩
  · rw [hcompiles.connections, ConnectionMap.keys_ofIds]
  · intro i s a hs ha
    obtain ⟨t, ht, hrenders⟩ := hcompiles.exists_step ha
    obtain rfl := Option.some.inj (ht.symm.trans hs)
    exact ⟨_, hrenders.outputs, fun _ hnext => hcompiles.get?_connections hs ha hnext⟩
  · intro a outlets port wires w he ho hw
    rw [hcompiles.connections] at he
    obtain ⟨ha, hsource, htarget⟩ := ConnectionMap.ends_of_mem_ofIds he ho hw
    exact ⟨hsource ▸ ha, htarget⟩

theorem exists_outcome_of_branchingDocument : ∃ (p : Plan) (result : CompileResult),
    Plan.parse (.value Plan.branchingDocument) = .ok (.ok p) ∧
    (ofPlan .default .default .small p).outcome = .ok result ∧
    (Step.preorderList p.steps).length = 7 := by
  have hplan : (Plan.parse? (.value Plan.branchingDocument)).map (fun p =>
      ((p.refused? Settings.default.maxBranchDepth notifyOnly).isNone,
        (Step.preorderList p.steps).length)) = some (true, 7) := by
    decide +kernel
  obtain ⟨p, hp, hplan⟩ := Option.map_eq_some_iff.1 hplan
  obtain ⟨hrefused, hcount⟩ := Prod.mk.inj hplan
  have hparse := Plan.parse?_eq_some hp
  obtain ⟨hne, hk⟩ := Plan.known_of_parse hparse
  obtain ⟨result, hresult⟩ := exists_outcome Context.small_dependable (.ofSettings .default)
    hne hk (Option.isNone_iff_eq_none.1 hrefused)
  exact ⟨p, result, hparse, hresult, hcount⟩

/-- A document whose branch has two cases and an else, with a node below each. -/
theorem wires_of_branching_document : ∃ (p : Plan) (result : CompileResult),
    Plan.parse (.value Plan.branchingDocument) = .ok (.ok p) ∧
    (ofPlan .default .default .small p).outcome = .ok result ∧
    Table.keys result.workflow.connections =
      ["node_000", "node_001", "node_002", "node_003", "node_004", "node_005"] ∧
    ∀ n ∈ result.workflow.nodes,
      Relation.ReflTransGen result.workflow.connections.Leads "node_000" n.id := by
  obtain ⟨p, result, hparse, hresult, hcount⟩ := exists_outcome_of_branchingDocument
  obtain ⟨hids, -, hkeys, -, hreaches, -⟩ := wires_of_outcome hparse hresult
  refine ⟨p, result, hparse, hresult, ?_, hreaches⟩
  rw [hkeys, hids, Step.count, Step.all_eq_preorderList, hcount]
  decide

end Compilation
end Flowplan
