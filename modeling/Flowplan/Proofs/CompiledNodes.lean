import Flowplan.Compile
import Flowplan.Proofs.Connections
import Flowplan.Proofs.FlattenOrder
import Flowplan.Proofs.LayoutPlaces

namespace Flowplan
set_option autoImplicit true

namespace Builder

/-- A node that a step was compiled to, wherever it stands. -/
def Renders (b : Builder) (s : Step) (n : Node) : Prop :=
  ∃ m, b.Builds n.id s m ∧ Layout.Moved m n

theorem forall₂_renders {b : Builder}
    (hbuilt : List.Forall₂ (fun s n => b.Builds n.id s n) steps nodes)
    (hmoved : List.Forall₂ Layout.Moved nodes placed) : List.Forall₂ b.Renders steps placed := by
  induction hbuilt generalizing placed with
  | nil =>
    cases hmoved
    exact .nil
  | @cons s n steps nodes hn hbuilt ih =>
    cases hmoved with
    | cons hm hmoved => exact .cons ⟨n, hm.id_eq.symm ▸ hn, hm⟩ (ih hmoved)

/-- What a workflow consists of that some steps were compiled to: a node for each step in document
order, numbered from zero, and the connections from each node to the next. -/
structure Compiles (b : Builder) (steps : List Step) (w : Workflow) : Prop where
  nodes : List.Forall₂ b.Renders (Step.all steps) w.nodes
  ids : w.nodes.map Node.id = (List.range (Step.count steps)).map fun k : Nat => nodeId k
  connections : w.connections =
    ConnectionMap.ofIds (b.decisionsFrom 0 (Step.all steps)) (w.nodes.map Node.id)

section

variable {b : Builder} {i : Nat}

theorem Compiles.nodup_ids (h : b.Compiles steps w) : (w.nodes.map Node.id).Nodup := by
  rw [h.ids]
  exact nodup_nodeIds _

theorem Compiles.id_eq (h : b.Compiles steps w) (hn : w.nodes[i]? = some n) : n.id = nodeId i := by
  have hid : (w.nodes.map Node.id)[i]? = some n.id := by rw [List.getElem?_map, hn, Option.map_some]
  rw [h.ids, List.getElem?_map] at hid
  obtain ⟨k, hk, hid⟩ := Option.map_eq_some_iff.1 hid
  obtain ⟨hlt, hk⟩ := List.getElem?_eq_some_iff.1 hk
  rw [List.getElem_range] at hk
  rw [← hid, hk]

theorem Compiles.exists_step (h : b.Compiles steps w) (hn : w.nodes[i]? = some n) :
    ∃ s, (Step.all steps)[i]? = some s ∧ b.Renders s n := by
  obtain ⟨hlt, -⟩ := List.getElem?_eq_some_iff.1 hn
  obtain ⟨s, hs⟩ : ∃ s, (Step.all steps)[i]? = some s :=
    ⟨_, List.getElem?_eq_getElem (h.nodes.length_eq.symm ▸ hlt)⟩
  have hzip : ((Step.all steps).zip w.nodes)[i]? = some (s, n) :=
    List.getElem?_zip_eq_some.2 ⟨hs, hn⟩
  exact ⟨s, hs, (List.forall₂_iff_zip.1 h.nodes).2 (List.mem_of_getElem? hzip)⟩

end

end Builder

namespace Compilation

theorem exists_flattened (h : graph settings context p = (.ok (nodes, connections), made)) :
    ∃ f, Build.runFrom (Builder.flattenList ⟨settings, context, p.name⟩ 0 0 p.steps) [] =
        (.ok f, made) ∧
      nodes = f.nodes ∧ connections = ConnectionMap.ofNodes f.outputs f.nodes := by
  unfold graph at h
  split at h
  · simp at h
  · rename_i f calls hrun
    split at h
    · simp at h
    · simp only [Prod.mk.injEq, Except.ok.injEq] at h
      obtain ⟨⟨rfl, rfl⟩, rfl⟩ := h
      exact ⟨f, hrun, rfl, rfl⟩

/-- A compilation that succeeds has laid out the nodes of its graph. -/
theorem exists_graph (h : (ofPlan settings options context p).outcome = .ok result) :
    ∃ nodes connections calls placed log,
      graph settings context p = (.ok (nodes, connections), calls) ∧
      Layout.auto options nodes (.typed connections) = (.ok placed, log) ∧
      result.workflow = ⟨placed, connections, p.name⟩ := by
  unfold ofPlan at h
  split at h
  · simp at h
  · rename_i w calls log hw
    obtain rfl := Except.ok.inj h
    unfold workflow at hw
    split at hw
    · simp at hw
    · rename_i nodes connections made hgraph
      split at hw
      · simp at hw
      · rename_i placed notes hauto
        simp only [Prod.mk.injEq, Except.ok.injEq] at hw
        exact ⟨nodes, connections, made, placed, notes, hgraph, hauto, hw.1.symm⟩

/-- A plan that is compiled gives a workflow of its steps. -/
theorem compiles_of_outcome (h : (ofPlan settings options context p).outcome = .ok result) :
    Builder.Compiles ⟨settings, context, p.name⟩ p.steps result.workflow := by
  obtain ⟨nodes, connections, calls, placed, log, hgraph, hauto, hw⟩ := exists_graph h
  obtain ⟨f, hrun, rfl, rfl⟩ := exists_flattened hgraph
  have hall := Builder.flattenList_numbered p.steps (Int.le_refl 0) hrun
  rw [← Step.all_eq_preorderList] at hall
  have hmoved := Layout.forall₂_moved_of_auto hauto
  have hsame := Layout.ids_of_moved hmoved
  have hids : placed.map Node.id =
      (List.range (Step.count p.steps)).map fun k : Nat => nodeId k := by
    rw [hsame, Builder.ids_nodesFrom hall.nodes]
    simp only [Int.zero_add]
    rfl
  have hnodup : (f.nodes.map Node.id).Nodup := by
    rw [← hsame, hids]
    exact nodup_nodeIds _
  rw [hw]
  refine ⟨Builder.forall₂_renders (Builder.forall₂_builds hall.nodes) hmoved, hids, ?_⟩
  rw [hsame, ← hall.outputs]
  exact ConnectionMap.ofNodes_eq_ofIds f.outputs hnodup

end Compilation

end Flowplan
