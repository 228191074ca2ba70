import Flowplan.Proofs.LayoutRow
import Flowplan.Proofs.WiredOutputs

namespace Flowplan
set_option autoImplicit true

open Layout (Options)

namespace Layout

theorem getElem?_row {i : Nat} (h : (row across left top nodes)[i]? = some n) :
    n.position = (left + i * across, top) := by
  rw [row, List.getElem?_map] at h
  obtain ⟨⟨m, j⟩, hm, rfl⟩ := Option.map_eq_some_iff.1 h
  rw [List.getElem?_zipIdx] at hm
  obtain ⟨k, -, he⟩ := Option.map_eq_some_iff.1 hm
  obtain ⟨rfl, rfl⟩ := Prod.mk.inj he
  rw [Nat.zero_add]
  rfl

theorem length_row (across left top : Int) (nodes : List Node) :
    (row across left top nodes).length = nodes.length := by
  rw [row, List.length_map, List.length_zipIdx]

end Layout

namespace Compilation

theorem log_of_graph {nodes : List Node} {calls : List Call} {notes : List LogEntry}
    (hgraph : graph settings context p = (.ok (nodes, connections), calls))
    (hauto : Layout.auto options nodes (.typed connections) = (.ok placed, notes)) :
    (ofPlan settings options context p).log =
      startLog context p :: notes ++ [successLog context ⟨placed, connections, p.name⟩] := by
  have hw : workflow settings options context p =
      (.ok ⟨placed, connections, p.name⟩, calls, notes) := by
    simp only [workflow, hgraph, hauto]
  simp only [ofPlan, hw]

/-- The workflow that a parsed plan is compiled to has been laid out as a row. -/
theorem exists_row {width height across down left top : Int} (hp : Plan.parse src = .ok (.ok p))
    (h : (ofPlan settings (.whole width height across down left top) context p).outcome =
      .ok result) :
    (ofPlan settings (.whole width height across down left top) context p).log =
        [startLog context p, successLog context result.workflow] ∧
      ∃ nodes : List Node, result.workflow.nodes = Layout.row across left
        (if nodes.length = 1 then top else top - Int.fdiv height 2) nodes := by
  have hcompiles := compiles_of_outcome h
  obtain ⟨nodes, connections, calls, placed, log, hgraph, hauto, hw⟩ := exists_graph h
  have hids : placed.map Node.id = nodes.map Node.id :=
    Layout.ids_of_moved (Layout.forall₂_moved_of_auto hauto)
  have hnodup := hcompiles.nodup_ids
  have hconnections := hcompiles.connections
  have hpos := hcompiles.outputs_pos fun s hs => by
    rw [Step.all_eq_preorderList] at hs
    exact ((Plan.allRead_of_parse hp).2 s hs).2
  simp only [hw, hids] at hnodup hconnections hpos
  have hlog := log_of_graph hgraph hauto
  rw [hconnections, Layout.auto_chain width height across down left top hnodup hpos] at hauto
  obtain ⟨hplaced, rfl⟩ := Prod.mk.inj hauto
  obtain rfl := Except.ok.inj hplaced
  rw [hw]
  exact ⟨hlog, nodes, rfl⟩

/-- Where the nodes of a compiled plan stand, whatever its branches. No warning is logged, as the
layout does not go to the grid; one node stands at the start, and more stand in a row, each at the
place of its number. Nothing is wrong with the layout where the row lies on the canvas. -/
theorem row_of_outcome {width height across down left top : Int}
    (hp : Plan.parse src = .ok (.ok p))
    (h : (ofPlan settings (.whole width height across down left top) context p).outcome =
      .ok result) :
    let nodes := result.workflow.nodes
    (ofPlan settings (.whole width height across down left top) context p).log =
      [startLog context p, successLog context result.workflow] ∧
    (∀ n, nodes = [n] → n.position = (left, top)) ∧
    (2 ≤ nodes.length → ∀ (i : Nat) n, nodes[i]? = some n →
      n.position = (left + i * across, top - Int.fdiv height 2)) ∧
    (0 < across → 0 ≤ left → 0 ≤ Int.fdiv height 2 → Int.fdiv height 2 ≤ top →
      Layout.review nodes = []) := by
  obtain ⟨hlog, unplaced, hrow⟩ := exists_row hp h
  have hlength : result.workflow.nodes.length = unplaced.length := by
    rw [hrow, Layout.length_row]
  refine ⟨hlog, ?_, ?_, ?_⟩
  · intro n hn
    rw [hn, List.length_singleton] at hlength
    rw [if_pos hlength.symm] at hrow
    have hposition := Layout.getElem?_row (i := 0) (hrow ▸ congrArg (·[0]?) hn)
    simpa using hposition
  · intro hmany i n hn
    rw [if_neg (by omega)] at hrow
    exact Layout.getElem?_row (hrow ▸ hn)
  · intro hacross hleft hhalf htop
    rw [hrow]
    apply Layout.review_row hacross hleft
    split
    · omega
    · omega

/-- Seven nodes in a row, three of them inside of a branch. -/
theorem row_of_branching_document : ∃ (p : Plan) (result : CompileResult),
    Plan.parse (.value Plan.branchingDocument) = .ok (.ok p) ∧
    (ofPlan .default (.whole 240 100 300 150 100 100) .small p).outcome = .ok result ∧
    result.workflow.nodes[6]?.map Node.position = some (1900, 50) ∧
    Layout.review result.workflow.nodes = [] := by
  obtain ⟨p, result, hparse, hresult, hcount⟩ := exists_outcome_of_branchingDocument
  obtain ⟨-, -, hrow, hreview⟩ := row_of_outcome hparse hresult
  have hlength : result.workflow.nodes.length = 7 := by
    have hids := congrArg List.length (compiles_of_outcome hresult).ids
    rw [List.length_map, List.length_map, List.length_range, Step.count,
      Step.all_eq_preorderList, hcount] at hids
    exact hids
  have hlast : result.workflow.nodes[6]? = some result.workflow.nodes[6] :=
    List.getElem?_eq_getElem (by omega)
  refine ⟨p, result, hparse, hresult, ?_, ?_⟩
  · rw [hlast, Option.map_some, hrow (by omega) 6 _ hlast]
    decide
  · exact hreview (by decide) (by decide) (by decide) (by decide)

end Compilation
end Flowplan
