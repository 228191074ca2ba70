import Flowplan.Layout.Review
import Flowplan.Proofs.Connections
import Flowplan.Proofs.LayoutPositions

namespace Flowplan.Layout
set_option autoImplicit true

open Relation Dependencies

section Chain

variable {outputs : Table String Nat} {ids : List String}

/-- The targets below each source, where each id leads to the next one. -/
def chainEdges (outputs : Table String Nat) (ids : List String) : List (String × List String) :=
  (ids.zip ids.tail).map fun (a, b) => (a, List.replicate ((Table.get? outputs a).getD 1) b)

theorem edges_ofIds (outputs : Table String Nat) (ids : List String) :
    edges (.typed (ConnectionMap.ofIds outputs ids)) = .ok (chainEdges outputs ids) := by
  rw [edges, ConnectionMap.ofIds, List.map_map, chainEdges]
  congr 1
  apply List.map_congr_left
  intro e _
  simp [ConnectionMap.wire]

theorem getElem?_inj {i j : Nat} (h : ids.Nodup) (hi : ids[i]? = some a) (hj : ids[j]? = some a) :
    i = j := by
  obtain ⟨hlt, -⟩ := List.getElem?_eq_some_iff.1 hi
  exact (List.getElem?_inj hlt h).1 (hi.trans hj.symm)

/-- The dependencies of a chain. -/
def chain (outputs : Table String Nat) (nodes : List Node) : Dependencies :=
  (ofNodes nodes).addEdges (chainEdges outputs (nodes.map Node.id))

variable {nodes : List Node}

/-- Each id of a chain depends on the one before it. -/
theorem on_chain (hpos : ∀ a ∈ nodes.map Node.id, 0 < (Table.get? outputs a).getD 1) :
    (chain outputs nodes).On a b ↔
      ∃ i : Nat, (nodes.map Node.id)[i]? = some b ∧ (nodes.map Node.id)[i + 1]? = some a := by
  rw [chain, on_ofNodes_addEdges]
  constructor
  · rintro ⟨targets, hmem, ha⟩
    obtain ⟨⟨x, y⟩, hxy, he⟩ := List.mem_map.1 hmem
    obtain ⟨rfl, rfl⟩ := Prod.mk.inj he
    obtain rfl := List.eq_of_mem_replicate ha
    obtain ⟨i, hi⟩ := List.mem_iff_getElem?.1 hxy
    obtain ⟨hx, hy⟩ := List.getElem?_zip_eq_some.1 hi
    rw [List.getElem?_tail] at hy
    exact ⟨i, hx, hy⟩
  · rintro ⟨i, hb, ha⟩
    have hmem : (b, a) ∈ (nodes.map Node.id).zip (nodes.map Node.id).tail := by
      apply List.mem_of_getElem? (i := i)
      rw [List.getElem?_zip_eq_some, List.getElem?_tail]
      exact ⟨hb, ha⟩
    refine ⟨_, List.mem_map.2 ⟨(b, a), hmem, rfl⟩, List.mem_replicate.2 ⟨?_, rfl⟩⟩
    exact Nat.pos_iff_ne_zero.1 (hpos b (List.mem_of_getElem? hb))

theorem lt_of_transGen_chain (hnodup : (nodes.map Node.id).Nodup)
    (hpos : ∀ a ∈ nodes.map Node.id, 0 < (Table.get? outputs a).getD 1)
    (h : TransGen (chain outputs nodes).On a b) :
    ∃ i j : Nat, (nodes.map Node.id)[i]? = some a ∧ (nodes.map Node.id)[j]? = some b ∧ j < i := by
  induction h with
  | single hon =>
    obtain ⟨j, hb, ha⟩ := (on_chain hpos).1 hon
    exact ⟨j + 1, j, ha, hb, Nat.lt_succ_self j⟩
  | tail _ hon ih =>
    obtain ⟨i, j, ha, hb, hlt⟩ := ih
    obtain ⟨k, hc, hb'⟩ := (on_chain hpos).1 hon
    obtain rfl := getElem?_inj hnodup hb hb'
    exact ⟨i, k, ha, hc, by omega⟩

theorem chain_not_cyclic (hnodup : (nodes.map Node.id).Nodup)
    (hpos : ∀ a ∈ nodes.map Node.id, 0 < (Table.get? outputs a).getD 1) (a : String) :
    ¬ (chain outputs nodes).Cyclic a := by
  rintro ⟨b, -, hbb⟩
  obtain ⟨i, j, hi, hj, hlt⟩ := lt_of_transGen_chain hnodup hpos hbb
  obtain rfl := getElem?_inj hnodup hi hj
  exact Nat.lt_irrefl i hlt

/-- The level of a node in a chain is its place. -/
theorem level_chain (hnodup : (nodes.map Node.id).Nodup)
    (hpos : ∀ a ∈ nodes.map Node.id, 0 < (Table.get? outputs a).getD 1)
    (hsound : Levels.Sound (chain outputs nodes) levels)
    (hall : ∀ n ∈ nodes, Table.has levels n.id = true) {i : Nat}
    (ha : (nodes.map Node.id)[i]? = some a) : Table.get? levels a = some i := by
  have hlevel : ∀ b ∈ nodes.map Node.id,
      Table.get? levels b = some (Levels.levelOf levels ((chain outputs nodes).sources b)) := by
    intro b hb
    obtain ⟨n, hn, rfl⟩ := List.mem_map.1 hb
    obtain ⟨l, hl⟩ := Levels.has_iff.1 (hall n hn)
    obtain ⟨-, rfl⟩ := hsound n.id l hl
    exact hl
  rw [hlevel a (List.mem_of_getElem? ha)]
  congr 1
  induction i generalizing a with
  | zero =>
    have hnone : (chain outputs nodes).sources a = [] := by
      apply List.eq_nil_iff_forall_not_mem.2
      intro b hb
      obtain ⟨j, -, ha'⟩ := (on_chain hpos).1 hb
      exact absurd (getElem?_inj hnodup ha ha') (Nat.succ_ne_zero j).symm
    rw [hnone]
    rfl
  | succ i ih =>
    obtain ⟨hlt, -⟩ := List.getElem?_eq_some_iff.1 ha
    obtain ⟨b, hb⟩ : ∃ b, (nodes.map Node.id)[i]? = some b :=
      ⟨_, List.getElem?_eq_getElem (Nat.lt_of_succ_lt hlt)⟩
    have hone : (chain outputs nodes).sources a = [b] := by
      have hdistinct : ((chain outputs nodes).sources a).Nodup :=
        nodup_sources_ofNodes_addEdges ..
      apply sources_eq_singleton hdistinct
      intro c
      rw [on_chain hpos]
      constructor
      · rintro ⟨j, hc, ha'⟩
        obtain rfl := Nat.succ.inj (getElem?_inj hnodup ha ha')
        exact Option.some.inj (hc.symm.trans hb)
      · rintro rfl
        exact ⟨i, hb, ha⟩
    rw [hone, Levels.levelOf_cons, List.map_singleton, List.foldl_cons, List.foldl_nil,
      hlevel b (List.mem_of_getElem? hb), ih hb, Option.getD_some, Nat.zero_max, Nat.add_comm]

end Chain

/-- Nodes side by side, on one height. -/
def row (across left top : Int) (nodes : List Node) : List Node :=
  nodes.zipIdx.map fun (n, i) => n.place (left + i * across, top)

theorem filter_eq_singleton {α β : Type} [DecidableEq β] {f : α → β} {xs : List α} {x : α}
    (h : (xs.map f).Nodup) (hx : x ∈ xs) : xs.filter (fun y => decide (f y = f x)) = [x] := by
  induction xs with
  | nil => exact absurd hx List.not_mem_nil
  | cons y rest ih =>
    obtain ⟨hy, hrest⟩ := List.nodup_cons.1 h
    rcases List.mem_cons.1 hx with rfl | hx
    · have hnone : rest.filter (fun z => decide (f z = f x)) = [] := by
        apply List.filter_eq_nil_iff.2
        intro z hz
        simp only [decide_eq_true_eq]
        intro he
        exact hy (List.mem_map.2 ⟨z, hz, he⟩)
      rw [List.filter_cons_of_pos (by simp), hnone]
    · have hne : f y ≠ f x := by
        intro he
        exact hy (List.mem_map.2 ⟨x, hx, he.symm⟩)
      rw [List.filter_cons_of_neg (by simpa using hne), ih hrest hx]

section Columns

variable {nodes : List Node} {levels : Levels}

theorem levelIn_of_levels
    (h : nodes.map (fun n => (Table.get? levels n.id).getD 0) = List.range nodes.length) {i : Nat}
    (hn : nodes[i]? = some n) : levelIn levels n = i := by
  have hi : (nodes.map fun n => (Table.get? levels n.id).getD 0)[i]? = some (levelIn levels n) := by
    rw [List.getElem?_map, hn]
    rfl
  rw [h, List.getElem?_range (List.getElem?_eq_some_iff.1 hn).1] at hi
  exact (Option.some.inj hi).symm

/-- Each node is alone on the level of its place. -/
theorem column_of_levels
    (h : nodes.map (fun n => (Table.get? levels n.id).getD 0) = List.range nodes.length)
    (hn : n ∈ nodes) : column nodes levels (levelIn levels n) = [n] := by
  have hnodup : (nodes.map (levelIn levels)).Nodup := by
    change (nodes.map fun n => (Table.get? levels n.id).getD 0).Nodup
    rw [h]
    exact List.nodup_range
  have hone : nodes.filter (fun m => (Table.get? levels m.id).getD 0 = levelIn levels n) = [n] :=
    filter_eq_singleton hnodup hn
  rw [column, hone, List.mergeSort_singleton]

theorem spot_of_levels (height across down left top : Int)
    (h : nodes.map (fun n => (Table.get? levels n.id).getD 0) = List.range nodes.length) {i : Nat}
    (hn : nodes[i]? = some n) :
    spot height across down left top nodes levels n =
      (left + i * across, top - Int.fdiv height 2) := by
  have hone := column_of_levels h (List.mem_of_getElem? hn)
  rw [spot, rank, hone, levelIn_of_levels h hn]
  simp [topOf]

/-- Where each node is alone on its level, the columns are those of a row. -/
theorem inColumns_of_levels (width height across down left top : Int)
    (hnodup : (nodes.map Node.id).Nodup)
    (h : nodes.map (fun n => (Table.get? levels n.id).getD 0) = List.range nodes.length) :
    inColumns (.whole width height across down left top) nodes levels =
      .ok (row across left (top - Int.fdiv height 2) nodes) := by
  have hspots : (nodes.zipIdx.map Prod.fst).map
      (fun n => n.place (spot height across down left top nodes levels n)) =
        row across left (top - Int.fdiv height 2) nodes := by
    rw [List.map_map, row]
    apply List.map_congr_left
    intro e he
    have hspot := spot_of_levels height across down left top h (List.mem_zipIdx_iff_getElem?.1 he)
    exact congrArg e.1.place hspot
  rw [List.zipIdx_map_fst] at hspots
  rw [inColumns_eq width height across down left top hnodup, hspots]

end Columns

/-- The levels of a chain count its nodes. -/
theorem levels_chain {nodes : List Node} (hnodup : (nodes.map Node.id).Nodup)
    (hpos : ∀ a ∈ nodes.map Node.id, 0 < (Table.get? outputs a).getD 1)
    (hsound : Levels.Sound (chain outputs nodes) levels)
    (hall : ∀ n ∈ nodes, Table.has levels n.id = true) :
    nodes.map (fun n => (Table.get? levels n.id).getD 0) = List.range nodes.length := by
  apply List.ext_getElem?
  intro i
  rw [List.getElem?_map]
  cases hn : nodes[i]? with
  | none =>
    have hlt : nodes.length ≤ i := List.getElem?_eq_none_iff.1 hn
    rw [Option.map_none, List.getElem?_eq_none (by simpa using hlt)]
  | some n =>
    have hid : (nodes.map Node.id)[i]? = some n.id := by
      rw [List.getElem?_map, hn, Option.map_some]
    rw [Option.map_some, level_chain hnodup hpos hsound hall hid, Option.getD_some,
      List.getElem?_range (List.getElem?_eq_some_iff.1 hn).1]

/-- A chain is laid out as a row, half a node above the start. -/
theorem layered_chain (width height across down left top : Int) {nodes : List Node}
    (hnodup : (nodes.map Node.id).Nodup)
    (hpos : ∀ a ∈ nodes.map Node.id, 0 < (Table.get? outputs a).getD 1) :
    layered (.whole width height across down left top) nodes
        (.typed (ConnectionMap.ofIds outputs (nodes.map Node.id))) =
      .ok (row across left (top - Int.fdiv height 2) nodes) := by
  have hgraph := ofWiring_of_edges nodes (edges_ofIds outputs (nodes.map Node.id))
  rw [layered_of_graph hgraph]
  rcases Levels.ofNodes_cases (chain outputs nodes) nodes with
    ⟨f, -, n, -, hcycle⟩ | ⟨levels, hl, hsound, hall, -⟩
  · exact absurd hcycle (chain_not_cyclic hnodup hpos n.id)
  · change (Levels.ofNodes (chain outputs nodes) nodes >>= _) = _
    rw [hl]
    exact inColumns_of_levels width height across down left top hnodup
      (levels_chain hnodup hpos hsound hall)

/-- The layout of a chain never goes to the grid: a node by itself stands at the start, and more
than one stand in a row. -/
theorem auto_chain (width height across down left top : Int) {nodes : List Node}
    (hnodup : (nodes.map Node.id).Nodup)
    (hpos : ∀ a ∈ nodes.map Node.id, 0 < (Table.get? outputs a).getD 1) :
    auto (.whole width height across down left top) nodes
        (.typed (ConnectionMap.ofIds outputs (nodes.map Node.id))) =
      (.ok (row across left (if nodes.length = 1 then top else top - Int.fdiv height 2) nodes),
        []) := by
  match nodes with
  | [] => rfl
  | [n] =>
    have hrow : row across left top [n] = [n.place (left, top)] := by simp [row]
    rw [List.length_singleton, if_pos rfl, hrow]
    rfl
  | n :: m :: rest =>
    have hmany : ¬ (n :: m :: rest).length = 1 := by simp
    simp only [auto, layered_chain width height across down left top hnodup hpos, if_neg hmany]

section Review

/-- Nodes at different positions do not overlap. -/
theorem overlaps_eq_nil {nodes : List Node} (h : (nodes.map Node.position).Nodup)
    (hseen : ∀ n ∈ nodes, n.position ∉ seen) : overlaps seen nodes = [] := by
  induction nodes generalizing seen with
  | nil => rfl
  | cons n rest ih =>
    obtain ⟨hn, hrest⟩ := List.nodup_cons.1 h
    obtain ⟨hnew, hothers⟩ := List.forall_mem_cons.1 hseen
    rw [overlaps, if_neg (mt List.contains_iff_mem.1 hnew)]
    apply ih hrest
    intro m hm
    rw [List.mem_cons, not_or]
    refine ⟨?_, hothers m hm⟩
    intro he
    exact hn (List.mem_map.2 ⟨m, hm, he⟩)

theorem negatives_eq_nil {nodes : List Node}
    (h : ∀ n ∈ nodes, 0 ≤ n.position.1 ∧ 0 ≤ n.position.2) : negatives nodes = [] := by
  rw [negatives, List.map_eq_nil_iff, List.filter_eq_nil_iff]
  intro n hn
  obtain ⟨hx, hy⟩ := h n hn
  simp only [Bool.or_eq_true, decide_eq_true_eq]
  omega

/-- A row on the canvas has nothing wrong with it. -/
theorem review_row {across left top : Int} (hacross : 0 < across) (hleft : 0 ≤ left)
    (htop : 0 ≤ top) (nodes : List Node) : review (row across left top nodes) = [] := by
  have hpositions : (row across left top nodes).map Node.position =
      (List.range nodes.length).map fun i : Nat => (left + i * across, top) := by
    rw [row, List.map_map, List.range_eq_range', ← List.zipIdx_map_snd 0 nodes, List.map_map]
    rfl
  have hnodup : ((row across left top nodes).map Node.position).Nodup := by
    rw [hpositions]
    apply List.Pairwise.map _ _ List.nodup_range
    intro i j hne he
    have hx := (Prod.mk.inj he).1
    have hmul : (i : Int) * across = j * across := by omega
    have := Int.eq_of_mul_eq_mul_right (Int.ne_of_gt hacross) hmul
    omega
  have hcanvas : ∀ n ∈ row across left top nodes, 0 ≤ n.position.1 ∧ 0 ≤ n.position.2 := by
    intro n hn
    obtain ⟨e, -, rfl⟩ := List.mem_map.1 hn
    refine ⟨?_, htop⟩
    have := Int.mul_nonneg (Int.natCast_nonneg e.2) (Int.le_of_lt hacross)
    change 0 ≤ left + e.2 * across
    omega
  rw [review, overlaps_eq_nil hnodup fun _ _ => List.not_mem_nil, negatives_eq_nil hcanvas,
    List.append_nil]

end Review

end Flowplan.Layout
