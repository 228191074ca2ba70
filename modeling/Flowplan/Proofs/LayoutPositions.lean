import Flowplan.Proofs.LayoutFallback
import Flowplan.Proofs.TableLaws
import Mathlib.Data.List.Basic
import Mathlib.Data.List.Nodup
import Mathlib.Data.List.Permutation

/-!
Where the layered layout puts each node: its level gives the column, its rank in the column the row.
-/

namespace Flowplan.Layout
set_option autoImplicit true

variable {width height across down left top : Int} {nodes : List Node} {levels : Levels}

/-- The level of a node; one without a level stands with those on the lowest. -/
def levelIn (levels : Levels) (n : Node) : Nat := (Table.get? levels n.id).getD 0

theorem mem_column : n ∈ column nodes levels level ↔ n ∈ nodes ∧ levelIn levels n = level := by
  rw [column, List.mem_mergeSort, List.mem_filter, decide_eq_true_eq]
  rfl

theorem mem_usedLevels : level ∈ usedLevels nodes levels ↔ ∃ n ∈ nodes, levelIn levels n = level := by
  rw [usedLevels, List.mem_mergeSort, List.mem_eraseDups, List.mem_map]
  rfl

theorem nodup_ids_column (h : (nodes.map Node.id).Nodup) (levels : Levels) (level : Nat) :
    ((column nodes levels level).map Node.id).Nodup := by
  have hperm := (List.mergeSort_perm (nodes.filter fun n => levelIn levels n = level)
    fun a b => decide (a.name ≤ b.name)).map Node.id
  rw [column]
  apply hperm.nodup_iff.2
  exact h.sublist (List.filter_sublist.map Node.id)

/-- Nodes of different ids are told apart by their ids. -/
theorem eq_of_id_eq (h : (nodes.map Node.id).Nodup) (hm : m ∈ nodes) (hn : n ∈ nodes)
    (he : m.id = n.id) : m = n :=
  List.inj_on_of_nodup_map h hm hn he

/-- The nodes above a node in the column of its level. -/
def rank (nodes : List Node) (levels : Levels) (n : Node) : Nat :=
  ((column nodes levels (levelIn levels n)).map Node.id).idxOf n.id

theorem getElem?_column (h : (nodes.map Node.id).Nodup) (hn : n ∈ nodes) :
    (column nodes levels (levelIn levels n))[rank nodes levels n]? = some n := by
  have hmem : n.id ∈ (column nodes levels (levelIn levels n)).map Node.id :=
    List.mem_map_of_mem (mem_column.2 ⟨hn, rfl⟩)
  have hlt := List.idxOf_lt_length_iff.2 hmem
  have hid := List.getElem_idxOf hlt
  rw [List.length_map] at hlt
  rw [List.getElem_map] at hid
  rw [rank, List.getElem?_eq_getElem hlt]
  congr 1
  exact eq_of_id_eq h (mem_column.1 (List.getElem_mem hlt)).1 hn hid

theorem rank_of_getElem? (h : (nodes.map Node.id).Nodup)
    (hi : (column nodes levels level)[i]? = some n) : rank nodes levels n = i := by
  obtain ⟨-, rfl⟩ := mem_column.1 (List.mem_of_getElem? hi)
  obtain ⟨hlt, hget⟩ := List.getElem?_eq_some_iff.1 hi
  have hlt' : i < ((column nodes levels (levelIn levels n)).map Node.id).length := by
    rwa [List.length_map]
  have hidx := (nodup_ids_column h levels (levelIn levels n)).idxOf_getElem i hlt'
  rwa [List.getElem_map, hget] at hidx

/-- Where a node stands: right of the start by its level, and below the top of its column by its
rank. -/
def spot (height across down left top : Int) (nodes : List Node) (levels : Levels) (n : Node) :
    Int × Int :=
  (left + levelIn levels n * across,
    topOf height down top (column nodes levels (levelIn levels n)).length +
      rank nodes levels n * (height + down))

/-- Steps of a size that is no less than `size` lead to places that far apart. -/
theorem add_mul_step_le {size step : Int} {i j : Nat} (start : Int) (hsize : 1 ≤ size)
    (hstep : size ≤ step) (hij : i < j) : start + i * step + size ≤ start + j * step := by
  obtain ⟨k, rfl⟩ := Nat.exists_eq_add_of_lt hij
  have hk : 0 ≤ (k : Int) * step := Int.mul_nonneg (Int.natCast_nonneg k) (by omega)
  have hmul : ((i + k + 1 : Nat) : Int) * step = i * step + k * step + step := by
    push_cast
    rw [Int.add_mul, Int.add_mul, Int.one_mul]
  omega

theorem mem_places (h : (nodes.map Node.id).Nodup) (hn : n ∈ nodes) :
    (n.id, p) ∈ places height across down left top nodes levels ↔
      p = point (spot height across down left top nodes levels n).1
        (spot height across down left top nodes levels n).2 := by
  constructor
  · intro hp
    obtain ⟨level, -, hp⟩ := List.mem_flatMap.1 hp
    obtain ⟨⟨m, j⟩, hm, he⟩ := List.mem_map.1 hp
    obtain ⟨hid, rfl⟩ := Prod.mk.inj he
    have hj := List.mem_zipIdx_iff_getElem?.1 hm
    obtain ⟨hmem, rfl⟩ := mem_column.1 (List.mem_of_getElem? hj)
    obtain rfl := eq_of_id_eq h hmem hn hid
    rw [spot, rank_of_getElem? h hj]
  · rintro rfl
    apply List.mem_flatMap.2
    refine ⟨levelIn levels n, mem_usedLevels.2 ⟨n, hn, rfl⟩, ?_⟩
    apply List.mem_map.2
    exact ⟨(n, rank nodes levels n), List.mem_zipIdx_iff_getElem?.2 (getElem?_column h hn), rfl⟩

/-- The columns have one place for each node, and no node takes another's. -/
theorem inColumns_eq (width height across down left top : Int) (h : (nodes.map Node.id).Nodup)
    (levels : Levels) :
    inColumns (.whole width height across down left top) nodes levels =
      .ok (nodes.map fun n => n.place (spot height across down left top nodes levels n)) := by
  rw [inColumns, positions_whole]
  apply mapError_eq_ok.2
  apply mapM_ok
  intro n hn
  have hfound : Table.get? (Table.ofPairs (places height across down left top nodes levels)) n.id =
      some (point (spot height across down left top nodes levels n).1
        (spot height across down left top nodes levels n).2) :=
    Table.get?_ofPairs_of_unique ((mem_places h hn).2 rfl) fun p hp => (mem_places h hn).1 hp
  rw [hfound, Option.getD_some, placeAt_point]

theorem Options.Integral.whole (width height across down left top : Int) :
    (Options.whole width height across down left top).Integral :=
  ⟨⟨_, rfl⟩, ⟨_, rfl⟩, ⟨_, rfl⟩, ⟨_, rfl⟩, ⟨_, rfl⟩, ⟨_, rfl⟩⟩

/-- The layered layout of nodes that can be given levels. -/
theorem layered_eq (width height across down left top : Int) (h : (nodes.map Node.id).Nodup)
    (hg : Dependencies.ofWiring nodes w = .ok g) (hl : Levels.ofNodes g nodes = .ok levels) :
    layered (.whole width height across down left top) nodes w =
      .ok (nodes.map fun n => n.place (spot height across down left top nodes levels n)) := by
  rw [layered_of_graph hg, hl]
  exact inColumns_eq width height across down left top h levels

/-- Each node of a layered layout has its spot, for some levels. -/
theorem eq_of_layered (h : (nodes.map Node.id).Nodup)
    (hl : layered (.whole width height across down left top) nodes w = .ok placed) :
    ∃ levels, placed =
      nodes.map fun n => n.place (spot height across down left top nodes levels n) := by
  obtain ⟨g, hg, hfound⟩ := bind_eq_ok.1 hl
  obtain ⟨levels, hlevels, -⟩ := bind_eq_ok.1 hfound
  have hplaced := layered_eq width height across down left top h hg hlevels
  exact ⟨levels, Except.ok.inj (hl.symm.trans hplaced)⟩

end Flowplan.Layout
