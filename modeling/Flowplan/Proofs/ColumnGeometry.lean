import Flowplan.Proofs.LayoutPositions
import Flowplan.Proofs.ListedConnections
import Flowplan.Proofs.LongestPaths
import Mathlib.Data.Rat.Cast.Order
import Mathlib.Tactic.Linarith
import Mathlib.Tactic.NormNum
import Mathlib.Tactic.Ring

/-!
The geometry of the layered layout. Main statement: nodes whose connections lead into no cycle stand
in columns by their longest paths of dependencies, sorted by name and centred on the start.
-/

namespace Flowplan.Layout
set_option autoImplicit true

open Relation Dependencies

/-- The elements of a list sorted by a key, those of equal keys in the order that they had. -/
structure StablySorted {α : Type} (key : α → String) (xs sorted : List α) : Prop where
  perm : sorted.Perm xs
  ordered : sorted.Pairwise fun a b => key a ≤ key b
  stable : ∀ k, (sorted.filter fun a => key a = k) = xs.filter fun a => key a = k

theorem StablySorted.mergeSort {α : Type} (key : α → String) (xs : List α) :
    StablySorted key xs (xs.mergeSort fun a b => decide (key a ≤ key b)) := by
  have htrans : ∀ a b c : α, decide (key a ≤ key b) = true → decide (key b ≤ key c) = true →
      decide (key a ≤ key c) = true := by
    intro a b c hab hbc
    exact decide_eq_true (String.le_trans (of_decide_eq_true hab) (of_decide_eq_true hbc))
  have htotal : ∀ a b : α, (decide (key a ≤ key b) || decide (key b ≤ key a)) = true := by
    intro a b
    rw [Bool.or_eq_true, decide_eq_true_eq, decide_eq_true_eq]
    exact String.le_total (key a) (key b)
  have hperm := List.mergeSort_perm xs fun a b => decide (key a ≤ key b)
  refine ⟨hperm, ?_, ?_⟩
  · exact (List.pairwise_mergeSort htrans htotal xs).imp of_decide_eq_true
  · intro k
    -- Sorting keeps a sublist that is sorted already, as one of equal keys is.
    have hequal : (xs.filter fun a => key a = k).Pairwise fun a b => decide (key a ≤ key b) = true := by
      apply List.pairwise_of_forall_mem_list
      intro a ha b hb
      have hka := of_decide_eq_true (List.mem_filter.1 ha).2
      have hkb := of_decide_eq_true (List.mem_filter.1 hb).2
      rw [hka, hkb]
      exact decide_eq_true (String.le_refl k)
    have hsub := (List.sublist_mergeSort htrans htotal hequal List.filter_sublist).filter
      fun a => decide (key a = k)
    simp only [List.filter_filter, Bool.and_self] at hsub
    exact (hsub.eq_of_length (hperm.filter _).length_eq.symm).symm

theorem StablySorted.map {α : Type} {key : α → String} {xs sorted : List α}
    (h : StablySorted key xs sorted) {f : α → α} (hf : ∀ a, key (f a) = key a) :
    StablySorted key (xs.map f) (sorted.map f) where
  perm := h.perm.map f
  ordered := by
    apply List.pairwise_map.2
    simpa only [hf] using h.ordered
  stable k := by
    have hcomp : ((fun a => decide (key a = k)) ∘ f) = fun a => decide (key a = k) := by
      funext a
      simp only [Function.comp, hf]
    rw [List.filter_map, List.filter_map, hcomp, h.stable k]

/-- The height of so many nodes one below the other. -/
def columnHeight (height down : Int) (size : Nat) : Int := size * height + (size - 1) * down

/-- Nodes one below the other, at equal distances, in a column that is centred on a height up to the
half that is cut off. -/
structure Stacked (height down top : Int) (nodes : List Node) : Prop where
  spaced : ∀ (i : Nat) m n, nodes[i]? = some m → nodes[i + 1]? = some n →
    n.position.2 = m.position.2 + (height + down)
  first : ∀ n, nodes.head? = some n →
    n.position.2 = top - Int.fdiv (columnHeight height down nodes.length) 2
  centred : ∀ m n, nodes.head? = some m → nodes.getLast? = some n →
    |((m.position.2 + (n.position.2 + height) : Int) : ℚ) / 2 - top| ≤ 1 / 2

/-- What the foot of a column is below its top is the column's height. -/
theorem foot_eq {size : Nat} (height down : Int) (hsize : 0 < size) :
    ((size - 1 : Nat) : Int) * (height + down) + height = columnHeight height down size := by
  obtain ⟨k, rfl⟩ := Nat.exists_eq_add_of_lt hsize
  simp only [columnHeight, Nat.zero_add, Nat.add_sub_cancel]
  push_cast
  ring

theorem centre_near (total top : Int) :
    |((2 * (top - Int.fdiv total 2) + total : Int) : ℚ) / 2 - top| ≤ 1 / 2 := by
  have hdouble : 2 * (top - Int.fdiv total 2) + total = 2 * top + Int.fmod total 2 := by
    have := Int.mul_fdiv_add_fmod total 2
    omega
  have hnonneg : 0 ≤ Int.fmod total 2 := Int.fmod_nonneg_of_pos total (by omega)
  have hlt : Int.fmod total 2 < 2 := Int.fmod_lt_of_pos total (by omega)
  have hcentre : ((2 * top + Int.fmod total 2 : Int) : ℚ) / 2 - top = (Int.fmod total 2 : ℚ) / 2 := by
    push_cast
    ring
  have hzero : (0 : ℚ) ≤ (Int.fmod total 2 : ℚ) := by exact_mod_cast hnonneg
  have hone : (Int.fmod total 2 : ℚ) ≤ 1 := by exact_mod_cast Int.lt_add_one_iff.1 hlt
  rw [hdouble, hcentre, abs_of_nonneg (by linarith)]
  linarith

theorem Stacked.of_getElem? {height down top : Int} {nodes : List Node}
    (h : ∀ (i : Nat) n, nodes[i]? = some n →
      n.position.2 = topOf height down top nodes.length + i * (height + down)) :
    Stacked height down top nodes := by
  have hfirst : ∀ n, nodes.head? = some n →
      n.position.2 = top - Int.fdiv (columnHeight height down nodes.length) 2 := by
    intro n hn
    rw [List.head?_eq_getElem?] at hn
    rw [h 0 n hn, Nat.cast_zero, Int.zero_mul, Int.add_zero]
    rfl
  refine ⟨?_, hfirst, ?_⟩
  · intro i m n hm hn
    rw [h i m hm, h (i + 1) n hn]
    push_cast
    ring
  · intro m n hm hn
    have hpos : 0 < nodes.length := List.length_pos_of_mem (List.mem_of_mem_getLast? hn)
    rw [List.getLast?_eq_getElem?] at hn
    have hfoot : m.position.2 + (n.position.2 + height) =
        2 * (top - Int.fdiv (columnHeight height down nodes.length) 2) +
          columnHeight height down nodes.length := by
      have hheight := foot_eq height down hpos
      rw [hfirst m hm, h _ n hn, topOf, ← columnHeight]
      omega
    rw [hfoot]
    exact centre_near _ _

/-- Nodes that stand in columns. The column of a node is its level, which is the length of the
longest path of dependencies from it; in its column it has the rank of its name. -/
structure Columns (height across down left top : Int) (w : Wiring) (g : Dependencies)
    (level : String → Nat) (placed : List Node) : Prop where
  longest : ∀ n ∈ placed, ∀ a, ReflTransGen g.On n.id a →
    IsGreatest {k | g.Path a k} (level a)
  right : ∀ n ∈ placed, n.position.1 = left + level n.id * across
  column : ∀ m ∈ placed, ∀ n ∈ placed,
    (m.position.1 = n.position.1 ↔ level m.id = level n.id)
  advances : ∀ m ∈ placed, ∀ n ∈ placed, w.Lists m.id n.id →
    m.position.1 + across ≤ n.position.1
  adjacent : ∀ n ∈ placed, (∃ source, w.Lists source n.id) →
    ∃ source, w.Lists source n.id ∧ level n.id = level source + 1 ∧
      ∀ m ∈ placed, m.id = source → n.position.1 = m.position.1 + across
  stacked : ∀ l, ∃ nodes,
    StablySorted Node.name (placed.filter fun n => level n.id = l) nodes ∧
      Stacked height down top nodes

variable {height across down left top : Int} {nodes : List Node} {levels : Levels} {w : Wiring}
  {g : Dependencies}

namespace Levels

theorem Sound.getD_isGreatest (h : Sound g levels) (ha : Table.has levels a = true) :
    IsGreatest {k | g.Path a k} ((Table.get? levels a).getD 0) := by
  obtain ⟨l, hl⟩ := has_iff.1 ha
  rw [hl, Option.getD_some]
  exact h.isGreatest hl

theorem Sound.getD_lt (h : Sound g levels) (ha : Table.has levels a = true) (hon : g.On a b) :
    (Table.get? levels b).getD 0 < (Table.get? levels a).getD 0 := by
  obtain ⟨l, hl⟩ := has_iff.1 ha
  obtain ⟨k, hk, hlt⟩ := h.lt_of_on hl hon
  rwa [hl, hk, Option.getD_some, Option.getD_some]

theorem Sound.exists_getD_below (h : Sound g levels) (ha : Table.has levels a = true)
    (hon : g.On a c) :
    ∃ b, g.On a b ∧ (Table.get? levels a).getD 0 = (Table.get? levels b).getD 0 + 1 := by
  obtain ⟨l, hl⟩ := has_iff.1 ha
  obtain ⟨k, -, hlt⟩ := h.lt_of_on hl hon
  obtain ⟨l, rfl⟩ := Nat.exists_eq_add_of_lt hlt
  obtain ⟨b, hab, hb⟩ := h.exists_below hl
  refine ⟨b, hab, ?_⟩
  rw [hl, hb, Option.getD_some, Option.getD_some]

end Levels

theorem stacked_column (height across down left top : Int) (h : (nodes.map Node.id).Nodup)
    (levels : Levels) (l : Nat) :
    Stacked height down top ((column nodes levels l).map fun n =>
      n.place (spot height across down left top nodes levels n)) := by
  apply Stacked.of_getElem?
  intro i n hn
  rw [List.getElem?_map] at hn
  obtain ⟨m, hm, rfl⟩ := Option.map_eq_some_iff.1 hn
  obtain ⟨-, hlevel⟩ := mem_column.1 (List.mem_of_getElem? hm)
  rw [List.length_map]
  change (spot height across down left top nodes levels m).2 = _
  rw [spot, rank_of_getElem? h hm, hlevel]

theorem stablySorted_column (f : Node → Int × Int) (nodes : List Node) (levels : Levels) (l : Nat) :
    StablySorted Node.name
      ((nodes.map fun n => n.place (f n)).filter fun n => levelIn levels n = l)
      ((column nodes levels l).map fun n => n.place (f n)) := by
  rw [List.filter_map]
  exact (StablySorted.mergeSort Node.name _).map fun _ => rfl

theorem columns_of_levels (height down left top : Int) (hacross : 1 ≤ across)
    (hnodup : (nodes.map Node.id).Nodup) (hg : ofWiring nodes w = .ok g)
    (hsound : Levels.Sound g levels) (hall : ∀ n ∈ nodes, Table.has levels n.id = true) :
    Columns height across down left top w g (fun a => (Table.get? levels a).getD 0)
      (nodes.map fun n => n.place (spot height across down left top nodes levels n)) := by
  have hhas : ∀ n ∈ nodes.map fun n => n.place (spot height across down left top nodes levels n),
      Table.has levels n.id = true :=
    List.forall_mem_map.2 hall
  have hleft : ∀ n ∈ nodes.map fun n => n.place (spot height across down left top nodes levels n),
      n.position.1 = left + ((Table.get? levels n.id).getD 0 : Nat) * across :=
    List.forall_mem_map.2 fun _ _ => rfl
  refine ⟨?_, hleft, ?_, ?_, ?_, ?_⟩
  · intro n hn a ha
    exact hsound.getD_isGreatest (hsound.has_of_reaches (hhas n hn) ha)
  · intro m hm n hn
    rw [hleft m hm, hleft n hn, Int.add_right_inj, Int.mul_eq_mul_right_iff (by omega),
      Int.ofNat_inj]
  · intro m hm n hn hlists
    rw [hleft m hm, hleft n hn]
    have hlt := hsound.getD_lt (hhas n hn) ((on_iff_lists hg).2 hlists)
    exact add_mul_step_le left hacross (Int.le_refl across) hlt
  · rintro n hn ⟨s, hs⟩
    obtain ⟨source, hon, hbelow⟩ :=
      hsound.exists_getD_below (hhas n hn) ((on_iff_lists hg).2 hs)
    refine ⟨source, (on_iff_lists hg).1 hon, hbelow, ?_⟩
    rintro m hm rfl
    rw [hleft m hm, hleft n hn, hbelow]
    push_cast
    ring
  · intro l
    exact ⟨_, stablySorted_column _ nodes levels l,
      stacked_column height across down left top hnodup levels l⟩

theorem auto_of_layered (hmany : 2 ≤ nodes.length) (h : layered o nodes w = .ok placed) :
    auto o nodes w = (.ok placed, []) := by
  match nodes with
  | [] => exact absurd hmany (by simp)
  | [n] => exact absurd hmany (by simp)
  | n :: m :: rest => simp only [auto, h]

theorem not_cyclic_of_levels (hg : ofWiring nodes w = .ok g)
    (hl : Levels.ofNodes g nodes = .ok levels) : ∀ n ∈ nodes, ¬ w.Cyclic n.id := by
  intro n hn hcycle
  obtain ⟨f, hf, -⟩ | ⟨-, -, -, -, hnone⟩ := Levels.ofNodes_cases g nodes
  · simp [hl] at hf
  · exact hnone n hn ((cyclic_iff hg).2 hcycle)

/-- Two nodes or more whose connections lead into no cycle stand in columns, each of them where its
longest path of dependencies puts it: right of all that lead to it and beside some, below those of
its column with smaller names, and its column centred on the start. -/
theorem auto_columns (width height down left top : Int) (hmany : 2 ≤ nodes.length)
    (hnodup : (nodes.map Node.id).Nodup) (hw : w.WellFormed)
    (hacyclic : ∀ n ∈ nodes, ¬ w.Cyclic n.id) (hacross : 1 ≤ across) :
    ∃ placed g level,
      auto (.whole width height across down left top) nodes w = (.ok placed, []) ∧
      List.Forall₂ Moved nodes placed ∧ ofWiring nodes w = .ok g ∧
      Columns height across down left top w g level placed := by
  obtain ⟨g, hg⟩ := (wellFormed_iff nodes).1 hw
  obtain ⟨f, -, n, hn, hcycle⟩ | ⟨levels, hl, hsound, hall, -⟩ := Levels.ofNodes_cases g nodes
  · exact absurd ((cyclic_iff hg).1 hcycle) (hacyclic n hn)
  · have hlayered := layered_eq width height across down left top hnodup hg hl
    exact ⟨_, g, _, auto_of_layered hmany hlayered, forall₂_moved_of_layered hlayered, hg,
      columns_of_levels height down left top hacross hnodup hg hsound hall⟩

/-- A node that leads to another one twice, to a third one, and comes after what is no node. -/
def doubled : Wiring :=
  .untyped (.obj [("a", .obj [("main", .arr [.obj [("target", .str "c")], .obj [("target", .str "b")]]),
    ("other", .arr [.obj [("target", .str "c")]])]), ("x", connectionTo "a")])

/-- The nodes after one that is second itself stand in the third column, in the order in which they
are given as their names are equal. -/
theorem auto_columns_doubled :
    2 ≤ [idle "b", idle "a", idle "c"].length ∧ ([idle "b", idle "a", idle "c"].map Node.id).Nodup ∧
      doubled.WellFormed ∧ (∀ n ∈ [idle "b", idle "a", idle "c"], ¬ doubled.Cyclic n.id) ∧
      (1 : Int) ≤ 300 ∧ ∃ placed g level,
        auto .default [idle "b", idle "a", idle "c"] doubled = (.ok placed, []) ∧
        Columns 100 300 150 100 100 doubled g level placed ∧
        placed.map Node.position = [(700, -75), (400, 50), (700, 175)] := by
  have hnodup : ([idle "b", idle "a", idle "c"].map Node.id).Nodup := by decide
  have hg : ofWiring [idle "b", idle "a", idle "c"] doubled =
      .ok [("b", ["a"]), ("a", ["x"]), ("c", ["a"])] := by rfl
  have hl : Levels.ofNodes [("b", ["a"]), ("a", ["x"]), ("c", ["a"])]
      [idle "b", idle "a", idle "c"] = .ok [("x", 0), ("a", 1), ("b", 2), ("c", 2)] := by rfl
  have hw : doubled.WellFormed := (wellFormed_iff _).2 ⟨_, hg⟩
  have hacyclic := not_cyclic_of_levels hg hl
  have hacross : (1 : Int) ≤ 300 := by decide
  refine ⟨by decide, hnodup, hw, hacyclic, hacross, ?_⟩
  obtain ⟨placed, g, level, hauto, -, -, hcolumns⟩ :=
    auto_columns 240 100 150 100 100 (by decide) hnodup hw hacyclic hacross
  refine ⟨placed, g, level, hauto, hcolumns, ?_⟩
  have hpositions : (auto .default [idle "b", idle "a", idle "c"] doubled).1.toOption.map
      (·.map Node.position) = some [(700, -75), (400, 50), (700, 175)] := by
    cbv
  have hresult : auto .default [idle "b", idle "a", idle "c"] doubled = (.ok placed, []) := hauto
  rw [hresult] at hpositions
  exact Option.some.inj hpositions

end Flowplan.Layout
