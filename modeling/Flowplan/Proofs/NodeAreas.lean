import Flowplan.Proofs.LayoutPositions
import Mathlib.Data.Real.Basic
import Mathlib.Data.Set.Lattice
import Mathlib.Data.Set.Prod
import Mathlib.Order.CompletePartialOrder
import Mathlib.Order.Interval.Set.Basic

/-!
The areas of laid out nodes. Main statement: where the spacing is no less than the size of a node, no
two nodes overlap, in columns as well as on the grid.
-/

namespace Flowplan.Layout
set_option autoImplicit true

variable {width height across down left top : Int} {nodes : List Node} {levels : Levels}

/-- The part of the canvas that a node of some size covers, from its position to the right and
down. -/
def Area (width height : Int) (n : Node) : Set (ℝ × ℝ) :=
  Set.Ico (n.position.1 : ℝ) (n.position.1 + width) ×ˢ
    Set.Ico (n.position.2 : ℝ) (n.position.2 + height)

/-- Nodes of some size of which no two overlap or share a position. -/
structure Separate (width height : Int) (nodes : List Node) : Prop where
  areas : nodes.Pairwise fun m n => Disjoint (Area width height m) (Area width height n)
  positions : (nodes.map Node.position).Nodup

/-- Of two positions one is a node's width beside the other, or a node's height above it. -/
def Apart (width height : Int) (p q : Int × Int) : Prop :=
  p.1 + width ≤ q.1 ∨ q.1 + width ≤ p.1 ∨ p.2 + height ≤ q.2 ∨ q.2 + height ≤ p.2

theorem disjoint_Ico {a b size : Int} (h : a + size ≤ b) :
    Disjoint (Set.Ico (a : ℝ) (a + size)) (Set.Ico (b : ℝ) (b + size)) := by
  apply Set.disjoint_left.2
  intro x hx hy
  have hle : (a : ℝ) + size ≤ b := by exact_mod_cast h
  exact absurd (lt_of_lt_of_le hx.2 hle) (not_lt.2 hy.1)

theorem Apart.disjoint {m n : Node} (h : Apart width height m.position n.position) :
    Disjoint (Area width height m) (Area width height n) := by
  rcases h with h | h | h | h
  · exact Set.disjoint_prod.2 (.inl (disjoint_Ico h))
  · exact Set.disjoint_prod.2 (.inl (disjoint_Ico h).symm)
  · exact Set.disjoint_prod.2 (.inr (disjoint_Ico h))
  · exact Set.disjoint_prod.2 (.inr (disjoint_Ico h).symm)

theorem Apart.ne {p q : Int × Int} (hwidth : 1 ≤ width) (hheight : 1 ≤ height)
    (h : Apart width height p q) : p ≠ q := by
  rintro rfl
  simp only [Apart] at h
  omega

theorem Separate.of_apart (hwidth : 1 ≤ width) (hheight : 1 ≤ height)
    (h : nodes.Pairwise fun m n => Apart width height m.position n.position) :
    Separate width height nodes where
  areas := h.imp Apart.disjoint
  positions := List.pairwise_map.2 (h.imp fun hmn => hmn.ne hwidth hheight)

theorem Separate.of_few (h : nodes.length < 2) : Separate width height nodes := by
  match nodes with
  | [] => exact ⟨.nil, List.nodup_nil⟩
  | [n] => exact ⟨List.pairwise_singleton _ n, List.nodup_singleton n.position⟩
  | m :: n :: rest =>
    simp only [List.length_cons] at h
    omega

/-- Nodes of different ids stand in different columns or in different rows of one. -/
theorem apart_spot (hwidth : 1 ≤ width) (hheight : 1 ≤ height) (hacross : width ≤ across)
    (hdown : height ≤ down) (hm : m ∈ nodes) (hne : m.id ≠ n.id) :
    Apart width height (spot height across down left top nodes levels m)
      (spot height across down left top nodes levels n) := by
  rcases Nat.lt_trichotomy (levelIn levels m) (levelIn levels n) with hlt | heq | hlt
  · exact .inl (add_mul_step_le left hwidth hacross hlt)
  · have hcolumn : m.id ∈ (column nodes levels (levelIn levels m)).map Node.id :=
      List.mem_map_of_mem (mem_column.2 ⟨hm, rfl⟩)
    have hrank : rank nodes levels m ≠ rank nodes levels n := by
      intro he
      rw [rank, rank, ← heq] at he
      exact hne ((List.idxOf_inj hcolumn).1 he)
    have hpitch : height ≤ height + down := by omega
    simp only [spot, ← heq]
    rcases Nat.lt_or_gt_of_ne hrank with hlt | hlt
    · exact .inr (.inr (.inl (add_mul_step_le _ hheight hpitch hlt)))
    · exact .inr (.inr (.inr (add_mul_step_le _ hheight hpitch hlt)))
  · exact .inr (.inl (add_mul_step_le left hwidth hacross hlt))

theorem separate_layered (hnodup : (nodes.map Node.id).Nodup) (hwidth : 1 ≤ width)
    (hheight : 1 ≤ height) (hacross : width ≤ across) (hdown : height ≤ down)
    (h : layered (.whole width height across down left top) nodes w = .ok placed) :
    Separate width height placed := by
  obtain ⟨levels, rfl⟩ := eq_of_layered hnodup h
  apply Separate.of_apart hwidth hheight
  apply List.pairwise_map.2
  apply (List.pairwise_map.1 hnodup).imp_of_mem
  intro m n hm _ hne
  exact apart_spot hwidth hheight hacross hdown hm hne

theorem gridFrom_whole (i : Nat) (nodes : List Node) :
    gridFrom (.whole width height across down left top) i nodes =
      .ok ((nodes.zipIdx i).map fun (n, j) =>
        n.place (left + (j % columnCount : Nat) * across, top + (j / columnCount : Nat) * down)) := by
  induction nodes generalizing i with
  | nil => rfl
  | cons n rest ih =>
    have hposition : gridPosition (.whole width height across down left top) i =
        .ok (point (left + (i % columnCount : Nat) * across)
          (top + (i / columnCount : Nat) * down)) := rfl
    rw [gridFrom, hposition, ih]
    rfl

theorem apart_grid {i j : Nat} (hwidth : 1 ≤ width) (hheight : 1 ≤ height) (hacross : width ≤ across)
    (hdown : height ≤ down) (hij : i < j) :
    Apart width height
      (left + (i % columnCount : Nat) * across, top + (i / columnCount : Nat) * down)
      (left + (j % columnCount : Nat) * across, top + (j / columnCount : Nat) * down) := by
  rcases Nat.lt_or_ge (i / columnCount) (j / columnCount) with hrow | hrow
  · exact .inr (.inr (.inl (add_mul_step_le top hheight hdown hrow)))
  · have hcolumn : i % columnCount < j % columnCount := by
      simp only [columnCount] at hrow ⊢
      omega
    exact .inl (add_mul_step_le left hwidth hacross hcolumn)

theorem separate_grid (hwidth : 1 ≤ width) (hheight : 1 ≤ height) (hacross : width ≤ across)
    (hdown : height ≤ down)
    (h : grid (.whole width height across down left top) nodes = .ok placed) :
    Separate width height placed := by
  rw [grid, gridFrom_whole] at h
  obtain rfl := Except.ok.inj h
  apply Separate.of_apart hwidth hheight
  apply List.pairwise_map.2
  have hindices : (nodes.zipIdx.map Prod.snd).Pairwise (· < ·) := by
    rw [List.zipIdx_map_snd]
    exact List.pairwise_lt_range'
  exact (List.pairwise_map.1 hindices).imp fun hij => apart_grid hwidth hheight hacross hdown hij

/-- Nodes of different ids never overlap, whatever connections they have, where the spacing leaves
room for them: not in the layout that they are given, and neither in columns nor on the grid. -/
theorem separate_auto (left top : Int) (hnodup : (nodes.map Node.id).Nodup) (hwidth : 1 ≤ width)
    (hheight : 1 ≤ height) (hacross : width ≤ across) (hdown : height ≤ down) (w : Wiring) :
    (∃ placed log, auto (.whole width height across down left top) nodes w = (.ok placed, log) ∧
      List.Forall₂ Moved nodes placed ∧ Separate width height placed) ∧
    (∀ placed, layered (.whole width height across down left top) nodes w = .ok placed →
      Separate width height placed) ∧
    ∀ placed, grid (.whole width height across down left top) nodes = .ok placed →
      Separate width height placed := by
  have hcolumns : ∀ placed,
      layered (.whole width height across down left top) nodes w = .ok placed →
        Separate width height placed :=
    fun _ => separate_layered hnodup hwidth hheight hacross hdown
  have hgrid : ∀ placed, grid (.whole width height across down left top) nodes = .ok placed →
      Separate width height placed :=
    fun _ => separate_grid hwidth hheight hacross hdown
  refine ⟨?_, hcolumns, hgrid⟩
  obtain ⟨placed, log, hauto, hmoved, hmany⟩ :=
    auto_moves (Options.Integral.whole width height across down left top) nodes w
  refine ⟨placed, log, hauto, hmoved, ?_⟩
  rcases Nat.lt_or_ge nodes.length 2 with hfew | htwo
  · have hlen : placed.length < 2 := hmoved.length_eq ▸ hfew
    exact .of_few hlen
  · rcases hmany htwo with ⟨-, hplaced, -⟩ | ⟨-, hplaced, -⟩
    · exact hgrid placed hplaced
    · exact hcolumns placed hplaced

/-- A node that leads to two others. -/
def fork : Wiring :=
  .untyped (.obj [("a", .obj [("main", .arr [.obj [("target", .str "b")],
    .obj [("target", .str "c")]])])])

/-- The two ends of a fork stand one below the other, beside where it starts. -/
theorem separate_auto_fork :
    ([idle "a", idle "b", idle "c"].map Node.id).Nodup ∧ (1 : Int) ≤ 100 ∧ (100 : Int) ≤ 150 ∧
      (1 : Int) ≤ 240 ∧ (240 : Int) ≤ 300 ∧ ∃ placed log,
        auto .default [idle "a", idle "b", idle "c"] fork = (.ok placed, log) ∧
        Separate 240 100 placed ∧
        placed.map Node.position = [(100, 50), (400, -75), (400, 175)] := by
  have hnodup : ([idle "a", idle "b", idle "c"].map Node.id).Nodup := by decide
  have hheight : (1 : Int) ≤ 100 := by decide
  have hdown : (100 : Int) ≤ 150 := by decide
  have hwidth : (1 : Int) ≤ 240 := by decide
  have hacross : (240 : Int) ≤ 300 := by decide
  refine ⟨hnodup, hheight, hdown, hwidth, hacross, ?_⟩
  obtain ⟨⟨placed, log, hauto, -, hseparate⟩, -⟩ :=
    separate_auto 100 100 hnodup hwidth hheight hacross hdown fork
  refine ⟨placed, log, hauto, hseparate, ?_⟩
  have hpositions : (auto .default [idle "a", idle "b", idle "c"] fork).1.toOption.map
      (·.map Node.position) = some [(100, 50), (400, -75), (400, 175)] := by
    cbv
  have hresult : auto .default [idle "a", idle "b", idle "c"] fork = (.ok placed, log) := hauto
  rw [hresult] at hpositions
  exact Option.some.inj hpositions

end Flowplan.Layout
