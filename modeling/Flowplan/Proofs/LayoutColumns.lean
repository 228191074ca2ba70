import Flowplan.Proofs.LayoutTotal
import Flowplan.Proofs.TableLaws
import Flowplan.Proofs.ExceptLaws

namespace Flowplan.Layout
set_option autoImplicit true

variable {width height across down left top : Int}

theorem Options.Integral.exists_whole {o : Options} (h : o.Integral) :
    ∃ width height across down left top, o = .whole width height across down left top := by
  obtain ⟨nodeWidth, nodeHeight, horizontal, vertical, startX, startY⟩ := o
  obtain ⟨⟨width, rfl⟩, ⟨height, rfl⟩, ⟨across, rfl⟩, ⟨down, rfl⟩, ⟨left, rfl⟩, ⟨top, rfl⟩⟩ := h
  exact ⟨width, height, across, down, left, top, rfl⟩

/-- A position of whole numbers. -/
def point (x y : Int) : Position := (.int x, .int y)

theorem placeAt_point (n : Node) (x y : Int) : placeAt n (point x y) = .ok (n.place (x, y)) := rfl

/-- Where the first of so many nodes stands in a column that is centred on the start. -/
def topOf (height down top : Int) (size : Nat) : Int :=
  top - Int.fdiv (size * height + (size - 1) * down) 2

theorem columnTop_whole (size : Nat) :
    columnTop (.whole width height across down left top) size =
      .ok (.int (topOf height down top size)) := rfl

theorem columnPositions_whole (x y : Int) (i : Nat) (nodes : List Node) :
    columnPositions (.whole width height across down left top) (.int x) (.int y) i nodes =
      .ok ((nodes.zipIdx i).map fun (n, j) => (n.id, point x (y + j * (height + down)))) := by
  induction nodes generalizing i with
  | nil => rfl
  | cons n rest ih =>
    rw [columnPositions, ih]
    rfl

/-- The places of the nodes of a level, one below the other. -/
def columnPlaces (height across down left top : Int) (nodes : List Node) (levels : Levels)
    (level : Nat) : List (String × Position) :=
  (column nodes levels level).zipIdx.map fun (n, j) => (n.id,
    point (left + level * across)
      (topOf height down top (column nodes levels level).length + j * (height + down)))

theorem levelPositions_whole (nodes : List Node) (levels : Levels) (level : Nat) :
    levelPositions (.whole width height across down left top) nodes levels level =
      .ok (columnPlaces height across down left top nodes levels level) := by
  have hx : Amount.mul (.int level) (Options.whole width height across down left top).horizontalSpacing
      = .ok (.int (level * across)) := rfl
  rw [levelPositions]
  simp only [hx, columnTop_whole]
  exact columnPositions_whole ..

/-- The places of all nodes, level by level. -/
def places (height across down left top : Int) (nodes : List Node) (levels : Levels) :
    List (String × Position) :=
  (usedLevels nodes levels).flatMap (columnPlaces height across down left top nodes levels)

theorem positions_whole (nodes : List Node) (levels : Levels) :
    positions (.whole width height across down left top) nodes levels =
      .ok (Table.ofPairs (places height across down left top nodes levels)) := by
  rw [positions, mapM_ok fun level _ => levelPositions_whole nodes levels level]
  rfl

theorem exists_point_of_mem_places (h : (a, p) ∈ places height across down left top nodes levels) :
    ∃ x y, p = point x y := by
  obtain ⟨level, -, h⟩ := List.mem_flatMap.1 h
  obtain ⟨e, -, he⟩ := List.mem_map.1 h
  exact ⟨_, _, (Prod.mk.inj he).2.symm⟩

/-- Whole numbers place every node whose place can be found. -/
theorem exists_placed {found : Table String Position} (left top : Int)
    (h : ∀ a p, Table.get? found a = some p → ∃ x y, p = point x y) (nodes : List Node) :
    ∃ placed, nodes.mapM (fun n => placeAt n ((Table.get? found n.id).getD (point left top))) =
      .ok placed := by
  have hplace : ∀ n : Node, ∃ m, placeAt n ((Table.get? found n.id).getD (point left top)) =
      .ok m := by
    intro n
    cases hn : Table.get? found n.id with
    | none => exact ⟨_, placeAt_point n left top⟩
    | some p =>
      obtain ⟨x, y, rfl⟩ := h n.id p hn
      exact ⟨_, placeAt_point n x y⟩
  exact exists_mapM fun n _ => hplace n

end Flowplan.Layout
