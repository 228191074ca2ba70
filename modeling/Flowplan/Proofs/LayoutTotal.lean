import Flowplan.Layout.Placement

namespace Flowplan.Layout
set_option autoImplicit true

/-- A measure without a fraction. -/
def Amount.Integral (a : Amount) : Prop := ∃ n, a = .int n

structure Options.Integral (o : Options) : Prop where
  nodeWidth : o.nodeWidth.Integral
  nodeHeight : o.nodeHeight.Integral
  horizontalSpacing : o.horizontalSpacing.Integral
  verticalSpacing : o.verticalSpacing.Integral
  startX : o.startX.Integral
  startY : o.startY.Integral

theorem Options.Integral.ofSettings (s : Settings) : (Options.ofSettings s).Integral :=
  ⟨⟨_, rfl⟩, ⟨_, rfl⟩, ⟨_, rfl⟩, ⟨_, rfl⟩, ⟨_, rfl⟩, ⟨_, rfl⟩⟩

theorem exists_gridPosition {o : Options} (ho : o.Integral) (i : Nat) :
    ∃ x y, gridPosition o i = .ok (.int x, .int y) := by
  obtain ⟨right, hr⟩ := ho.horizontalSpacing
  obtain ⟨down, hd⟩ := ho.verticalSpacing
  obtain ⟨left, hx⟩ := ho.startX
  obtain ⟨top, hy⟩ := ho.startY
  refine ⟨left + (i % columnCount : Nat) * right, top + (i / columnCount : Nat) * down, ?_⟩
  rw [gridPosition, hr, hd, hx, hy]
  rfl

theorem placeAt_int (n : Node) (x y : Int) :
    placeAt n (.int x, .int y) = .ok (n.place (x, y)) := rfl

theorem exists_gridFrom {o : Options} (ho : o.Integral) (i : Nat) (nodes : List Node) :
    ∃ placed, gridFrom o i nodes = .ok placed := by
  induction nodes generalizing i with
  | nil => exact ⟨[], rfl⟩
  | cons n rest ih =>
    obtain ⟨x, y, hp⟩ := exists_gridPosition ho i
    obtain ⟨placed, hrest⟩ := ih (i + 1)
    refine ⟨n.place (x, y) :: placed, ?_⟩
    rw [gridFrom, hp, hrest]
    rfl

/-- Measures without fractions always give a layout, if only the grid. -/
theorem exists_auto {o : Options} (ho : o.Integral) (nodes : List Node) (w : Wiring) :
    ∃ placed log, auto o nodes w = (.ok placed, log) := by
  match nodes with
  | [] => exact ⟨[], [], rfl⟩
  | [n] =>
    obtain ⟨left, hx⟩ := ho.startX
    obtain ⟨top, hy⟩ := ho.startY
    refine ⟨[n.place (left, top)], [], ?_⟩
    rw [auto, hx, hy, placeAt_int]
    rfl
  | n :: m :: rest =>
    cases hl : layered o (n :: m :: rest) w with
    | ok placed =>
      refine ⟨placed, [], ?_⟩
      simp only [auto, hl]
    | error f =>
      obtain ⟨placed, hg⟩ := exists_gridFrom ho 0 (n :: m :: rest)
      refine ⟨placed, [fallbackLog (n :: m :: rest) f], ?_⟩
      simp only [auto, hl, grid, hg]

end Flowplan.Layout
