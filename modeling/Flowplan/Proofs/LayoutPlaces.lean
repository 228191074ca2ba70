import Flowplan.Layout.Placement
import Flowplan.Proofs.ExceptLaws

namespace Flowplan.Layout
set_option autoImplicit true

/-- A node that is somewhere else and otherwise as it was. -/
def Moved (n m : Node) : Prop := ∃ position, m = n.place position

theorem Moved.id_eq (h : Moved n m) : m.id = n.id := by
  obtain ⟨position, rfl⟩ := h
  rfl

theorem ids_of_moved (h : List.Forall₂ Moved nodes placed) :
    placed.map Node.id = nodes.map Node.id := by
  induction h with
  | nil => rfl
  | cons hm h ih => rw [List.map_cons, List.map_cons, hm.id_eq, ih]

theorem moved_of_placeAt (h : placeAt n p = .ok m) : Moved n m := by
  obtain ⟨x, -, h⟩ := bind_eq_ok.1 h
  obtain ⟨y, -, h⟩ := bind_eq_ok.1 h
  exact ⟨(x, y), (pure_eq_ok.1 h).symm⟩

theorem forall₂_moved_of_gridFrom (h : gridFrom o i nodes = .ok placed) :
    List.Forall₂ Moved nodes placed := by
  induction nodes generalizing i placed with
  | nil =>
    obtain rfl := Except.ok.inj h
    exact .nil
  | cons n rest ih =>
    obtain ⟨p, -, h⟩ := bind_eq_ok.1 h
    obtain ⟨m, hm, h⟩ := bind_eq_ok.1 h
    obtain ⟨others, hrest, h⟩ := bind_eq_ok.1 h
    obtain rfl := pure_eq_ok.1 h
    exact .cons (moved_of_placeAt hm) (ih hrest)

theorem forall₂_moved_of_layered (h : layered o nodes w = .ok placed) :
    List.Forall₂ Moved nodes placed := by
  obtain ⟨g, -, h⟩ := bind_eq_ok.1 h
  obtain ⟨levels, -, h⟩ := bind_eq_ok.1 h
  obtain ⟨found, -, h⟩ := bind_eq_ok.1 h
  exact (forall₂_of_mapM (mapError_eq_ok.1 h)).imp fun _ _ => moved_of_placeAt

/-- A layout moves nodes and keeps their order. -/
theorem forall₂_moved_of_auto (h : auto o nodes w = (.ok placed, log)) :
    List.Forall₂ Moved nodes placed := by
  match nodes with
  | [] =>
    obtain rfl := Except.ok.inj (congrArg Prod.fst h)
    exact .nil
  | [n] =>
    obtain ⟨m, hm, rfl⟩ := map_eq_ok.1 (congrArg Prod.fst h)
    exact .cons (moved_of_placeAt hm) .nil
  | n :: m :: rest =>
    cases hl : layered o (n :: m :: rest) w with
    | ok found =>
      simp only [auto, hl, Prod.mk.injEq, Except.ok.injEq] at h
      exact h.1 ▸ forall₂_moved_of_layered hl
    | error f =>
      simp only [auto, hl, Prod.mk.injEq] at h
      exact forall₂_moved_of_gridFrom h.1

end Flowplan.Layout
