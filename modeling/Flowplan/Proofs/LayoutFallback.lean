import Flowplan.Proofs.LayoutColumns
import Flowplan.Proofs.LayoutPlaces
import Flowplan.Proofs.LevelSearch

namespace Flowplan.Layout
set_option autoImplicit true

open Relation Dependencies

/-- Nodes that cannot be given levels: their connections make no dependencies, or some node leads
into a cycle of them. -/
def Unlevelled (nodes : List Node) (w : Wiring) : Prop :=
  (∃ f, ofWiring nodes w = .error f) ∨
    ∃ g, ofWiring nodes w = .ok g ∧ ∃ n ∈ nodes, g.Cyclic n.id

variable {o : Options} {nodes : List Node} {w : Wiring}

/-- The nodes in columns by their levels. -/
def inColumns (o : Options) (nodes : List Node) (levels : Levels) : Except Fault (List Node) := do
  let found ← (positions o nodes levels).mapError .amount
  (nodes.mapM fun n => placeAt n ((Table.get? found n.id).getD (o.startX, o.startY))).mapError .amount

theorem layered_of_graph (h : ofWiring nodes w = .ok g) :
    layered o nodes w = (Levels.ofNodes g nodes >>= inColumns o nodes) := by
  rw [layered, h]
  rfl

theorem exists_inColumns (ho : o.Integral) (nodes : List Node) (levels : Levels) :
    ∃ placed, inColumns o nodes levels = .ok placed := by
  obtain ⟨width, height, across, down, left, top, rfl⟩ := ho.exists_whole
  have hpoints : ∀ a p,
      Table.get? (Table.ofPairs (places height across down left top nodes levels)) a = some p →
        ∃ x y, p = point x y := by
    intro a p hp
    exact exists_point_of_mem_places (Table.mem_of_mem_ofPairs (Table.mem_of_get? hp))
  obtain ⟨placed, hplaced⟩ := exists_placed left top hpoints nodes
  refine ⟨placed, ?_⟩
  rw [inColumns, positions_whole]
  exact mapError_eq_ok.2 hplaced

/-- The layered layout is possible exactly for nodes that can be given levels. -/
theorem layered_cases (ho : o.Integral) (nodes : List Node) (w : Wiring) :
    (Unlevelled nodes w ∧ ∃ f, layered o nodes w = .error f) ∨
      (¬ Unlevelled nodes w ∧ ∃ placed, layered o nodes w = .ok placed) := by
  cases hg : ofWiring nodes w with
  | error f =>
    refine .inl ⟨.inl ⟨f, hg⟩, f, ?_⟩
    rw [layered, hg]
    rfl
  | ok g =>
    rw [layered_of_graph hg]
    rcases Levels.ofNodes_cases g nodes with ⟨f, hf, n, hn, hcycle⟩ | ⟨levels, hl, -, -, hnone⟩
    · refine .inl ⟨.inr ⟨g, hg, n, hn, hcycle⟩, f, ?_⟩
      rw [hf]
      rfl
    · rw [hl]
      refine .inr ⟨?_, exists_inColumns ho nodes levels⟩
      rintro (⟨f, hf⟩ | ⟨g', hg', n, hn, hcycle⟩)
      · simp [hg] at hf
      · rw [hg] at hg'
        obtain rfl := Except.ok.inj hg'
        exact hnone n hn hcycle

/-- With measures that are whole numbers, a layout moves the nodes and does nothing else to them.
Two nodes or more are laid out in columns, all of them, unless they cannot be given levels; then all
of them go to the grid. -/
theorem auto_moves (ho : o.Integral) (nodes : List Node) (w : Wiring) :
    ∃ placed log, auto o nodes w = (.ok placed, log) ∧ List.Forall₂ Moved nodes placed ∧
      (2 ≤ nodes.length →
        (Unlevelled nodes w ∧ grid o nodes = .ok placed ∧ ∃ f, log = [fallbackLog nodes f]) ∨
          (¬ Unlevelled nodes w ∧ layered o nodes w = .ok placed ∧ log = [])) := by
  obtain ⟨placed, log, hauto⟩ := exists_auto ho nodes w
  refine ⟨placed, log, hauto, forall₂_moved_of_auto hauto, ?_⟩
  intro hmany
  match nodes with
  | [] => exact absurd hmany (by simp)
  | [n] => exact absurd hmany (by simp)
  | n :: m :: rest =>
    rcases layered_cases ho (n :: m :: rest) w with ⟨hun, f, hf⟩ | ⟨hlevels, found, hfound⟩
    · simp only [auto, hf, Prod.mk.injEq] at hauto
      exact .inl ⟨hun, hauto.1, f, hauto.2.symm⟩
    · simp only [auto, hfound, Prod.mk.injEq, Except.ok.injEq] at hauto
      obtain ⟨rfl, rfl⟩ := hauto
      exact .inr ⟨hlevels, hfound, rfl⟩

/-- A node that does nothing. -/
def idle (id : String) : Node := ⟨id, "N", "n8n-nodes-base.noOp", 1, (0, 0), [], none⟩

/-- One connection to a node, as a value of unknown form. -/
def connectionTo (target : String) : Json :=
  .obj [("main", .arr [.obj [("target", .str target)]])]

/-- Two nodes that lead to each other stand on the grid, one of them at the second place of the
first row. -/
theorem auto_moves_cycle :
    Options.default.Integral ∧ ∃ placed log,
      auto .default [idle "a", idle "b"]
        (.untyped (.obj [("a", connectionTo "b"), ("b", connectionTo "a")])) = (.ok placed, log) ∧
      placed.map Node.position = [(100, 100), (400, 100)] := by
  have ho := Options.Integral.ofSettings .default
  refine ⟨ho, ?_⟩
  obtain ⟨placed, log, hauto, -, hplaced⟩ := auto_moves ho [idle "a", idle "b"]
    (.untyped (.obj [("a", connectionTo "b"), ("b", connectionTo "a")]))
  refine ⟨placed, log, hauto, ?_⟩
  have hun : Unlevelled [idle "a", idle "b"]
      (.untyped (.obj [("a", connectionTo "b"), ("b", connectionTo "a")])) := by
    refine .inr ⟨[("a", ["b"]), ("b", ["a"])], rfl, idle "a", List.mem_cons_self, "a", .refl, ?_⟩
    have hab : On [("a", ["b"]), ("b", ["a"])] "a" "b" := by decide
    have hba : On [("a", ["b"]), ("b", ["a"])] "b" "a" := by decide
    exact (TransGen.single hab).tail hba
  rcases hplaced (Nat.le_refl 2) with ⟨-, hgrid, -⟩ | ⟨hlevels, -⟩
  · obtain rfl := Except.ok.inj hgrid
    decide
  · exact absurd hun hlevels

end Flowplan.Layout
