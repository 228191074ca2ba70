import Flowplan.Proofs.FlawPlaces

/-!
The places in a document where steps are expected, at any depth. What is found at such a place and
below it is what is wrong with the step that is there, whatever the other steps are.
-/

namespace Flowplan.Plan
set_option autoImplicit true

open Flowplan.Json Flowplan.Schema

/-- The places in a document where a list of steps is expected, with the values in the lists. -/
inductive StepsAt (v : Json) : Locator → List Json → Prop
  | top (root : v = .obj o) (steps : Table.get? o "steps" = some (.arr ws)) :
      StepsAt v [Token.name "steps"] ws
  | inCase {i j : Nat} {c : Object} (outer : StepsAt v place ws) (step : ws[i]? = some (.obj o))
      (branch : statedKind? o = some .branch) (cases : Table.get? o "cases" = some (.arr cs))
      (case : cs[j]? = some (.obj c)) (steps : Table.get? c "steps" = some (.arr us)) :
      StepsAt v (place ++ [Token.index i, .name "cases", .index j, .name "steps"]) us
  | inElse {i : Nat} (outer : StepsAt v place ws) (step : ws[i]? = some (.obj o))
      (branch : statedKind? o = some .branch) (otherwise : Table.get? o "else" = some (.arr us)) :
      StepsAt v (place ++ [Token.index i, .name "else"]) us

theorem StepsAt.at? {v : Json} (h : StepsAt v place ws) : v.at? place = some (.arr ws) := by
  induction h with
  | top root steps =>
    subst root
    simp [steps]
  | inCase _ step _ cases case steps ih =>
    simp [at?_append, ih, part?_index, step, cases, case, steps]
  | inElse _ step _ otherwise ih => simp [at?_append, ih, part?_index, step, otherwise]

namespace Flaw

variable {place rest : Locator}

/-- The flaws at a place and below it. -/
def below (place : Locator) (flaws : List Flaw) : List Flaw :=
  flaws.filter fun f => place.isPrefixOf f.place

def Under (place : Locator) (flaws : List Flaw) : Prop := ∀ f ∈ flaws, place <+: f.place

theorem Located.under (h : Located place v flaws) : Under place flaws := by
  intro f hf
  obtain ⟨tail, part, hplace, -⟩ := h f hf
  exact ⟨tail, hplace.symm⟩

end Flaw
end Flowplan.Plan
