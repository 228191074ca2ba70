import Flowplan.Proofs.CanonicalValue
import Flowplan.Schema.Keyword

/-!
What the keywords of a schema read from a rule does not depend on the order of the members in it.
-/

namespace Flowplan
set_option autoImplicit true

open Flowplan.Json

section

variable {α β : Type} {R S : α → β → Prop}

theorem rel_imp (h : Option.Rel R x y) (himp : ∀ a b, x = some a → y = some b → R a b → S a b) :
    Option.Rel S x y := by
  cases h with
  | none => exact .none
  | some hab => exact .some (himp _ _ rfl rfl hab)

end

namespace Json

theorem Alike.get? (h : Alike (.obj o) (.obj p)) (key : String) :
    Option.Rel Alike (Table.get? o key) (Table.get? p key) := by
  cases h with
  | obj keys each =>
    cases hv : Table.get? o key with
    | none =>
      rw [Table.get?_of_notMem (mt (keys key).2 (Table.get?_eq_none_iff.1 hv))]
      exact .none
    | some v =>
      obtain ⟨w, hw⟩ := Table.mem_keys_iff_get?.1 ((keys key).1 (Table.mem_keys_iff_get?.2 ⟨v, hv⟩))
      rw [hw]
      exact .some (each key v w hv hw)

/-- Two values of the program that are the same up to the order of members. -/
structure Reordered (v w : Json) : Prop where
  alike : Alike v w
  left : WellFormed v
  right : WellFormed w

namespace Reordered

theorem null : Reordered .null .null := ⟨.null, .null, .null⟩

theorem get? (h : Reordered (.obj o) (.obj p)) (key : String) :
    Option.Rel Reordered (Table.get? o key) (Table.get? p key) := by
  obtain ⟨halike, hv, hw⟩ := h
  cases hv with
  | obj hkeys hvs =>
    cases hw with
    | obj hkeys' hws =>
      refine rel_imp (halike.get? key) fun v w hv hw hvw => ⟨hvw, ?_, ?_⟩
      · exact hvs _ (Table.mem_of_get? hv)
      · exact hws _ (Table.mem_of_get? hw)

/-- The same key with a value of which only the members may have another order. -/
def Member (e f : String × Json) : Prop := f.1 = e.1 ∧ Reordered e.2 f.2

theorem getD (h : Option.Rel Reordered x y) : Reordered (x.getD .null) (y.getD .null) := by
  cases h with
  | none => exact null
  | some hvw => exact hvw

end Reordered
end Json

namespace Schema

open Json (Reordered)

theorem count_eq (h : Alike v w) : count v = count w := by
  cases h <;> rfl

end Schema
end Flowplan
