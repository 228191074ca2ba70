import Flowplan.Schema.Check

namespace Flowplan.Schema
set_option autoImplicit true

open Flowplan.Json

variable {α : Type}

/-- A check that is not cut off by the budget finds nothing exactly when something holds. -/
def Settles (o : Outcome) (P : Prop) : Prop :=
  o = .error .tooDeep ∨ ∃ found, o = .ok found ∧ (found = [] ↔ P)

namespace Settles

theorem tooDeep : Settles (.error .tooDeep) P := .inl rfl

theorem ok (h : found = [] ↔ P) : Settles (.ok found) P := .inr ⟨found, rfl, h⟩

theorem nothing : Settles (.ok []) True := ok (iff_of_true rfl trivial)

theorem iff (h : Settles o P) (hPQ : P ↔ Q) : Settles o Q := by
  rcases h with h | ⟨found, h, hfound⟩
  · exact .inl h
  · exact .inr ⟨found, h, hfound.trans hPQ⟩

theorem refuseIf (s : Site) (keyword : String) (rule : Json) (bad : Bool) (message : String) :
    Settles (s.refuseIf keyword rule bad message) (bad = false) := by
  cases bad with
  | false => exact ok (iff_of_true rfl rfl)
  | true => exact ok (iff_of_false (List.cons_ne_nil _ _) Bool.noConfusion)

theorem nil (f : α → Outcome) : Settles (collect [] f) True := nothing

theorem cons {f : α → Outcome} (ha : Settles (f a) P) (hrest : Settles (collect rest f) Q) :
    Settles (collect (a :: rest) f) (P ∧ Q) := by
  rw [collect]
  rcases ha with ha | ⟨first, ha, hfirst⟩
  · rw [ha]
    exact tooDeep
  · rcases hrest with hr | ⟨others, hr, hothers⟩
    · rw [ha, hr]
      exact tooDeep
    · rw [ha, hr]
      apply ok
      rw [List.append_eq_nil_iff, hfirst, hothers]

/-- The parts of a check are all made, unless one is cut off. -/
theorem collect {parts : List α} {f : α → Outcome} {P : α → Prop}
    (h : ∀ a ∈ parts, Settles (f a) (P a)) :
    Settles (Schema.collect parts f) (∀ a ∈ parts, P a) := by
  induction parts with
  | nil => exact (nil f).iff (iff_of_true trivial fun _ ha => absurd ha List.not_mem_nil)
  | cons a rest ih =>
    have hrest := ih fun b hb => h b (List.mem_cons_of_mem _ hb)
    exact ((h a List.mem_cons_self).cons hrest).iff List.forall_mem_cons.symm

end Settles

theorem collect_map {β : Type} (g : α → β) (parts : List α) (f : β → Outcome) :
    collect (parts.map g) f = collect parts (f ∘ g) := by
  induction parts with
  | nil => rfl
  | cons a rest ih => rw [List.map_cons, collect, collect, ih]; rfl

end Flowplan.Schema
