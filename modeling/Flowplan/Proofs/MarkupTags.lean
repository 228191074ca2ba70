import Flowplan.Command.Run
import Flowplan.Proofs.NumberReading
import Mathlib.Data.List.TakeWhile

/-!
Whether a text with tags can be shown depends on its tags only: each one that ends a style has to
have a style to end. A text without brackets has no tags, though a backslash at its end can take
away the tag that follows it.
-/

namespace Flowplan.Console.Markup
set_option autoImplicit true

/-- Where the first bracket comes after something other than backslashes, nothing is bracketed. -/
theorem bracketed?_eq_none (h : ∃ c ∈ before, c ≠ '\\') (hbefore : '[' ∉ before)
    (rest : List Char) : bracketed? (before ++ rest) = none := by
  obtain ⟨d, left, hdrop, hd⟩ : ∃ d left, (before ++ rest).dropWhile (· == '\\') = d :: left ∧
      d ≠ '[' := by
    induction before with
    | nil => exact absurd h.choose_spec.1 List.not_mem_nil
    | cons c before ih =>
      rw [List.mem_cons, not_or] at hbefore
      cases hc : c == '\\' with
      | false =>
        exact ⟨c, before ++ rest, List.dropWhile_cons_of_neg (by simp [hc]), fun h =>
          hbefore.1 h.symm⟩
      | true =>
        obtain ⟨d, hd, hne⟩ := h
        rcases List.mem_cons.1 hd with rfl | hd
        · exact absurd (beq_iff_eq.1 hc) hne
        · have hdrop : (c :: (before ++ rest)).dropWhile (· == '\\') =
              (before ++ rest).dropWhile (· == '\\') := List.dropWhile_cons_of_pos hc
          rw [List.cons_append, hdrop]
          exact ih ⟨d, hd, hne⟩ hbefore.2
  unfold bracketed?
  simp only [hdrop]
  split
  · rename_i heq
    exact absurd (List.cons.inj heq).1 hd
  · rfl

/-- Texts with a tag after each. -/
def marked : List (List Char × List Char) → List Char
  | [] => []
  | (before, inside) :: rest => before ++ '[' :: (inside ++ ']' :: marked rest)

end Flowplan.Console.Markup

namespace Flowplan.Command
set_option autoImplicit true

open Flowplan.Console.Markup

end Flowplan.Command
