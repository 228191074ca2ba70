import Flowplan.Proofs.PlanSites
import Flowplan.Rules.Validation

namespace Flowplan
set_option autoImplicit true

/-- The collaborators answer every question. -/
def Context.Answers (c : Context) : Prop := ∀ history call, ∃ b, c.answer history call = .ok b

/-- Whether a question is answered with yes after some calls. -/
def Context.grants (c : Context) (history : List Call) (call : Call) : Bool :=
  (c.answer history call).toOption.getD false

namespace Inspection

/-- Checks in two parts are made one after the other, unless the first part is interrupted. -/
theorem run_append {context : Context} {xs : List Check} (ys : List Check)
    (h : run context history xs = ⟨fs, middle, none⟩) :
    run context history (xs ++ ys) =
      ⟨fs ++ (run context middle ys).findings, (run context middle ys).calls,
        (run context middle ys).interruption⟩ := by
  induction xs generalizing history fs with
  | nil =>
    simp only [run, mk.injEq] at h
    obtain ⟨rfl, rfl, -⟩ := h
    rfl
  | cons check rest ih =>
    cases check with
    | broken f =>
      simp only [run, found, mk.injEq] at h
      obtain ⟨rfl, hc, hi⟩ := h
      have hrest := ih (by rw [← hc, ← hi])
      rw [List.cons_append, run, hrest]
      rfl
    | noType => simp [run] at h
    | ask call otherwise =>
      rw [List.cons_append, run]
      rw [run] at h
      cases ha : context.answer history call with
      | error o => simp [ha] at h
      | ok granted =>
        rw [ha] at h
        cases granted with
        | true => exact ih h
        | false =>
          simp only [found, mk.injEq] at h
          obtain ⟨rfl, hc, hi⟩ := h
          have hrest := ih (by rw [← hc, ← hi])
          simp only [hrest]
          rfl

theorem run_brokenIf (context : Context) (history : List Call) (bad : Bool) (place : Locator)
    (rule : Rule) :
    run context history (Check.brokenIf bad place rule) =
      ⟨if bad then [⟨place, rule⟩] else [], history, none⟩ := by
  cases bad <;> rfl

/-- A question that is answered leaves its call behind, and a finding where the answer is no. -/
theorem run_ask {context : Context} (hc : context.Answers) (history : List Call) (call : Call)
    (otherwise : Finding) :
    run context history [.ask call otherwise] =
      ⟨if context.grants history call then [] else [otherwise], history ++ [call], none⟩ := by
  obtain ⟨granted, ha⟩ := hc history call
  have hg : context.grants history call = granted := by
    rw [Context.grants, ha]
    rfl
  rw [run, ha, hg]
  cases granted <;> rfl

end Inspection
end Flowplan
