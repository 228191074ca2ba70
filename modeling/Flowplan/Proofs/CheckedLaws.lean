import Flowplan.Record.Slot

namespace Flowplan.Record
set_option autoImplicit true

open Flowplan.Json

variable {α β : Type}

namespace Checked

theorem map_eq_valid {f : α → β} {c : Checked α} :
    f <$> c = .valid b ↔ ∃ a, c = .valid a ∧ f a = b := by
  change c.map f = .valid b ↔ _
  cases c <;> simp [map]

theorem seq_eq_valid {f : Checked (α → β)} {c : Checked α} :
    f <*> c = .valid b ↔ ∃ g a, f = .valid g ∧ c = .valid a ∧ g a = b := by
  change f.both c = .valid b ↔ _
  exact both_valid

theorem also_eq_valid {c : Checked α} :
    c.also more = .valid a ↔ c = .valid a ∧ more = [] := by
  cases c with
  | valid x => cases more <;> simp [also]
  | invalid cs => simp [also]

theorem andThen_eq_valid {c : Checked α} {test : α → Checked β} :
    c.andThen test = .valid b ↔ ∃ a, c = .valid a ∧ test a = .valid b := by
  cases c <;> simp [andThen]

end Checked

namespace Slot

/-- A field that is read is held under one of its names, and its value is read. -/
theorem required_eq_valid {f : Slot} {o : Object} {read : Json → Checked α}
    (h : f.required o read = .valid a) : ∃ v, read v = .valid a := by
  rw [required] at h
  split at h
  · simp [missing] at h
  · split at h
    · simp [missing] at h
    · exact ⟨_, Checked.under_valid.1 h⟩

end Slot

theorem ofObject_eq_valid {read : Object → Checked α} (h : ofObject name fields read v = .valid a) :
    ∃ o, v = .obj o ∧ read o = .valid a ∧ extras fields o = [] := by
  cases v with
  | obj o => exact ⟨o, rfl, Checked.also_eq_valid.1 h⟩
  | _ => simp [ofObject, Checked.refuse] at h

end Flowplan.Record
