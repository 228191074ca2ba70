import Flowplan.Command.Arguments
import Mathlib.Data.List.Basic

/-!
The arguments that name a plan's file, its organization and its actions, and an option for what is
to come of it, are understood as the request for it.
-/

namespace Flowplan.Command
set_option autoImplicit true

namespace Given

end Given

/-- The arguments that name a plan's file, its organization and its actions. -/
def Subject.arguments (s : Subject) : List String :=
  s.plan :: "--org-id" :: s.org :: (s.actions.elim [] fun path => ["--actions", path])

def Format.text : Format → String
  | .json => "json"
  | .table => "table"

/-- The files of a subject are there, and no option has the name of the plan's file. -/
structure Subject.Present (s : Subject) (disk : Disk) : Prop where
  plan : ∃ bytes, disk s.plan = some (.file bytes)
  argument : Given.isFlag s.plan = false
  actions : ∀ path, s.actions = some path → ∃ bytes, disk path = some (.file bytes)

/-- The options among the arguments for a subject. -/
def Subject.flags (s : Subject) : List (Flag × String) :=
  (.orgId, s.org) :: (s.actions.elim [] fun path => [(.actions, path)])

theorem Given.value?_append {fs more : List (Flag × String)} (h : ∀ e ∈ more, e.1 ≠ f)
    (others : List String) : value? ⟨fs ++ more, others⟩ f = value? ⟨fs, others⟩ f := by
  have hnone : more.reverse.find? (fun e => decide (e.1 = f)) = none := by
    apply List.find?_eq_none.2
    intro e he
    simpa using h e (List.mem_reverse.1 he)
  simp only [value?, List.reverse_append, List.find?_append, hnone, Option.none_or]

theorem Subject.value?_flags (s : Subject) (others : List String) :
    Given.value? ⟨s.flags, others⟩ .orgId = some s.org ∧
      Given.value? ⟨s.flags, others⟩ .actions = s.actions := by
  rw [flags]
  cases s.actions <;> exact ⟨rfl, rfl⟩

theorem checkFlag_inputFile {f : Flag} {g : Given} (hkind : f.value = some .inputFile)
    (hvalue : g.value? f = some path) (hfile : disk path = some (.file bytes)) :
    checkFlag disk g f = .ok () := by
  simp only [checkFlag, hkind, hvalue, Option.getD_some, checkInput, hfile]

/-- Options that are not those of a subject. -/
def Unrelated (more : List (Flag × String)) : Prop :=
  ∀ e ∈ more, e.1 = .format ∨ e.1 = .output

theorem Unrelated.ne (h : Unrelated more) (hformat : f ≠ .format) (houtput : f ≠ .output) :
    ∀ e ∈ more, e.1 ≠ f := by
  intro e he hf
  rcases h e he with h | h
  · exact hformat (hf ▸ h)
  · exact houtput (hf ▸ h)

theorem Subject.Present.checkFlag {s : Subject} (h : s.Present disk) (hmore : Unrelated more)
    (others : List String) :
    ∀ f ∈ s.flags.map (·.1), checkFlag disk ⟨s.flags ++ more, others⟩ f = .ok () := by
  have hactions : ∀ path, s.actions = some path →
      Command.checkFlag disk ⟨s.flags ++ more, others⟩ .actions = .ok () := by
    intro path hpath
    obtain ⟨bytes, hfile⟩ := h.actions path hpath
    refine checkFlag_inputFile rfl ?_ hfile
    rw [Given.value?_append (hmore.ne (by decide) (by decide)), (s.value?_flags others).2, hpath]
  intro f hf
  rw [flags, List.map_cons, List.mem_cons] at hf
  rcases hf with rfl | hf
  · rfl
  · cases hs : s.actions with
    | none =>
      rw [hs] at hf
      exact absurd hf List.not_mem_nil
    | some path =>
      rw [hs] at hf
      obtain rfl := List.mem_singleton.1 hf
      exact hactions path hs

end Flowplan.Command
