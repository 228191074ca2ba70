import Flowplan.Proofs.CheckedLaws
import Flowplan.Proofs.ExceptLaws
import Flowplan.Settings.Load

namespace Flowplan
set_option autoImplicit true

open Flowplan.Json Flowplan.Record

variable {α : Type}

theorem Record.Slot.withDefault_eq_valid {f : Slot} {o : Object} {a other : α}
    {read : Json → Checked α} (h : f.withDefault o other read = .valid a) :
    a = other ∨ ∃ v, read v = .valid a := by
  rw [withDefault] at h
  split at h
  · exact .inl (Checked.valid.inj h).symm
  · split at h
    · exact .inl (Checked.valid.inj h).symm
    · exact .inr ⟨_, Checked.under_valid.1 h⟩

theorem Record.le_of_integerFrom (h : integerFrom least v = .valid n) : least ≤ n := by
  obtain ⟨m, -, h⟩ := Checked.andThen_eq_valid.1 h
  split at h
  · simp [Checked.refuse] at h
  · obtain rfl := Checked.valid.inj h
    omega

namespace Settings

/-- Settings within the bounds that they are declared with. -/
structure Bounded (s : Settings) : Prop where
  maxBranchDepth : 1 ≤ s.maxBranchDepth
  maxNodeNameLength : 1 ≤ s.maxNodeNameLength

theorem Bounded.default : Bounded .default := ⟨by decide, by decide⟩

theorem le_of_withDefault {least other : Int} {f : Slot} (hd : least ≤ other)
    (h : f.withDefault o other (integerFrom least) = .valid n) : least ≤ n := by
  rcases Slot.withDefault_eq_valid h with rfl | ⟨v, hv⟩
  · exact hd
  · exact le_of_integerFrom hv

theorem bounded_of_ofMembers (h : ofMembers o = .valid s) : s.Bounded := by
  -- The thirteen fields are taken off one by one, the last of them first.
  obtain ⟨f₁₂, startY, h₁₂, -, rfl⟩ := Checked.seq_eq_valid.1 h
  obtain ⟨f₁₁, startX, h₁₁, -, rfl⟩ := Checked.seq_eq_valid.1 h₁₂
  obtain ⟨f₁₀, down, h₁₀, -, rfl⟩ := Checked.seq_eq_valid.1 h₁₁
  obtain ⟨f₉, right, h₉, -, rfl⟩ := Checked.seq_eq_valid.1 h₁₀
  obtain ⟨f₈, height, h₈, -, rfl⟩ := Checked.seq_eq_valid.1 h₉
  obtain ⟨f₇, width, h₇, -, rfl⟩ := Checked.seq_eq_valid.1 h₈
  obtain ⟨f₆, terminates, h₆, -, rfl⟩ := Checked.seq_eq_valid.1 h₇
  obtain ⟨f₅, secret, h₅, -, rfl⟩ := Checked.seq_eq_valid.1 h₆
  obtain ⟨f₄, header, h₄, -, rfl⟩ := Checked.seq_eq_valid.1 h₅
  obtain ⟨f₃, length, h₃, hlength, rfl⟩ := Checked.seq_eq_valid.1 h₄
  obtain ⟨f₂, depth, h₂, hdepth, rfl⟩ := Checked.seq_eq_valid.1 h₃
  obtain ⟨f₁, hosts, h₁, -, rfl⟩ := Checked.seq_eq_valid.1 h₂
  obtain ⟨level, -, rfl⟩ := Checked.map_eq_valid.1 h₁
  exact ⟨le_of_withDefault (by decide) hdepth, le_of_withDefault (by decide) hlength⟩

/-- Settings that are loaded are within their bounds, wherever they come from. -/
theorem bounded_of_load (h : load sources = .ok s) : s.Bounded := by
  obtain ⟨fromEnvironment, -, h⟩ := bind_eq_ok.1 h
  obtain ⟨fromFile, -, h⟩ := bind_eq_ok.1 h
  split at h
  · rename_i settings hmembers
    obtain rfl := pure_eq_ok.1 h
    exact bounded_of_ofMembers hmembers
  · simp at h

end Settings
end Flowplan
