import Flowplan.Proofs.FindingPlaces
import Flowplan.Proofs.GrammarRead
import Flowplan.Proofs.StepRecognition

namespace Flowplan
set_option autoImplicit true

open Flowplan.Json Flowplan.Schema

namespace Schema

theorem Violation.expand_ne_nil (names : List String) (v : Violation) : v.expand names ≠ [] := by
  obtain ⟨place, keyword, rule, subject, message, alternatives⟩ := v
  simp only [Violation.expand]
  split
  · split
    · split
      · exact List.cons_ne_nil _ _
      · -- Only a variant in which something was found stands for the choice.
        rename_i hfound
        exact mt List.isEmpty_iff.2 hfound
    · exact List.cons_ne_nil _ _
  · exact List.cons_ne_nil _ _

/-- Replacing a choice by the variant it is about leaves no violation out. -/
theorem expandList_eq_nil_iff : expandList names found = [] ↔ found = [] := by
  cases found with
  | nil => exact iff_of_true rfl rfl
  | cons v rest =>
    rw [expandList, List.append_eq_nil_iff]
    exact iff_of_false (fun h => v.expand_ne_nil names h.1) (List.cons_ne_nil _ _)

end Schema

namespace Plan

theorem ofJson_eq_ok_iff {v : Json} :
    ofJson v = .ok p ↔ violations schema v = .ok [] ∧ read v = .valid p := by
  unfold ofJson
  cases hfound : violations schema v with
  | error e => simp
  | ok found =>
    cases hnone : expandList StepKind.names found with
    | nil =>
      obtain rfl := expandList_eq_nil_iff.1 hnone
      cases hread : read v <;> simp [hnone, ofChecked]
    | cons w rest =>
      have hne : found ≠ [] := mt expandList_eq_nil_iff.2 (hnone ▸ List.cons_ne_nil _ _)
      simp [hnone, hne]

theorem parse_value (htext : ∀ s, v ≠ .str s) (hpaired : v.paired = true) :
    parse (.value v) = .ok (ofJson v) := by
  cases v with
  | str s => exact absurd rfl (htext s)
  | unpaired s => simp [paired] at hpaired
  | _ => rfl

/-- A value is parsed as a plan exactly if it is of the grammar of plans, and one that the schema
finds nothing in is always read. -/
theorem parse_accepts_grammar {v : Json} (htext : ∀ s, v ≠ .str s) (hpaired : v.paired = true)
    (hdepth : violations schema v ≠ .error .tooDeep) :
    ((∃ p, parse (.value v) = .ok (.ok p)) ↔ IsPlan v) ∧
      (violations schema v = .ok [] → ∃ p, read v = .valid p) := by
  have hsettles := Recognizes.plan defaultBudget [] v hpaired
  have hplan : violations schema v = .ok [] ↔ IsPlan v := by
    rcases hsettles with hdeep | ⟨found, hfound, hplan⟩
    · exact absurd hdeep hdepth
    · change violations schema v = .ok found at hfound
      rw [hfound, Except.ok.injEq]
      exact hplan
  have hread : violations schema v = .ok [] → ∃ p, read v = .valid p := by
    intro hnone
    exact read_succeeds (hplan.1 hnone)
  refine ⟨?_, hread⟩
  rw [parse_value htext hpaired]
  constructor
  · rintro ⟨p, hp⟩
    exact hplan.1 (ofJson_eq_ok_iff.1 (Except.ok.inj hp)).1
  · intro h
    have hnone := hplan.2 h
    obtain ⟨p, hp⟩ := hread hnone
    exact ⟨p, congrArg Except.ok (ofJson_eq_ok_iff.2 ⟨hnone, hp⟩)⟩

/-- What the rules have to say about a document is no matter of the grammar. -/
theorem isPlan_of_broken_document : (∀ s, brokenDocument ≠ .str s) ∧ brokenDocument.paired = true ∧
    violations schema brokenDocument ≠ .error .tooDeep ∧ IsPlan brokenDocument := by
  have htext : ∀ s, brokenDocument ≠ .str s := fun s => Json.noConfusion
  have hpaired : brokenDocument.paired = true := by decide +kernel
  have hsome : (parse? (.value brokenDocument)).isSome = true := by decide +kernel
  obtain ⟨p, hp⟩ := Option.isSome_iff_exists.1 hsome
  have hparse := parse?_eq_some hp
  have hdepth : violations schema brokenDocument ≠ .error .tooDeep := by
    have hjson := Except.ok.inj ((parse_value htext hpaired).symm.trans hparse)
    rw [(ofJson_eq_ok_iff.1 hjson).1]
    exact nofun
  exact ⟨htext, hpaired, hdepth, (parse_accepts_grammar htext hpaired hdepth).1.1 ⟨p, hparse⟩⟩

end Plan

end Flowplan
