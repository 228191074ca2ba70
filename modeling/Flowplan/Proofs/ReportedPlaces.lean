import Flowplan.Proofs.DeclaredNames
import Flowplan.Proofs.LocatorReading
import Flowplan.Proofs.PlanAcceptance

/-!
The places that are reported of a document are told apart by their texts: the schema of plans
declares names without marks only.
-/

namespace Flowplan
set_option autoImplicit true

open Flowplan.Json Flowplan.Schema

namespace Schema

theorem mem_expandList : w ∈ expandList options found ↔ ∃ v ∈ found, w ∈ v.expand options := by
  induction found with
  | nil => simp [expandList]
  | cons v rest ih => rw [expandList, List.mem_append, ih, List.exists_mem_cons_iff]

theorem exists_of_mem_expandAt {alternatives : List (List Violation)}
    (h : w ∈ expandAt options alternatives i) :
    ∃ vs ∈ alternatives, ∃ v ∈ vs, w ∈ v.expand options := by
  induction alternatives generalizing i with
  | nil => simp [expandAt] at h
  | cons vs rest ih =>
    cases i with
    | zero =>
      rw [expandAt] at h
      exact ⟨vs, List.mem_cons_self, mem_expandList.1 h⟩
    | succ i =>
      rw [expandAt] at h
      obtain ⟨us, hus, hw⟩ := ih h
      exact ⟨us, List.mem_cons_of_mem vs hus, hw⟩

/-- A violation stands for itself or for violations of its alternatives. -/
theorem Violation.of_mem_expand {v : Violation} (h : w ∈ v.expand options) :
    w = v ∨ ∃ vs ∈ v.alternatives, ∃ u ∈ vs, w ∈ u.expand options := by
  obtain ⟨place, keyword, rule, subject, message, alternatives⟩ := v
  simp only [Violation.expand] at h
  split at h
  · split at h
    · split at h
      · exact .inl (List.mem_singleton.1 h)
      · exact .inr (exists_of_mem_expandAt h)
    · exact .inl (List.mem_singleton.1 h)
  · exact .inl (List.mem_singleton.1 h)

theorem Violation.Among.of_mem_expand {v : Violation} (h : v.Among names)
    (hw : w ∈ v.expand options) : w.Among names := by
  induction h with
  | mk place alternatives ih =>
    rcases Violation.of_mem_expand hw with rfl | ⟨vs, hvs, u, hu, hw⟩
    · exact .mk place alternatives
    · exact ih vs hvs u hu hw

end Schema

namespace Plan

/-- The names that the schema of plans declares. -/
def memberNames : List String := [
  "version", "name", "steps", "type", "path", "secretHmac", "when", "cases", "else", "channel",
  "text", "method", "url", "headers", "body", "actionSlug", "input", "field", "op", "value"]

theorem declares_schema : declares memberNames schema = true := by decide +kernel

theorem isName_of_mem_memberNames :
    ∀ s ∈ memberNames, Token.IsName s ∧ s ≠ Locator.root := by decide +kernel

theorem plain_of_among {place : Locator} (h : place.Among memberNames) : place.Plain where
  tokens t ht := by
    have hamong := h t ht
    cases t with
    | index n => exact hamong
    | flag b => exact hamong
    | name s => exact (isName_of_mem_memberNames s hamong).1
  other := by
    rintro rfl
    exact (isName_of_mem_memberNames _ (h _ List.mem_cons_self)).2 rfl

theorem plain_of_reported {v : Json} (h : violations schema v = .ok found)
    (hw : w ∈ expandList StepKind.names found) : w.place.Plain := by
  obtain ⟨u, hu, hw⟩ := mem_expandList.1 hw
  have hamong := ((violations_among declares_schema v).among found h u hu).of_mem_expand hw
  cases hamong with
  | mk place _ => exact plain_of_among place

/-- The tokens of a locator are read back from its text, if they are plain, so different ones have
different texts. Those of what the schema finds wrong with a document are plain: two violations at
different places are reported with different texts. -/
theorem locators_told_apart :
    (∀ place : Locator, place.Plain → Locator.ofText? place.text = some place) ∧
    (∀ place other : Locator, place.Plain → other.Plain → place ≠ other →
      place.text ≠ other.text) ∧
    ∀ v : Json,
      (∀ e, violations schema v = .error e →
        ∃ d, ofJson v = .error [d] ∧ d.path = Locator.text []) ∧
      ∀ found, violations schema v = .ok found →
        (found ≠ [] →
          ofJson v = .error ((expandList StepKind.names found).map Defect.ofViolation)) ∧
        ∀ w ∈ expandList StepKind.names found,
          w.place.Plain ∧ (Defect.ofViolation w).path = w.place.text ∧
          ∀ u ∈ expandList StepKind.names found, w.place ≠ u.place →
            (Defect.ofViolation w).path ≠ (Defect.ofViolation u).path := by
  have hapart (place other : Locator) (h : place.Plain) (h' : other.Plain) (hne : place ≠ other) :
      place.text ≠ other.text := fun he => hne (Locator.text_injective h h' he)
  refine ⟨fun place => Locator.ofText?_text, hapart, fun v => ⟨?_, ?_⟩⟩
  · intro e he
    refine ⟨.tooDeep "validate", ?_, rfl⟩
    rw [ofJson, he]
  · intro found hfound
    refine ⟨?_, fun w hw => ⟨plain_of_reported hfound hw, rfl, fun u hu hne => ?_⟩⟩
    · intro hne
      have hexpand : expandList StepKind.names found ≠ [] := mt expandList_eq_nil_iff.1 hne
      rw [ofJson, hfound]
      dsimp only
      split
      · rename_i hnil
        exact absurd hnil hexpand
      · rfl
    · exact hapart _ _ (plain_of_reported hfound hw) (plain_of_reported hfound hu) hne

/-- A branch with a filter in a case and one in its else; neither filter has a condition. -/
def bareFilters : Json :=
  .obj [("version", .str "1"), ("name", .str "P"), ("steps", .arr [
    .obj [("type", .str "branch"),
      ("cases", .arr [
        .obj [("when", .obj [("field", .str "a"), ("op", .str "gt"), ("value", .int 1)]),
          ("steps", .arr [.obj [("type", .str "filter")]])]]),
      ("else", .arr [.obj [("type", .str "filter")]])]])]

def bareFilterPlaces : List Locator := [
  [.name "steps", .index 0, .name "cases", .index 0, .name "steps", .index 0],
  [.name "steps", .index 0, .name "else", .index 0]]

/-- The two filters lack the same member, and are told apart by where they are. -/
theorem locators_told_apart_bare_filters : ∃ found w u,
    violations schema bareFilters = .ok found ∧ expandList StepKind.names found = [w, u] ∧
    w.place.Plain ∧ u.place.Plain ∧ w.place ≠ u.place ∧
    (Defect.ofViolation w).path ≠ (Defect.ofViolation u).path ∧
    Locator.ofText? "steps[0].cases[0].steps[0]" = some w.place := by
  have hplaces : (violations schema bareFilters).map
      (fun found => (expandList StepKind.names found).map Violation.place) =
        .ok bareFilterPlaces := by decide +kernel
  obtain ⟨hread, -, hreported⟩ := locators_told_apart
  cases hfound : violations schema bareFilters with
  | error e =>
    rw [hfound] at hplaces
    exact nomatch hplaces
  | ok found =>
    have htold := ((hreported bareFilters).2 found hfound).2
    rw [hfound] at hplaces
    have hlist : (expandList StepKind.names found).map Violation.place = bareFilterPlaces :=
      Except.ok.inj hplaces
    obtain ⟨w, rest, hexpand, hw, hrest⟩ := List.map_eq_cons_iff.1 hlist
    obtain ⟨u, last, rfl, hu, hlast⟩ := List.map_eq_cons_iff.1 hrest
    obtain rfl := List.map_eq_nil_iff.1 hlast
    rw [hexpand] at htold
    obtain ⟨hplain, -, hapart⟩ := htold w List.mem_cons_self
    obtain ⟨hplain', -, -⟩ := htold u (List.mem_cons_of_mem w List.mem_cons_self)
    have hne : w.place ≠ u.place := by
      rw [hw, hu]
      decide
    refine ⟨found, w, u, rfl, hexpand, hplain, hplain', hne,
      hapart u (List.mem_cons_of_mem w List.mem_cons_self) hne, ?_⟩
    have htext : w.place.text = "steps[0].cases[0].steps[0]" := by
      rw [hw]
      decide +kernel
    rw [← htext]
    exact hread w.place hplain

end Plan
end Flowplan
