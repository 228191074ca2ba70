import Flowplan.Plan.Walk
import Flowplan.Plan.Wire
import Flowplan.Proofs.DocumentPath
import Flowplan.Proofs.PreorderWalk

namespace Flowplan
set_option autoImplicit true

open Flowplan.Json

/-- What the rules look at in a step tree, with its place and the number of branches around it: a
step, or the steps of a case or an else where there are none. -/
inductive Site where
  | step (depth : Nat) (place : Locator) (s : Step)
  | emptyCase (depth : Nat) (place : Locator)
  | emptyElse (depth : Nat) (place : Locator)

namespace Site

def depth : Site → Nat
  | .step depth _ _ => depth
  | .emptyCase depth _ => depth
  | .emptyElse depth _ => depth

def place : Site → Locator
  | .step _ place _ => place
  | .emptyCase _ place => place
  | .emptyElse _ place => place

def step? : Site → Option Step
  | .step _ _ s => some s
  | .emptyCase _ _ => none
  | .emptyElse _ _ => none

/-- The value that stands at a site in the document of a plan. -/
def toJson : Site → Json
  | .step _ _ s => s.toJson .full
  | .emptyCase _ _ => .arr []
  | .emptyElse _ _ => .arr []

end Site

namespace Step

mutual

/-- The sites of a step and of everything below it, in document order. -/
def sites (depth : Nat) (place : Locator) : Step → List Site
  | .branch cases otherwise =>
    .step depth place (.branch cases otherwise) ::
      (sitesCases (depth + 1) place 0 cases ++ sitesElse (depth + 1) place otherwise)
  | .trigger path signed => [.step depth place (.trigger path signed)]
  | .filter condition => [.step depth place (.filter condition)]
  | .slack channel text => [.step depth place (.slack channel text)]
  | .request method url headers body => [.step depth place (.request method url headers body)]
  | .action slug input => [.step depth place (.action slug input)]
  | .bare type => [.step depth place (.bare type)]

def sitesCases (depth : Nat) (place : Locator) (i : Nat) : List (Case Step) → List Site
  | [] => []
  | ⟨_, steps⟩ :: rest =>
    let here := place ++ [.name "cases", .index i, .name "steps"]
    (if steps.isEmpty then [.emptyCase depth here] else sitesList depth here 0 steps) ++
      sitesCases depth place (i + 1) rest

def sitesElse (depth : Nat) (place : Locator) : Member (List Step) → List Site
  | .given steps =>
    let here := place ++ [.name "else"]
    if steps.isEmpty then [.emptyElse depth here] else sitesList depth here 0 steps
  | .absent => []
  | .null => []

def sitesList (depth : Nat) (place : Locator) (i : Nat) : List Step → List Site
  | [] => []
  | s :: rest => sites depth (place ++ [.index i]) s ++ sitesList depth place (i + 1) rest

end

end Step

def Plan.sites (p : Plan) : List Site := Step.sitesList 0 [.name "steps"] 0 p.steps

namespace Step

mutual

/-- The steps among the sites are all steps in preorder. -/
theorem steps_sites (depth : Nat) (place : Locator) (s : Step) :
    (sites depth place s).filterMap Site.step? = preorder s := by
  cases s with
  | branch cases otherwise =>
    simp only [sites, preorder, List.filterMap_cons, Site.step?, List.filterMap_append,
      steps_sitesCases (depth + 1) place 0 cases, steps_sitesElse (depth + 1) place otherwise]
  | _ => rfl

theorem steps_sitesCases (depth : Nat) (place : Locator) (i : Nat) (cases : List (Case Step)) :
    (sitesCases depth place i cases).filterMap Site.step? = preorderCases cases := by
  match cases with
  | [] => rfl
  | ⟨condition, []⟩ :: rest =>
    rw [sitesCases, preorderCases, List.filterMap_append, steps_sitesCases depth place (i + 1) rest]
    rfl
  | ⟨condition, s :: steps⟩ :: rest =>
    rw [sitesCases, preorderCases, List.filterMap_append, steps_sitesCases depth place (i + 1) rest,
      List.isEmpty_cons, if_neg Bool.false_ne_true, steps_sitesList depth _ 0 (s :: steps)]

theorem steps_sitesElse (depth : Nat) (place : Locator) (otherwise : Member (List Step)) :
    (sitesElse depth place otherwise).filterMap Site.step? = preorderElse otherwise := by
  match otherwise with
  | .absent => rfl
  | .null => rfl
  | .given [] => rfl
  | .given (s :: steps) => exact steps_sitesList depth _ 0 (s :: steps)

theorem steps_sitesList (depth : Nat) (place : Locator) (i : Nat) (steps : List Step) :
    (sitesList depth place i steps).filterMap Site.step? = preorderList steps := by
  match steps with
  | [] => rfl
  | s :: rest =>
    rw [sitesList, preorderList, List.filterMap_append, steps_sites depth _ s,
      steps_sitesList depth place (i + 1) rest]

end

theorem at?_arr_cons (v : Json) (vs : List Json) (k : Nat) (rest : Locator) :
    (Json.arr (v :: vs)).at? (.index (k + 1 : Nat) :: rest) =
      (Json.arr vs).at? (.index k :: rest) := by
  rw [at?_cons, at?_cons, part?_index, part?_index, List.getElem?_cons_succ]

theorem get?_cases (cases : List (Case Step)) (otherwise : Member (List Step)) :
    (toJson .full (.branch cases otherwise)).part? (.name "cases") =
      some (.arr (casesToJson .full cases)) := rfl

theorem get?_else (cases : List (Case Step)) (steps : List Step) :
    (toJson .full (.branch cases (.given steps))).part? (.name "else") =
      some (.arr (listToJson .full steps)) := rfl

mutual

/-- The place of a site goes on from the place of the step that it is in, and what is left of it
leads to the site's value within the step. -/
theorem at?_sites {x : Site} (s : Step) (h : x ∈ sites depth place s) :
    ∃ rest, x.place = place ++ rest ∧ (s.toJson .full).at? rest = some x.toJson := by
  cases s with
  | branch cases otherwise =>
    rw [sites, List.mem_cons, List.mem_append] at h
    rcases h with rfl | h | h
    · exact ⟨[], (List.append_nil _).symm, rfl⟩
    · obtain ⟨k, rest, hp, hv⟩ := at?_sitesCases cases h
      refine ⟨.name "cases" :: .index (0 + k : Nat) :: rest, hp, ?_⟩
      rw [at?_cons, get?_cases, Nat.zero_add]
      exact hv
    · obtain ⟨steps, rest, rfl, hp, hv⟩ := at?_sitesElse otherwise h
      refine ⟨.name "else" :: rest, hp, ?_⟩
      rw [at?_cons, get?_else]
      exact hv
  | _ =>
    obtain rfl := List.mem_singleton.1 h
    exact ⟨[], (List.append_nil _).symm, rfl⟩

theorem at?_sitesCases {x : Site} (cases : List (Case Step))
    (h : x ∈ sitesCases depth place i cases) :
    ∃ (k : Nat) (rest : Locator),
      x.place = place ++ .name "cases" :: .index (i + k : Nat) :: rest ∧
      (Json.arr (casesToJson .full cases)).at? (.index k :: rest) = some x.toJson := by
  match cases with
  | [] => exact absurd h List.not_mem_nil
  | ⟨condition, steps⟩ :: others =>
    rw [sitesCases, List.mem_append] at h
    rcases h with h | h
    · cases steps with
      | nil =>
        obtain rfl := List.mem_singleton.1 h
        exact ⟨0, [.name "steps"], rfl, rfl⟩
      | cons s steps =>
        obtain ⟨k, rest, hp, hv⟩ := at?_sitesList (s :: steps) h
        refine ⟨0, .name "steps" :: .index (0 + k : Nat) :: rest, ?_, ?_⟩
        · rw [hp, List.append_assoc]
          rfl
        · rw [Nat.zero_add]
          exact hv
    · obtain ⟨k, rest, hp, hv⟩ := at?_sitesCases others h
      refine ⟨k + 1, rest, ?_, ?_⟩
      · rw [hp, Nat.add_right_comm, Nat.add_assoc]
      · rw [casesToJson, at?_arr_cons]
        exact hv

theorem at?_sitesElse {x : Site} (otherwise : Member (List Step))
    (h : x ∈ sitesElse depth place otherwise) :
    ∃ (steps : List Step) (rest : Locator), otherwise = .given steps ∧
      x.place = place ++ .name "else" :: rest ∧
      (Json.arr (listToJson .full steps)).at? rest = some x.toJson := by
  match otherwise with
  | .absent => exact absurd h List.not_mem_nil
  | .null => exact absurd h List.not_mem_nil
  | .given [] =>
    obtain rfl := List.mem_singleton.1 h
    exact ⟨[], [], rfl, rfl, rfl⟩
  | .given (s :: steps) =>
    obtain ⟨k, rest, hp, hv⟩ := at?_sitesList (s :: steps) h
    refine ⟨s :: steps, .index (0 + k : Nat) :: rest, rfl, ?_, ?_⟩
    · rw [hp, List.append_assoc]
      rfl
    · rw [Nat.zero_add]
      exact hv

theorem at?_sitesList {x : Site} (steps : List Step) (h : x ∈ sitesList depth place i steps) :
    ∃ (k : Nat) (rest : Locator), x.place = place ++ .index (i + k : Nat) :: rest ∧
      (Json.arr (listToJson .full steps)).at? (.index k :: rest) = some x.toJson := by
  match steps with
  | [] => exact absurd h List.not_mem_nil
  | s :: others =>
    rw [sitesList, List.mem_append] at h
    rcases h with h | h
    · obtain ⟨rest, hp, hv⟩ := at?_sites s h
      refine ⟨0, rest, ?_, hv⟩
      rw [hp, List.append_assoc]
      rfl
    · obtain ⟨k, rest, hp, hv⟩ := at?_sitesList others h
      refine ⟨k + 1, rest, ?_, ?_⟩
      · rw [hp, Nat.add_right_comm, Nat.add_assoc]
      · rw [listToJson, at?_arr_cons]
        exact hv

end

end Step

/-- The sites of a plan hold every step once, in the order of the walk over all steps. -/
theorem Plan.steps_sites (p : Plan) : p.sites.filterMap Site.step? = Step.all p.steps := by
  rw [Plan.sites, Step.steps_sitesList, Step.all_eq_preorderList]

/-- The step at a site with the number of branches around it. -/
def Site.nested? (x : Site) : Option (Nat × Step) := x.step?.map (x.depth, ·)

theorem Site.nested?_eq_some {x : Site} {depth : Nat} :
    x.nested? = some (depth, s) ↔ ∃ place, x = .step depth place s := by
  cases x <;> simp [nested?, step?, Site.depth]

/-- The steps of a plan in document order, each with the number of branches around it. -/
def Plan.nestedSteps (p : Plan) : List (Nat × Step) := p.sites.filterMap Site.nested?

theorem Plan.steps_nestedSteps (p : Plan) : p.nestedSteps.map Prod.snd = Step.all p.steps := by
  rw [nestedSteps, List.map_filterMap, ← p.steps_sites]
  congr 1
  funext x
  rw [Site.nested?, Option.map_map]
  exact Option.map_id'

theorem Plan.exists_site {p : Plan} (h : (depth, s) ∈ p.nestedSteps) :
    ∃ place, Site.step depth place s ∈ p.sites := by
  obtain ⟨x, hx, hstep⟩ := List.mem_filterMap.1 h
  obtain ⟨place, rfl⟩ := Site.nested?_eq_some.1 hstep
  exact ⟨place, hx⟩

/-- The place of a site leads to its value in the document of the plan. -/
theorem Plan.at?_sites {p : Plan} {x : Site} (h : x ∈ p.sites) :
    p.toJson.at? x.place = some x.toJson := by
  obtain ⟨k, rest, hp, hv⟩ := Step.at?_sitesList p.steps h
  rw [hp, Nat.zero_add]
  exact hv

end Flowplan
