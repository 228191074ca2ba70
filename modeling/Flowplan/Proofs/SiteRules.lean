import Flowplan.Proofs.InspectionRun

namespace Flowplan
set_option autoImplicit true

open Flowplan.Json

namespace Site

/-- A site is looked at when no branch around it is too deep. -/
def visited (limit : Int) (x : Site) : Bool := decide (∀ d < x.depth, (d : Int) < limit)

/-- The question that is asked at a site. -/
def calls : Site → List Call
  | .step _ _ (.request _ url _ _) => [.allows url]
  | .step _ _ (.action slug _) => [.resolve slug]
  | _ => []

/-- The rules that are broken at a site, where some questions are answered with yes. -/
def violations (limit : Int) (granted : Call → Bool) : Site → List Finding
  | .step depth place s => match s with
    | .trigger path _ =>
      (if path.toList.head? = some '/' then []
        else [⟨place ++ [.name "path"], .webhookPath path⟩]) ++
      (if ' ' ∈ path.toList ∨ '?' ∈ path.toList then
        [⟨place ++ [.name "path"], .webhookPathFormat path⟩] else [])
    | .slack channel _ =>
      if channel.toList.head? = some '#' ∨ channel.toList.head? = some '@' then []
      else [⟨place ++ [.name "channel"], .slackChannel channel⟩]
    | .request _ url _ _ =>
      if granted (.allows url) then [] else [⟨place ++ [.name "url"], .forbiddenHost url⟩]
    | .action slug _ =>
      if granted (.resolve slug) then [] else [⟨place ++ [.name "actionSlug"], .unknownAction slug⟩]
    | .branch _ _ => if limit ≤ depth then [⟨place, .tooDeep limit⟩] else []
    | .filter _ => []
    | .bare _ => []
  | .emptyCase _ place => [⟨place, .emptyCase⟩]
  | .emptyElse _ place => [⟨place, .emptyElse⟩]

/-- What is broken at the sites one after the other; an answer may depend on the calls before. -/
def reports (limit : Int) (context : Context) (history : List Call) : List Site → List Finding
  | [] => []
  | x :: rest =>
    x.violations limit (context.grants history) ++
      reports limit context (history ++ x.calls) rest

/-- The checks of a site by itself. -/
def checks (limit : Int) : Site → List Check
  | .step depth place s => match s with
    | .trigger path _ => Check.ofWebhookPath place path
    | .slack channel _ => Check.ofChannel place channel
    | .request _ url _ _ => [.ask (.allows url) ⟨place ++ [.name "url"], .forbiddenHost url⟩]
    | .action slug _ =>
      [.ask (.resolve slug) ⟨place ++ [.name "actionSlug"], .unknownAction slug⟩]
    | .branch _ _ => if limit ≤ depth then [.broken ⟨place, .tooDeep limit⟩] else []
    | .filter _ => []
    | .bare _ => []
  | .emptyCase _ place => [.broken ⟨place, .emptyCase⟩]
  | .emptyElse _ place => [.broken ⟨place, .emptyElse⟩]

end Site

namespace Step

mutual

theorem le_depth_sites (s : Step) (h : x ∈ sites depth place s) : depth ≤ x.depth := by
  cases s with
  | branch cases otherwise =>
    rw [sites, List.mem_cons, List.mem_append] at h
    rcases h with rfl | h | h
    · exact Nat.le_refl depth
    · exact Nat.le_of_succ_le (le_depth_sitesCases cases h)
    · exact Nat.le_of_succ_le (le_depth_sitesElse otherwise h)
  | _ =>
    obtain rfl := List.mem_singleton.1 h
    exact Nat.le_refl depth

theorem le_depth_sitesCases (cases : List (Case Step)) (h : x ∈ sitesCases depth place i cases) :
    depth ≤ x.depth := by
  match cases with
  | [] => exact absurd h List.not_mem_nil
  | ⟨condition, []⟩ :: rest =>
    rcases List.mem_cons.1 h with rfl | h
    · exact Nat.le_refl depth
    · exact le_depth_sitesCases rest h
  | ⟨condition, s :: steps⟩ :: rest =>
    rcases List.mem_append.1 h with h | h
    · exact le_depth_sitesList (s :: steps) h
    · exact le_depth_sitesCases rest h

theorem le_depth_sitesElse (otherwise : Member (List Step))
    (h : x ∈ sitesElse depth place otherwise) : depth ≤ x.depth := by
  match otherwise with
  | .absent => exact absurd h List.not_mem_nil
  | .null => exact absurd h List.not_mem_nil
  | .given [] =>
    obtain rfl := List.mem_singleton.1 h
    exact Nat.le_refl depth
  | .given (s :: steps) => exact le_depth_sitesList (s :: steps) h

theorem le_depth_sitesList (steps : List Step) (h : x ∈ sitesList depth place i steps) :
    depth ≤ x.depth := by
  match steps with
  | [] => exact absurd h List.not_mem_nil
  | s :: rest =>
    rcases List.mem_append.1 h with h | h
    · exact le_depth_sites s h
    · exact le_depth_sitesList rest h

end

end Step

/-- No branch is too deep inside fewer than so many branches. -/
def WithinLimit (limit : Int) (depth : Nat) : Prop := ∀ d < depth, (d : Int) < limit

namespace WithinLimit

theorem zero (limit : Int) : WithinLimit limit 0 := fun _ h => absurd h (Nat.not_lt_zero _)

theorem succ (h : WithinLimit limit depth) (hd : ¬ limit ≤ depth) :
    WithinLimit limit (depth + 1) := by
  intro d hlt
  rcases Nat.lt_succ_iff_lt_or_eq.1 hlt with hlt | rfl
  · exact h d hlt
  · exact Int.not_le.1 hd

end WithinLimit

theorem Site.visited_iff {x : Site} : x.visited limit = true ↔ WithinLimit limit x.depth :=
  decide_eq_true_iff

/-- Nothing below a branch that is too deep is looked at. -/
theorem Site.filter_visited_eq_nil {limit : Int} {depth : Nat} {xs : List Site}
    (hd : limit ≤ depth) (h : ∀ x ∈ xs, depth + 1 ≤ x.depth) : xs.filter (visited limit) = [] := by
  apply List.filter_eq_nil_iff.2
  intro x hx hv
  have hlt : (depth : Int) < limit := visited_iff.1 hv depth (h x hx)
  omega

namespace Check

open Step

mutual

/-- The checks of a step are those of its sites that are looked at, in document order. -/
theorem ofStep_eq_flatMap (place : Locator) (s : Step) (h : WithinLimit limit depth) :
    ofStep limit depth place s =
      ((sites depth place s).filter (Site.visited limit)).flatMap (Site.checks limit) := by
  have hv : ∀ t, (Site.step depth place t).visited limit = true := fun _ => Site.visited_iff.2 h
  cases s with
  | branch cases otherwise =>
    rw [sites, List.filter_cons_of_pos (hv _), List.flatMap_cons, ofStep, Site.checks]
    split
    · rename_i hd
      -- Everything below the branch is inside of it, and so never in view.
      rw [Site.filter_visited_eq_nil hd, List.flatMap_nil, List.append_nil]
      intro x hx
      rcases List.mem_append.1 hx with hx | hx
      · exact le_depth_sitesCases cases hx
      · exact le_depth_sitesElse otherwise hx
    · rename_i hd
      rw [List.nil_append, List.filter_append, List.flatMap_append,
        ofCases_eq_flatMap place 0 cases (h.succ hd), ofElse_eq_flatMap place otherwise (h.succ hd)]
  | _ =>
    rw [sites, List.filter_cons_of_pos (hv _)]
    exact (List.append_nil _).symm

theorem ofCases_eq_flatMap (place : Locator) (i : Nat) (cases : List (Case Step))
    (h : WithinLimit limit (depth + 1)) :
    ofCases limit depth place i cases =
      ((sitesCases (depth + 1) place i cases).filter (Site.visited limit)).flatMap
        (Site.checks limit) := by
  match cases with
  | [] => rfl
  | ⟨condition, []⟩ :: rest =>
    have hv : (Site.emptyCase (depth + 1)
        (place ++ [.name "cases", .index i, .name "steps"])).visited limit = true :=
      Site.visited_iff.2 h
    rw [ofCases, ofCases_eq_flatMap place (i + 1) rest h, sitesCases, List.filter_append,
      List.flatMap_append]
    simp only [List.isEmpty_nil, if_true, List.filter_cons_of_pos hv]
    rfl
  | ⟨condition, s :: steps⟩ :: rest =>
    rw [ofCases, ofCases_eq_flatMap place (i + 1) rest h, sitesCases, List.filter_append,
      List.flatMap_append]
    simp only [List.isEmpty_cons, Bool.false_eq_true, if_false]
    rw [ofSteps_eq_flatMap _ 0 (s :: steps) h]

theorem ofElse_eq_flatMap (place : Locator) (otherwise : Member (List Step))
    (h : WithinLimit limit (depth + 1)) :
    ofElse limit depth place otherwise =
      ((sitesElse (depth + 1) place otherwise).filter (Site.visited limit)).flatMap
        (Site.checks limit) := by
  match otherwise with
  | .absent => rfl
  | .null => rfl
  | .given [] =>
    have hv : (Site.emptyElse (depth + 1) (place ++ [.name "else"])).visited limit = true :=
      Site.visited_iff.2 h
    simp only [ofElse, sitesElse, List.isEmpty_nil, if_true, List.filter_cons_of_pos hv]
    rfl
  | .given (s :: steps) =>
    simp only [ofElse, sitesElse, List.isEmpty_cons, Bool.false_eq_true, if_false]
    rw [ofSteps_eq_flatMap _ 0 (s :: steps) h]

theorem ofSteps_eq_flatMap (place : Locator) (i : Nat) (steps : List Step)
    (h : WithinLimit limit depth) :
    ofSteps limit depth place i steps =
      ((sitesList depth place i steps).filter (Site.visited limit)).flatMap
        (Site.checks limit) := by
  match steps with
  | [] => rfl
  | s :: rest =>
    rw [ofSteps, ofStep_eq_flatMap _ s h, ofSteps_eq_flatMap place (i + 1) rest h, sitesList,
      List.filter_append, List.flatMap_append]

end

end Check

end Flowplan
