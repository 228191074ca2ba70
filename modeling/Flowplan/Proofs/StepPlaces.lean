import Flowplan.Proofs.PlanSites

/-!
Where the steps of a tree stand. Main statement: the sites of a tree hold the step of each place
where one stands, and no place twice.
-/

namespace Flowplan
set_option autoImplicit true

open Flowplan.Json

namespace Step

/-- A step of a list at its place: among the steps of the list itself, or below a branch in it. -/
inductive StandsAt : List Step → Locator → Step → Prop
  | here {i : Nat} (step : steps[i]? = some s) : StandsAt steps [.index i] s
  | inCase {i j : Nat} (branch : steps[i]? = some (.branch cases otherwise))
      (case : cases[j]? = some c) (below : StandsAt c.steps place s) :
      StandsAt steps (.index i :: .name "cases" :: .index j :: .name "steps" :: place) s
  | inElse {i : Nat} (branch : steps[i]? = some (.branch cases (.given nested)))
      (below : StandsAt nested place s) :
      StandsAt steps (.index i :: .name "else" :: place) s

/-- A step before all others moves them on by one. -/
theorem StandsAt.cons {i : Nat} (h : StandsAt steps (.index i :: place) t) (s : Step) :
    StandsAt (s :: steps) (.index (i + 1 : Nat) :: place) t := by
  cases h with
  | here step => exact .here step
  | inCase branch case below => exact .inCase branch case below
  | inElse branch below => exact .inElse branch below

mutual

/-- A site that holds a step is at the place where the step stands. -/
theorem standsAt_of_mem_sites (s : Step) (h : .step depth' place' t ∈ sites depth place s) :
    ∃ rest, place' = place ++ rest ∧
      ∀ {steps : List Step} {i : Nat}, steps[i]? = some s →
        StandsAt steps (.index i :: rest) t := by
  cases s with
  | branch cases otherwise =>
    rw [sites, List.mem_cons, List.mem_append] at h
    rcases h with h | h | h
    · obtain ⟨-, rfl, rfl⟩ := Site.step.inj h
      exact ⟨[], (List.append_nil _).symm, fun hi => .here hi⟩
    · obtain ⟨j, c, rest, hplace, hc, hbelow⟩ := standsAt_of_mem_sitesCases cases h
      rw [Nat.zero_add] at hplace
      exact ⟨_, hplace, fun hi => .inCase hi hc hbelow⟩
    · obtain ⟨nested, rest, rfl, hplace, hbelow⟩ := standsAt_of_mem_sitesElse otherwise h
      exact ⟨_, hplace, fun hi => .inElse hi hbelow⟩
  | _ =>
    obtain ⟨-, rfl, rfl⟩ := Site.step.inj (List.mem_singleton.1 h)
    exact ⟨[], (List.append_nil _).symm, fun hi => .here hi⟩

theorem standsAt_of_mem_sitesCases (cases : List (Case Step))
    (h : .step depth' place' t ∈ sitesCases depth place i cases) :
    ∃ (j : Nat) (c : Case Step) (rest : Locator),
      place' = place ++ .name "cases" :: .index (i + j : Nat) :: .name "steps" :: rest ∧
      cases[j]? = some c ∧ StandsAt c.steps rest t := by
  match cases with
  | [] => exact absurd h List.not_mem_nil
  | ⟨condition, []⟩ :: others =>
    rw [sitesCases, List.mem_append] at h
    rcases h with h | h
    · exact nomatch List.mem_singleton.1 h
    · obtain ⟨j, c, rest, hplace, hc, hbelow⟩ := standsAt_of_mem_sitesCases others h
      rw [Nat.add_right_comm, Nat.add_assoc] at hplace
      exact ⟨j + 1, c, rest, hplace, hc, hbelow⟩
  | ⟨condition, s :: steps⟩ :: others =>
    rw [sitesCases, List.mem_append] at h
    rcases h with h | h
    · obtain ⟨k, rest, hplace, hbelow⟩ := standsAt_of_mem_sitesList (s :: steps) h
      rw [Nat.zero_add, List.append_assoc] at hplace
      exact ⟨0, _, _, hplace, rfl, hbelow⟩
    · obtain ⟨j, c, rest, hplace, hc, hbelow⟩ := standsAt_of_mem_sitesCases others h
      rw [Nat.add_right_comm, Nat.add_assoc] at hplace
      exact ⟨j + 1, c, rest, hplace, hc, hbelow⟩

theorem standsAt_of_mem_sitesElse (otherwise : Member (List Step))
    (h : .step depth' place' t ∈ sitesElse depth place otherwise) :
    ∃ (nested : List Step) (rest : Locator), otherwise = .given nested ∧
      place' = place ++ .name "else" :: rest ∧ StandsAt nested rest t := by
  match otherwise with
  | .absent => exact absurd h List.not_mem_nil
  | .null => exact absurd h List.not_mem_nil
  | .given [] => exact nomatch List.mem_singleton.1 h
  | .given (s :: steps) =>
    obtain ⟨k, rest, hplace, hbelow⟩ := standsAt_of_mem_sitesList (s :: steps) h
    rw [Nat.zero_add, List.append_assoc] at hplace
    exact ⟨_, _, rfl, hplace, hbelow⟩

theorem standsAt_of_mem_sitesList (steps : List Step)
    (h : .step depth' place' t ∈ sitesList depth place i steps) :
    ∃ (k : Nat) (rest : Locator), place' = place ++ .index (i + k : Nat) :: rest ∧
      StandsAt steps (.index k :: rest) t := by
  match steps with
  | [] => exact absurd h List.not_mem_nil
  | s :: others =>
    rw [sitesList, List.mem_append] at h
    rcases h with h | h
    · obtain ⟨rest, hplace, hstands⟩ := standsAt_of_mem_sites s h
      rw [List.append_assoc] at hplace
      exact ⟨0, rest, hplace, hstands rfl⟩
    · obtain ⟨k, rest, hplace, hstands⟩ := standsAt_of_mem_sitesList others h
      rw [Nat.add_right_comm, Nat.add_assoc] at hplace
      exact ⟨k + 1, rest, hplace, hstands.cons s⟩

end

theorem mem_sites_self (depth : Nat) (place : Locator) (s : Step) :
    .step depth place s ∈ sites depth place s := by
  cases s with
  | branch cases otherwise => exact List.mem_cons_self
  | _ => exact List.mem_singleton_self _

theorem mem_sitesList {x : Site} {steps : List Step} {k : Nat} (hs : steps[k]? = some s)
    (h : x ∈ sites depth (place ++ [.index (i + k : Nat)]) s) :
    x ∈ sitesList depth place i steps := by
  induction steps generalizing i k with
  | nil => exact nomatch hs
  | cons t rest ih =>
    rw [sitesList, List.mem_append]
    cases k with
    | zero =>
      obtain rfl := Option.some.inj hs
      exact .inl h
    | succ k =>
      rw [← Nat.add_assoc, Nat.add_right_comm] at h
      exact .inr (ih hs h)

theorem mem_sitesCases {x : Site} {cases : List (Case Step)} {j : Nat} (hc : cases[j]? = some c)
    (h : x ∈ sitesList depth (place ++ [.name "cases", .index (i + j : Nat), .name "steps"]) 0
      c.steps) : x ∈ sitesCases depth place i cases := by
  induction cases generalizing i j with
  | nil => exact nomatch hc
  | cons first others ih =>
    rw [sitesCases, List.mem_append]
    cases j with
    | zero =>
      obtain rfl := Option.some.inj hc
      obtain ⟨condition, steps⟩ := first
      cases steps with
      | nil => exact absurd h List.not_mem_nil
      | cons s rest => exact .inl h
    | succ j =>
      rw [← Nat.add_assoc, Nat.add_right_comm] at h
      exact .inr (ih hc h)

theorem mem_sitesElse {x : Site}
    (h : x ∈ sitesList depth (place ++ [.name "else"]) 0 steps) :
    x ∈ sitesElse depth place (.given steps) := by
  cases steps with
  | nil => exact absurd h List.not_mem_nil
  | cons s rest => exact h

/-- There is a site wherever a step stands. -/
theorem StandsAt.mem_sitesList (h : StandsAt steps rest s) (depth : Nat) (place : Locator) :
    ∃ depth', .step depth' (place ++ rest) s ∈ sitesList depth place 0 steps := by
  induction h generalizing depth place with
  | @here steps s i step =>
    refine ⟨depth, Step.mem_sitesList step ?_⟩
    rw [Nat.zero_add]
    exact mem_sites_self _ _ s
  | @inCase steps cases otherwise c rest s i j branch case below ih =>
    obtain ⟨depth', h⟩ := ih (depth + 1)
      (place ++ [.index i] ++ [.name "cases", .index (0 + j : Nat), .name "steps"])
    refine ⟨depth', Step.mem_sitesList branch ?_⟩
    rw [Nat.zero_add, sites]
    apply List.mem_cons_of_mem
    apply List.mem_append_left
    have hcase := mem_sitesCases case h
    simpa using hcase
  | @inElse steps cases nested rest s i branch below ih =>
    obtain ⟨depth', h⟩ := ih (depth + 1) (place ++ [.index i] ++ [.name "else"])
    refine ⟨depth', Step.mem_sitesList branch ?_⟩
    rw [Nat.zero_add, sites]
    apply List.mem_cons_of_mem
    apply List.mem_append_right
    have helse := mem_sitesElse h
    simpa using helse

/-- The sites of a case stand below its place, also where it has no steps. -/
theorem place_caseSites {x : Site} {steps : List Step} {here : Locator}
    (h : x ∈ if steps.isEmpty then [Site.emptyCase depth here] else sitesList depth here 0 steps) :
    ∃ rest, x.place = here ++ rest := by
  split at h
  · obtain rfl := List.mem_singleton.1 h
    exact ⟨[], (List.append_nil _).symm⟩
  · obtain ⟨k, rest, hplace, -⟩ := at?_sitesList steps h
    exact ⟨_, hplace⟩

theorem place_ne_below (place : Locator) (t : Token) (rest : Locator) :
    place ++ t :: rest ≠ place := by
  intro h
  exact List.cons_ne_nil _ _ (List.self_eq_append_right.1 h.symm)

/-- Below two parts of a value are different places. -/
theorem place_ne_place {t u : Token} (h : t ≠ u) (place rest rest' : Locator) :
    place ++ t :: rest ≠ place ++ u :: rest' := by
  intro he
  exact h (List.cons.inj (List.append_cancel_left he)).1

theorem index_ne_index {m n : Nat} (h : m ≠ n) : Token.index m ≠ Token.index n := by
  intro he
  exact h (Int.ofNat.inj (Token.index.inj he))

mutual

/-- No two sites of a tree are at one place. -/
theorem nodup_sites (depth : Nat) (place : Locator) (s : Step) :
    ((sites depth place s).map Site.place).Nodup := by
  cases s with
  | branch cases otherwise =>
    rw [sites, List.map_cons, List.map_append, List.nodup_cons, List.nodup_append]
    refine ⟨?_, nodup_sitesCases (depth + 1) place 0 cases,
      nodup_sitesElse (depth + 1) place otherwise, ?_⟩
    · intro h
      rcases List.mem_append.1 h with h | h
      · obtain ⟨x, hx, hplace⟩ := List.mem_map.1 h
        obtain ⟨k, rest, hbelow, -⟩ := at?_sitesCases cases hx
        exact place_ne_below _ _ _ (hbelow.symm.trans hplace)
      · obtain ⟨x, hx, hplace⟩ := List.mem_map.1 h
        obtain ⟨steps, rest, -, hbelow, -⟩ := at?_sitesElse otherwise hx
        exact place_ne_below _ _ _ (hbelow.symm.trans hplace)
    · intro a ha b hb
      obtain ⟨x, hx, rfl⟩ := List.mem_map.1 ha
      obtain ⟨y, hy, rfl⟩ := List.mem_map.1 hb
      obtain ⟨k, rest, hcase, -⟩ := at?_sitesCases cases hx
      obtain ⟨steps, rest', -, helse, -⟩ := at?_sitesElse otherwise hy
      rw [hcase, helse]
      exact place_ne_place (by decide) place _ _
  | _ => exact List.pairwise_singleton _ _

theorem nodup_sitesCases (depth : Nat) (place : Locator) (i : Nat) (cases : List (Case Step)) :
    ((sitesCases depth place i cases).map Site.place).Nodup := by
  match cases with
  | [] => exact List.nodup_nil
  | ⟨condition, steps⟩ :: others =>
    rw [sitesCases, List.map_append, List.nodup_append]
    refine ⟨?_, nodup_sitesCases depth place (i + 1) others, ?_⟩
    · split
      · exact List.pairwise_singleton _ _
      · exact nodup_sitesList depth _ 0 steps
    · intro a ha b hb
      obtain ⟨x, hx, rfl⟩ := List.mem_map.1 ha
      obtain ⟨y, hy, rfl⟩ := List.mem_map.1 hb
      obtain ⟨rest, hfirst⟩ := place_caseSites hx
      obtain ⟨k, rest', hlater, -⟩ := at?_sitesCases others hy
      have hne : Token.index i ≠ Token.index (i + 1 + k : Nat) := index_ne_index (by omega)
      have hplaces := place_ne_place hne (place ++ [.name "cases"]) (.name "steps" :: rest) rest'
      simp only [List.append_assoc, List.cons_append, List.nil_append] at hplaces hfirst
      rw [hfirst, hlater]
      exact hplaces

theorem nodup_sitesElse (depth : Nat) (place : Locator) (otherwise : Member (List Step)) :
    ((sitesElse depth place otherwise).map Site.place).Nodup := by
  match otherwise with
  | .absent => exact List.nodup_nil
  | .null => exact List.nodup_nil
  | .given [] => exact List.pairwise_singleton _ _
  | .given (s :: steps) => exact nodup_sitesList depth _ 0 (s :: steps)

theorem nodup_sitesList (depth : Nat) (place : Locator) (i : Nat) (steps : List Step) :
    ((sitesList depth place i steps).map Site.place).Nodup := by
  match steps with
  | [] => exact List.nodup_nil
  | s :: others =>
    rw [sitesList, List.map_append, List.nodup_append]
    refine ⟨nodup_sites depth _ s, nodup_sitesList depth place (i + 1) others, ?_⟩
    intro a ha b hb
    obtain ⟨x, hx, rfl⟩ := List.mem_map.1 ha
    obtain ⟨y, hy, rfl⟩ := List.mem_map.1 hb
    obtain ⟨rest, hfirst, -⟩ := at?_sites s hx
    obtain ⟨k, rest', hlater, -⟩ := at?_sitesList others hy
    rw [hfirst, hlater, List.append_assoc]
    exact place_ne_place (index_ne_index (by omega)) place _ _

end

end Step

/-- The step at a site with its place. -/
def Site.placed? (x : Site) : Option (Locator × Step) := x.step?.map (x.place, ·)

theorem Site.placed?_eq_some {x : Site} {place : Locator} :
    x.placed? = some (place, s) ↔ ∃ depth, x = .step depth place s := by
  cases x <;> simp [placed?, step?, Site.place]

namespace Step

/-- The steps of a tree in document order, each with its place. -/
def placed (steps : List Step) : List (Locator × Step) :=
  (sitesList 0 [] 0 steps).filterMap Site.placed?

theorem steps_placed (steps : List Step) : (placed steps).map Prod.snd = all steps := by
  rw [placed, List.map_filterMap, all_eq_preorderList, ← steps_sitesList 0 [] 0 steps]
  congr 1
  funext x
  rw [Site.placed?, Option.map_map]
  exact Option.map_id'

theorem mem_placed_iff : (place, s) ∈ placed steps ↔ StandsAt steps place s := by
  rw [placed, List.mem_filterMap]
  constructor
  · rintro ⟨x, hx, hplaced⟩
    obtain ⟨depth, rfl⟩ := Site.placed?_eq_some.1 hplaced
    obtain ⟨k, rest, rfl, hstands⟩ := standsAt_of_mem_sitesList steps hx
    rw [Nat.zero_add]
    exact hstands
  · intro h
    obtain ⟨depth, hmem⟩ := h.mem_sitesList 0 []
    exact ⟨_, hmem, Site.placed?_eq_some.2 ⟨depth, rfl⟩⟩

/-- No two steps of a tree stand at one place. -/
theorem nodup_placed (steps : List Step) : ((placed steps).map Prod.fst).Nodup := by
  have hsites : (sitesList 0 [] 0 steps).Pairwise fun x y => x.place ≠ y.place :=
    List.pairwise_map.1 (nodup_sitesList 0 [] 0 steps)
  rw [placed, List.Nodup, List.pairwise_map]
  refine hsites.filterMap Site.placed? ?_
  rintro x y hne ⟨place, s⟩ hs ⟨place', t⟩ ht
  obtain ⟨depth, rfl⟩ := Site.placed?_eq_some.1 hs
  obtain ⟨depth', rfl⟩ := Site.placed?_eq_some.1 ht
  exact hne

/-- The walk gives the steps that stand somewhere in the tree, at whatever depth. -/
theorem mem_all_iff : s ∈ all steps ↔ ∃ place, StandsAt steps place s := by
  rw [← steps_placed, List.mem_map]
  constructor
  · rintro ⟨⟨place, t⟩, hmem, rfl⟩
    exact ⟨place, mem_placed_iff.1 hmem⟩
  · rintro ⟨place, h⟩
    exact ⟨(place, s), mem_placed_iff.2 h, rfl⟩

end Step
end Flowplan
