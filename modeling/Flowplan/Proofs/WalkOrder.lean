import Flowplan.Proofs.StepPlaces
import Mathlib.Data.List.Basic
import Mathlib.Data.List.Induction

/-!
The walk over a step tree as a loop with a stack of sequences that are not finished. Main statement:
it ends, and gives each step of the tree once and in document order; so the steps are counted,
looked for by their type, and their types listed, over the tree as a whole.
-/

namespace Flowplan.Step
set_option autoImplicit true

/-- The loop of the walk, from a stack on: how many turns it takes to the end, and which steps it
gives. A turn takes a finished sequence off the stack, or gives the next step of the sequence on top
and puts those below that step on top of the rest of it. -/
inductive Walks : Nat → List (List Step) → List Step → Prop
  | done : Walks 0 [] []
  | finish (more : Walks n stack given) : Walks (n + 1) ([] :: stack) given
  | give (more : Walks n (s.children ++ top :: stack) given) :
      Walks (n + 1) ((s :: top) :: stack) (s :: given)

theorem Walks.unique (h : Walks n stack given) (h' : Walks m stack given') :
    n = m ∧ given = given' := by
  induction h generalizing m given' with
  | done =>
    cases h' with
    | done => exact ⟨rfl, rfl⟩
  | finish _ ih =>
    cases h' with
    | finish more =>
      obtain ⟨rfl, rfl⟩ := ih more
      exact ⟨rfl, rfl⟩
  | give _ ih =>
    cases h' with
    | give more =>
      obtain ⟨rfl, rfl⟩ := ih more
      exact ⟨rfl, rfl⟩

/-- One turn for each step, and one for each sequence that is ever on the stack. -/
def turns (stack : List (List Step)) : Nat :=
  (walk stack).length + ((walk stack).flatMap children).length + stack.length

/-- Each turn makes the number of turns that are left smaller by one, though the stack may grow. -/
theorem walks_walk (stack : List (List Step)) : Walks (turns stack) stack (walk stack) := by
  induction stack using walk.induct with
  | case1 =>
    rw [turns, walk]
    exact .done
  | case2 rest ih =>
    have hturns : turns ([] :: rest) = turns rest + 1 := by
      rw [turns, turns, walk, List.length_cons]
      rfl
    rw [hturns, walk]
    exact .finish ih
  | case3 s top rest ih =>
    have hturns : turns ((s :: top) :: rest) = turns (s.children ++ top :: rest) + 1 := by
      rw [turns, turns, walk, List.flatMap_cons]
      simp only [List.length_cons, List.length_append]
      omega
    rw [hturns, walk]
    exact .give ih

theorem walks_iff : Walks n stack given ↔ n = turns stack ∧ given = walk stack := by
  constructor
  · intro h
    exact h.unique (walks_walk stack)
  · rintro ⟨rfl, rfl⟩
    exact walks_walk stack

theorem turns_singleton (steps : List Step) :
    turns [steps] = count steps + ((all steps).flatMap children).length + 1 := rfl

theorem count_append (steps others : List Step) :
    count (steps ++ others) = count steps + count others := by
  have happend : preorderList (steps ++ others) = preorderList steps ++ preorderList others := by
    induction steps with
    | nil => rfl
    | cons s rest ih => rw [List.cons_append, preorderList, preorderList, ih, List.append_assoc]
  rw [count, count, count, all_eq_preorderList, all_eq_preorderList, all_eq_preorderList, happend,
    List.length_append]

/-- A step counts itself and what the sequences below it count. -/
theorem count_cons (s : Step) (rest : List Step) :
    count (s :: rest) = 1 + (s.children.map count).foldr (· + ·) 0 + count rest := by
  have hbelow :
      (s.children.flatMap preorderList).length = (s.children.map count).foldr (· + ·) 0 := by
    rw [List.length_flatMap, List.sum_eq_foldr]
    congr 1
    apply List.map_congr_left
    intro steps _
    rw [count, all_eq_preorderList]
  rw [count, count, all_eq_preorderList, all_eq_preorderList, preorderList, preorder_eq_cons,
    List.length_append, List.length_cons, hbelow, Nat.add_comm 1]

/-- Each of some types once, in the order in which they first come. -/
structure FirstSeen (types seen : List String) : Prop where
  nodup : seen.Nodup
  mem_iff : ∀ t, t ∈ seen ↔ t ∈ types
  ordered : seen.Pairwise fun t u => types.idxOf t < types.idxOf u

theorem FirstSeen.nil : FirstSeen [] [] where
  nodup := List.nodup_nil
  mem_iff _ := Iff.rfl
  ordered := .nil

theorem FirstSeen.idxOf_lt (h : FirstSeen types seen) (more : List String) :
    seen.Pairwise fun t u => (types ++ more).idxOf t < (types ++ more).idxOf u := by
  refine h.ordered.imp_of_mem ?_
  intro t u ht hu hlt
  rwa [List.idxOf_append_of_mem ((h.mem_iff t).1 ht), List.idxOf_append_of_mem ((h.mem_iff u).1 hu)]

/-- A type that has been seen changes nothing. -/
theorem FirstSeen.again (h : FirstSeen types seen) (ht : t ∈ seen) :
    FirstSeen (types ++ [t]) seen where
  nodup := h.nodup
  mem_iff u := by
    rw [h.mem_iff u, List.mem_append, List.mem_singleton]
    constructor
    · exact .inl
    · rintro (hu | rfl)
      · exact hu
      · exact (h.mem_iff u).1 ht
  ordered := h.idxOf_lt [t]

/-- A new type comes after those that have been seen. -/
theorem FirstSeen.new (h : FirstSeen types seen) (ht : t ∉ seen) :
    FirstSeen (types ++ [t]) (seen ++ [t]) where
  nodup := by
    rw [List.nodup_append]
    refine ⟨h.nodup, List.pairwise_singleton _ _, ?_⟩
    intro u hu v hv he
    rw [List.mem_singleton] at hv
    exact ht (hv ▸ he ▸ hu)
  mem_iff u := by rw [List.mem_append, List.mem_append, h.mem_iff u]
  ordered := by
    rw [List.pairwise_append]
    refine ⟨h.idxOf_lt [t], List.pairwise_singleton _ _, ?_⟩
    intro u hu v hv
    obtain rfl := List.mem_singleton.1 hv
    have hold := (h.mem_iff u).1 hu
    have hnew := mt (h.mem_iff v).2 ht
    rw [List.idxOf_append_of_mem hold, List.idxOf_append_of_notMem hnew]
    exact Nat.lt_add_right _ (List.idxOf_lt_length_of_mem hold)

theorem firstSeen_distinct (types : List String) : FirstSeen types (distinct types) := by
  induction types using List.reverseRecOn with
  | nil => exact .nil
  | append_singleton types t ih =>
    have hnext : distinct (types ++ [t]) =
        if (distinct types).contains t then distinct types else distinct types ++ [t] := by
      rw [distinct, List.foldl_append]
      rfl
    rw [hnext]
    split
    · rename_i h
      exact ih.again (List.contains_iff_mem.1 h)
    · rename_i h
      exact ih.new (mt List.contains_iff_mem.2 h)

/-- Every step that stands in a tree has a type. -/
def Typed (steps : List Step) : Prop := ∀ place s, StandsAt steps place s → s.type?.isSome = true

/-- A step of a type stands in a tree, at whatever depth. -/
def HasStep (type : String) (steps : List Step) : Prop :=
  ∃ place s, StandsAt steps place s ∧ s.type? = some type

theorem Typed.of_mem (h : Typed steps) : ∀ s ∈ all steps, s.type?.isSome = true := by
  intro s hs
  obtain ⟨place, hplace⟩ := mem_all_iff.1 hs
  exact h place s hplace

theorem hasStep_iff : HasStep type steps ↔ ∃ s ∈ all steps, s.type? = some type := by
  simp only [HasStep, mem_all_iff, exists_and_right, exists_comm (α := Locator)]

/-- The answer of a search, if it gives one. -/
theorem search_iff {steps : List Step} (h : hasType?.search type steps = some found) :
    found = true ↔ ∃ s ∈ steps, s.type? = some type := by
  induction steps with
  | nil =>
    obtain rfl := Option.some.inj h
    simp
  | cons s rest ih =>
    obtain ⟨t, ht, hrest⟩ := Option.bind_eq_some_iff.1 h
    split at hrest
    · rename_i heq
      obtain rfl := Option.some.inj hrest
      refine iff_of_true rfl ⟨s, List.mem_cons_self, ?_⟩
      rw [ht, beq_iff_eq.1 heq]
    · rename_i hne
      have hother : ¬ t = type := mt beq_iff_eq.2 hne
      simp [ih hrest, ht, hother]

/-- A search ends with an answer unless it comes to a step that has no type. -/
theorem isSome_search {steps : List Step} (htyped : ∀ s ∈ steps, s.type?.isSome = true)
    (type : String) : (hasType?.search type steps).isSome = true := by
  induction steps with
  | nil => rfl
  | cons s rest ih =>
    obtain ⟨t, ht⟩ := Option.isSome_iff_exists.1 (htyped s List.mem_cons_self)
    have hrest := ih fun u hu => htyped u (List.mem_cons_of_mem s hu)
    simp only [hasType?.search, ht, Option.bind_eq_bind, Option.bind_some]
    split
    · rfl
    · exact hrest

/-- Steps have all their types listed exactly if each has one. -/
theorem mapM_type?_iff {steps : List Step} :
    steps.mapM type? = some types ↔
      (∀ s ∈ steps, s.type?.isSome = true) ∧ steps.filterMap type? = types := by
  induction steps generalizing types with
  | nil => simp
  | cons s rest ih =>
    cases ht : s.type? with
    | none => simp [ht]
    | some t => simp [ht, Option.bind_eq_some_iff, ih]

/-- The walk over a step tree ends, after one turn for each step and one for each sequence of steps.
It gives what a recursion in document order gives: the step of each place where one stands, and no
place twice. So the count of a tree is made up of those of its parts; a type is found exactly if a
step of it stands at some depth, and the used types are those of all steps, each once, in the order
in which they first come. Only a step without a type can leave either question without an answer. -/
theorem walk_in_order (steps : List Step) :
    (∀ n given, Walks n [steps] given ↔
      n = count steps + ((all steps).flatMap children).length + 1 ∧ given = all steps) ∧
    all steps = preorderList steps ∧
    (placed steps).map Prod.snd = all steps ∧
    ((placed steps).map Prod.fst).Nodup ∧
    (∀ place s, (place, s) ∈ placed steps ↔ StandsAt steps place s) ∧
    (∀ s, count (s :: steps) = 1 + (s.children.map count).foldr (· + ·) 0 + count steps) ∧
    (∀ others, count (steps ++ others) = count steps + count others) ∧
    (∀ type found, hasType? type steps = some found → (found = true ↔ HasStep type steps)) ∧
    (∀ used, usedTypes? steps = some used →
      (∀ type, type ∈ used ↔ HasStep type steps) ∧
      FirstSeen ((all steps).filterMap type?) used) ∧
    (Typed steps →
      (∀ type, (hasType? type steps).isSome = true) ∧ (usedTypes? steps).isSome = true) := by
  refine ⟨fun n given => turns_singleton steps ▸ walks_iff, all_eq_preorderList steps,
    steps_placed steps, nodup_placed steps, fun place s => mem_placed_iff,
    fun s => count_cons s steps, count_append steps, ?_, ?_, ?_⟩
  · intro type found hfound
    rw [hasStep_iff]
    exact search_iff hfound
  · intro used hused
    obtain ⟨types, htypes, rfl⟩ := Option.map_eq_some_iff.1 hused
    obtain ⟨-, rfl⟩ := mapM_type?_iff.1 htypes
    have hseen := firstSeen_distinct ((all steps).filterMap type?)
    refine ⟨?_, hseen⟩
    intro type
    rw [hseen.mem_iff, List.mem_filterMap, hasStep_iff]
  · intro htyped
    have htypes : types? steps = some _ := mapM_type?_iff.2 ⟨htyped.of_mem, rfl⟩
    refine ⟨isSome_search htyped.of_mem, ?_⟩
    rw [usedTypes?, htypes]
    rfl

/-- A branch with steps in one case and in its else, and no steps in the other case. -/
def leadRouter : List Step :=
  let c : Condition := ⟨"score", .gt, .int 80⟩
  [.trigger "/leads" false,
    .branch [⟨c, [.slack "#hot" "hot", .action "enrich" .absent]⟩, ⟨c, []⟩]
      (.given [.slack "#warm" "warm"]),
    .request .get "https://api.github.com" .absent .absent]

def leadTypes : List String := ["trigger.http", "branch", "action.slack.postMessage",
  "custom.action", "action.slack.postMessage", "action.http.request"]

/-- Ten turns go through six steps and four sequences, one of them empty; an action is found in a
case of the branch, and the type of the two messages is listed once. -/
theorem walk_in_order_lead_router : Typed leadRouter ∧
    Walks 10 [leadRouter] (preorderList leadRouter) ∧
    hasType? "custom.action" leadRouter = some true ∧ hasType? "filter" leadRouter = some false ∧
    ∃ used, usedTypes? leadRouter = some used ∧ FirstSeen leadTypes used := by
  obtain ⟨hwalks, hall, -, -, -, -, -, hfinds, hlists, hanswers⟩ := walk_in_order leadRouter
  have hlisted : (all leadRouter).filterMap type? = leadTypes := by
    rw [hall]
    decide
  have htyped : Typed leadRouter := by
    intro place s h
    have hmem := mem_all_iff.2 ⟨place, h⟩
    rw [hall] at hmem
    have hevery : ∀ s ∈ preorderList leadRouter, s.type?.isSome = true := by decide
    exact hevery s hmem
  obtain ⟨hfound, hused⟩ := hanswers htyped
  obtain ⟨action, haction⟩ := Option.isSome_iff_exists.1 (hfound "custom.action")
  obtain ⟨filter, hfilter⟩ := Option.isSome_iff_exists.1 (hfound "filter")
  obtain ⟨used, hused⟩ := Option.isSome_iff_exists.1 hused
  refine ⟨htyped, (hwalks _ _).2 ⟨?_, hall.symm⟩, ?_, ?_, used, hused,
    hlisted ▸ (hlists used hused).2⟩
  · rw [count, hall]
    rfl
  · have hstep : HasStep "custom.action" leadRouter :=
      ⟨_, _, .inCase (i := 1) (j := 0) rfl rfl (.here (i := 1) rfl), rfl⟩
    rw [haction, (hfinds _ _ haction).2 hstep]
  · have hnone : ¬ HasStep "filter" leadRouter := by
      rw [hasStep_iff, ← List.mem_filterMap, hlisted]
      decide
    rw [hfilter, Bool.eq_false_iff.2 (mt (hfinds _ _ hfilter).1 hnone)]

end Flowplan.Step
