import Flowplan.Proofs.LevelSearch

/-!
The search for levels when it is left to itself, and the levels as they come to be, one id after the
other.
-/

namespace Flowplan.Layout
set_option autoImplicit true

open Relation Dependencies

/-- A fault that names a cycle. -/
def Fault.IsCycle : Fault → Prop
  | .cycle _ _ => True
  | .cycleAt _ => True
  | _ => False

namespace Levels

/-- How a search ends that goes on for as long as there are tasks. -/
inductive Search.Ends (g : Dependencies) : Search → Except Fault Search → Prop
  | done (h : s.tasks = []) : Ends g s (.ok s)
  | fails (h : s.tasks ≠ []) (failed : step g s = .error f) : Ends g s (.error f)
  | next (h : s.tasks ≠ []) (stepped : step g s = .ok s') (rest : Ends g s' r) : Ends g s r

/-- How the searches end that start one after the other from the ids of nodes; what has a level
already is not searched from. -/
inductive Walk (g : Dependencies) : Levels → List Node → Except Fault Levels → Prop
  | nil : Walk g levels [] (.ok levels)
  | known (h : Table.has levels n.id = true) (rest : Walk g levels nodes r) :
      Walk g levels (n :: nodes) r
  | fails (h : Table.has levels n.id = false)
      (search : Search.Ends g ⟨levels, [], [.enter n.id]⟩ (.error f)) :
      Walk g levels (n :: nodes) (.error f)
  | found (h : Table.has levels n.id = false)
      (search : Search.Ends g ⟨levels, [], [.enter n.id]⟩ (.ok s))
      (rest : Walk g s.levels nodes r) : Walk g levels (n :: nodes) r

/-- Levels that came to be one after the other: an id is given its level when all that it depends on
has one, and it is wanted. -/
inductive Grown (g : Dependencies) (wanted : String → Prop) : Levels → Prop
  | nil : Grown g wanted []
  | set (before : Grown g wanted levels) (new : Table.has levels a = false) (ha : wanted a)
      (below : ∀ b, g.On a b → Table.has levels b = true) :
      Grown g wanted (Table.set levels a (levelOf levels (g.sources a)))

section

variable {g : Dependencies} {levels levels' : Levels} {root : String} {wanted : String → Prop}

/-- A run with enough fuel is how the search ends. -/
theorem Search.Good.ends {s : Search} (h : s.Good g root) (hfuel : s.cost g ≤ fuel) :
    Search.Ends g s (Levels.run g fuel s) := by
  induction fuel generalizing s with
  | zero =>
    obtain ⟨f, hf, -⟩ | ⟨s', hs', -, htasks, -⟩ := h.run hfuel
    · simp [Levels.run] at hf
    · obtain rfl := Except.ok.inj hs'
      exact .done htasks
  | succ fuel ih =>
    cases htasks : s.tasks with
    | nil =>
      rw [Levels.run, htasks]
      exact .done htasks
    | cons t rest =>
      have hrun : Levels.run g (fuel + 1) s = Levels.step g s >>= Levels.run g fuel := by
        rw [Levels.run, htasks]
      have hne : s.tasks ≠ [] := htasks ▸ List.cons_ne_nil t rest
      rcases h.step hne with ⟨f, hf, -⟩ | ⟨s', hs', hgood, hcost, -⟩
      · rw [hrun, hf]
        exact .fails hne hf
      · rw [hrun, hs']
        exact .next hne hs' (ih hgood (by omega))

/-- Searching from node to node with enough fuel is the walk. -/
theorem walk_foldlM (h : Sound g levels) (nodes : List Node) :
    Walk g levels nodes (nodes.foldlM (fun levels n => addFrom g levels n.id) levels) := by
  induction nodes generalizing levels with
  | nil => exact .nil
  | cons n rest ih =>
    have hstart : Search.Good g n.id ⟨levels, [], [.enter n.id]⟩ := .start h
    have hends := hstart.ends (cost_start_le g levels n.id)
    have hcases := addFrom_cases h n.id
    rw [List.foldlM_cons]
    cases hn : Table.has levels n.id with
    | true =>
      rw [addFrom, if_pos hn]
      exact .known hn (ih h)
    | false =>
      rw [addFrom, if_neg (Bool.eq_false_iff.1 hn)] at hcases ⊢
      cases hrun : Levels.run g (taskBound g) ⟨levels, [], [.enter n.id]⟩ with
      | error f =>
        rw [hrun] at hends
        exact .fails hn hends
      | ok s =>
        rw [hrun] at hends hcases
        obtain ⟨f, hf, -⟩ | ⟨levels', hl, hsound, -⟩ := hcases
        · simp [bind, Except.bind, pure, Except.pure] at hf
        · obtain rfl := Except.ok.inj hl
          exact .found hn hends (ih hsound)

theorem Grown.sound (h : Grown g wanted levels) : Sound g levels := by
  induction h with
  | nil => exact .nil
  | set _ new _ below ih => exact ih.set new below

/-- An id that is left is new, can be reached, and all that it depends on has a level. -/
theorem Search.Good.left {path : List String} {tasks : List Task}
    (h : Search.Good g root ⟨levels, path, .leave p :: tasks⟩) :
    Table.has levels p = false ∧ ReflTransGen g.On root p ∧
      ∀ b, g.On p b → Table.has levels b = true := by
  obtain ⟨-, stack, ⟨hall, -⟩, fresh, -⟩ := h
  cases stack with
  | leave below hp =>
    refine ⟨fresh p List.mem_cons_self, (below.leads hp).1, ?_⟩
    intro b hb
    exact (hall b hb).resolve_right List.not_mem_nil

theorem levels_of_enter {path : List String} {tasks : List Task} {s : Search}
    (h : step g ⟨levels, path, .enter a :: tasks⟩ = .ok s) : s.levels = levels := by
  rw [step_enter] at h
  split at h
  · obtain rfl := Except.ok.inj h
    rfl
  · split at h
    · simp at h
    · obtain ⟨found, -, rfl⟩ := map_eq_ok.1 h
      rfl

theorem Search.Good.grown_step {s s' : Search} (h : s.Good g root)
    (hwanted : ∀ a, ReflTransGen g.On root a → wanted a) (hg : Grown g wanted s.levels)
    (hs : Levels.step g s = .ok s') : Grown g wanted s'.levels := by
  obtain ⟨levels, path, tasks⟩ := s
  cases tasks with
  | nil =>
    obtain rfl := Except.ok.inj hs
    exact hg
  | cons t rest =>
    cases t with
    | enter a => exact (levels_of_enter hs).symm ▸ hg
    | leave p =>
      obtain ⟨hnew, hreach, hbelow⟩ := h.left
      obtain rfl := Except.ok.inj hs
      exact hg.set hnew (hwanted p hreach) hbelow

theorem Search.Ends.grown {s s' : Search} (h : Search.Ends g s (.ok s')) (hgood : s.Good g root)
    (hwanted : ∀ a, ReflTransGen g.On root a → wanted a) (hg : Grown g wanted s.levels) :
    Grown g wanted s'.levels := by
  generalize hr : Except.ok s' = r at h
  induction h with
  | done _ =>
    obtain rfl := Except.ok.inj hr
    exact hg
  | fails _ _ => simp at hr
  | next hne hs _ ih =>
    rcases hgood.step hne with ⟨f, hf, -⟩ | ⟨s₁, hs₁, hgood₁, -⟩
    · simp [hs] at hf
    · obtain rfl := Except.ok.inj (hs.symm.trans hs₁)
      exact ih hgood₁ (hgood.grown_step hwanted hg hs) hr

/-- The levels that a walk finds grow from those it starts with. -/
theorem Walk.grown (h : Walk g levels nodes (.ok levels'))
    (hwanted : ∀ n ∈ nodes, ∀ a, ReflTransGen g.On n.id a → wanted a)
    (hg : Grown g wanted levels) : Grown g wanted levels' := by
  generalize hr : Except.ok levels' = r at h
  induction h with
  | nil =>
    obtain rfl := Except.ok.inj hr
    exact hg
  | known _ _ ih =>
    exact ih (fun n hn => hwanted n (List.mem_cons_of_mem _ hn)) hg hr
  | fails _ _ => simp at hr
  | found _ search _ ih =>
    apply ih (fun n hn => hwanted n (List.mem_cons_of_mem _ hn)) _ hr
    exact search.grown (.start hg.sound) (hwanted _ List.mem_cons_self) hg

theorem isCycle_of_enterSources {s : Search} {sources : List String}
    (h : enterSources s a sources tasks = .error f) : f.IsCycle := by
  induction sources generalizing tasks with
  | nil => simp [enterSources] at h
  | cons b rest ih =>
    rw [enterSources] at h
    split at h
    · obtain rfl := Except.error.inj h
      trivial
    · split at h
      · exact ih h
      · exact ih h

theorem isCycle_of_step {s : Search} (h : step g s = .error f) : f.IsCycle := by
  obtain ⟨levels, path, tasks⟩ := s
  cases tasks with
  | nil => simp [step] at h
  | cons t rest =>
    cases t with
    | leave p => simp [step_leave] at h
    | enter a =>
      rw [step_enter] at h
      split at h
      · simp at h
      · split at h
        · obtain rfl := Except.error.inj h
          trivial
        · rename_i hpath
          cases hb : enterSources ⟨levels, a :: path, rest⟩ a (g.sources a) (.leave a :: rest) with
          | ok found => simp [hb, Except.map] at h
          | error e =>
            rw [hb] at h
            obtain rfl := Except.error.inj h
            exact isCycle_of_enterSources hb

theorem Search.Ends.isCycle {s : Search} (h : Search.Ends g s (.error f)) : f.IsCycle := by
  generalize hr : Except.error f = r at h
  induction h with
  | done _ => simp at hr
  | fails _ failed =>
    obtain rfl := Except.error.inj hr
    exact isCycle_of_step failed
  | next _ _ _ ih => exact ih hr

/-- Nothing but a cycle stops a walk. -/
theorem Walk.isCycle (h : Walk g levels nodes (.error f)) : f.IsCycle := by
  generalize hr : Except.error f = r at h
  induction h with
  | nil => simp at hr
  | known _ _ ih => exact ih hr
  | fails _ search =>
    obtain rfl := Except.error.inj hr
    exact search.isCycle
  | found _ _ _ ih => exact ih hr

end

end Levels
end Flowplan.Layout
