import Flowplan.Layout.Levels
import Flowplan.Proofs.DependencyGraph
import Flowplan.Proofs.ExceptLaws

namespace Flowplan.Layout.Levels
set_option autoImplicit true

open Relation Dependencies

variable {g : Dependencies} {levels : Levels} {root : String}

/-- Every level follows from those of the dependencies, which have levels too. -/
def Sound (g : Dependencies) (levels : Levels) : Prop :=
  ∀ a l, Table.get? levels a = some l →
    (∀ b, g.On a b → Table.has levels b = true) ∧ l = levelOf levels (g.sources a)

theorem Sound.nil : Sound g [] := by
  intro a l h
  cases h

theorem has_iff : Table.has levels a = true ↔ ∃ l, Table.get? levels a = some l :=
  Option.isSome_iff_exists

theorem le_foldl_max (ks : List Nat) (start : Nat) :
    start ≤ ks.foldl max start ∧ ∀ k ∈ ks, k ≤ ks.foldl max start := by
  induction ks generalizing start with
  | nil => exact ⟨Nat.le_refl start, fun _ h => absurd h List.not_mem_nil⟩
  | cons k rest ih =>
    obtain ⟨hstart, hrest⟩ := ih (max start k)
    refine ⟨Nat.le_trans (Nat.le_max_left start k) hstart, ?_⟩
    intro j hj
    rcases List.mem_cons.1 hj with rfl | hj
    · exact Nat.le_trans (Nat.le_max_right start j) hstart
    · exact hrest j hj

theorem levelOf_cons (levels : Levels) (s : String) (rest : List String) :
    levelOf levels (s :: rest) =
      1 + ((s :: rest).map fun s => (Table.get? levels s).getD 0).foldl max 0 := rfl

theorem lt_levelOf {sources : List String} (hb : b ∈ sources) (h : Table.get? levels b = some k) :
    k < levelOf levels sources := by
  cases sources with
  | nil => exact absurd hb List.not_mem_nil
  | cons s rest =>
    have hmem : k ∈ (s :: rest).map fun s => (Table.get? levels s).getD 0 :=
      List.mem_map.2 ⟨b, hb, by rw [h, Option.getD_some]⟩
    have hle := (le_foldl_max _ 0).2 k hmem
    rw [levelOf_cons]
    omega

/-- Levels fall along dependencies. -/
theorem Sound.lt_of_on (h : Sound g levels) (ha : Table.get? levels a = some l) (hon : g.On a b) :
    ∃ k, Table.get? levels b = some k ∧ k < l := by
  obtain ⟨hall, rfl⟩ := h a l ha
  obtain ⟨k, hk⟩ := has_iff.1 (hall b hon)
  exact ⟨k, hk, lt_levelOf hon hk⟩

theorem Sound.lt_of_transGen (h : Sound g levels) (ha : Table.get? levels a = some l)
    (hab : TransGen g.On a b) : ∃ k, Table.get? levels b = some k ∧ k < l := by
  induction hab with
  | single hon => exact h.lt_of_on ha hon
  | tail _ hon ih =>
    obtain ⟨k, hk, hkl⟩ := ih
    obtain ⟨j, hj, hjk⟩ := h.lt_of_on hk hon
    exact ⟨j, hj, Nat.lt_trans hjk hkl⟩

/-- What has a level leads into no cycle. -/
theorem Sound.not_cyclic (h : Sound g levels) (ha : Table.has levels a = true) : ¬ g.Cyclic a := by
  rintro ⟨b, hab, hbb⟩
  obtain ⟨l, hl⟩ := has_iff.1 ha
  obtain ⟨k, hk⟩ : ∃ k, Table.get? levels b = some k := by
    rcases reflTransGen_iff_eq_or_transGen.1 hab with rfl | hab
    · exact ⟨l, hl⟩
    · obtain ⟨k, hk, -⟩ := h.lt_of_transGen hl hab
      exact ⟨k, hk⟩
  obtain ⟨j, hj, hjk⟩ := h.lt_of_transGen hk hbb
  rw [hk] at hj
  obtain rfl := Option.some.inj hj
  exact Nat.lt_irrefl _ hjk

theorem levelOf_congr {levels' : Levels} {sources : List String}
    (h : ∀ b ∈ sources, Table.get? levels' b = Table.get? levels b) :
    levelOf levels' sources = levelOf levels sources := by
  cases sources with
  | nil => rfl
  | cons s rest =>
    have hmap : (s :: rest).map (fun s => (Table.get? levels' s).getD 0) =
        (s :: rest).map fun s => (Table.get? levels s).getD 0 := by
      apply List.map_congr_left
      intro b hb
      rw [h b hb]
    rw [levelOf_cons, levelOf_cons, hmap]

theorem has_set (levels : Levels) (a b : String) (l : Nat) :
    Table.has (Table.set levels a l) b = true ↔ b = a ∨ Table.has levels b = true := by
  rw [Table.has, Table.get?_set]
  split
  · simp [*]
  · simp [*, Table.has]

/-- An id whose dependencies all have levels gets its own. -/
theorem Sound.set (h : Sound g levels) (hnew : Table.has levels a = false)
    (hall : ∀ b, g.On a b → Table.has levels b = true) :
    Sound g (Table.set levels a (levelOf levels (g.sources a))) := by
  have hkeep : ∀ b, Table.has levels b = true →
      Table.get? (Table.set levels a (levelOf levels (g.sources a))) b = Table.get? levels b := by
    intro b hb
    rw [Table.get?_set, if_neg]
    rintro rfl
    rw [hnew] at hb
    exact Bool.noConfusion hb
  intro c l hc
  rw [Table.get?_set] at hc
  split at hc
  · rename_i hca
    obtain rfl := Option.some.inj hc
    subst hca
    refine ⟨fun b hb => (has_set ..).2 (.inr (hall b hb)), ?_⟩
    exact (levelOf_congr fun b hb => hkeep b (hall b hb)).symm
  · obtain ⟨hbelow, rfl⟩ := h c l hc
    refine ⟨fun b hb => (has_set ..).2 (.inr (hbelow b hb)), ?_⟩
    exact (levelOf_congr fun b hb => hkeep b (hbelow b hb)).symm

/-- What the task on top of a path is for: the end of the path depends on it, or it is where the
search starts. -/
def Wanted (g : Dependencies) (root : String) (path : List String) (a : String) : Prop :=
  match path with
  | [] => a = root
  | p :: _ => g.On p a

/-- The tasks of a search: those to leave the ids on the path, in its order, and above each of them
those to enter what it depends on. -/
inductive Stack (g : Dependencies) (root : String) : List String → List Task → Prop
  | nil : Stack g root [] []
  | enter (below : Stack g root path tasks) (wanted : Wanted g root path a) :
      Stack g root path (.enter a :: tasks)
  | leave (below : Stack g root path tasks) (wanted : Wanted g root path p) :
      Stack g root (p :: path) (.leave p :: tasks)

/-- A path leads from the start of the search to what is wanted at its end. -/
theorem Stack.leads {path : List String} (h : Stack g root path tasks)
    (ha : Wanted g root path a) :
    ReflTransGen g.On root a ∧ ∀ p ∈ path, TransGen g.On p a := by
  induction h generalizing a with
  | nil =>
    obtain rfl := ha
    exact ⟨.refl, fun _ hp => absurd hp List.not_mem_nil⟩
  | enter _ _ ih => exact ih ha
  | leave _ wanted ih =>
    obtain ⟨hroot, hpath⟩ := ih wanted
    refine ⟨hroot.tail ha, ?_⟩
    intro q hq
    rcases List.mem_cons.1 hq with rfl | hq
    · exact .single ha
    · exact (hpath q hq).tail ha

/-- What is wanted and already on the path closes a cycle. -/
theorem Stack.cyclic {path : List String} (h : Stack g root path tasks)
    (ha : Wanted g root path a) (hmem : a ∈ path) : g.Cyclic root := by
  obtain ⟨hroot, hpath⟩ := h.leads ha
  exact ⟨a, hroot, hpath a hmem⟩

/-- By the time an id is left, all that it depends on has a level or was done above it, and in the
end the start has. -/
def Ready (g : Dependencies) (root : String) (levels : Levels) (above : List String) :
    List Task → Prop
  | [] => Table.has levels root = true ∨ root ∈ above
  | .enter a :: tasks => Ready g root levels (a :: above) tasks
  | .leave p :: tasks => (∀ b, g.On p b → Table.has levels b = true ∨ b ∈ above) ∧
      Ready g root levels (p :: above) tasks

theorem Ready.mono {above above' : List String} {levels' : Levels}
    (h : ∀ b, Table.has levels b = true ∨ b ∈ above → Table.has levels' b = true ∨ b ∈ above')
    (hr : Ready g root levels above tasks) : Ready g root levels' above' tasks := by
  have hcons : ∀ a b, Table.has levels b = true ∨ b ∈ a :: above →
      Table.has levels' b = true ∨ b ∈ a :: above' := by
    intro a b hb
    rw [List.mem_cons, or_left_comm] at hb ⊢
    exact hb.imp_right (h b)
  induction tasks generalizing above above' with
  | nil => exact h root hr
  | cons t rest ih =>
    cases t with
    | enter a =>
      apply ih (hcons a) hr
      intro c b hb
      rw [List.mem_cons, or_left_comm] at hb ⊢
      exact hb.imp_right (hcons a b)
    | leave p =>
      refine ⟨fun b hb => h b (hr.1 b hb), ih (hcons p) hr.2 ?_⟩
      intro c b hb
      rw [List.mem_cons, or_left_comm] at hb ⊢
      exact hb.imp_right (hcons p b)

/-- What holds of a search at every step. -/
structure Search.Good (g : Dependencies) (root : String) (s : Search) : Prop where
  sound : Sound g s.levels
  stack : Stack g root s.path s.tasks
  ready : Ready g root s.levels [] s.tasks
  fresh : ∀ p ∈ s.path, Table.has s.levels p = false
  nodup : s.path.Nodup

theorem Search.Good.start (h : Sound g levels) : Search.Good g root ⟨levels, [], [.enter root]⟩ where
  sound := h
  stack := .enter .nil rfl
  ready := .inr (List.mem_singleton_self root)
  fresh := fun _ hp => absurd hp List.not_mem_nil
  nodup := List.nodup_nil

/-- The sources that are still to be entered go on top of the tasks; where one of them is on the
path there is a cycle. -/
theorem enterSources_cases (s : Search) (a : String) (sources : List String)
    (tasks : List Task) :
    (∃ b ∈ sources, b ∈ s.path ∧ ∃ f, enterSources s a sources tasks = .error f) ∨
      enterSources s a sources tasks =
        .ok ((sources.filter fun b => !Table.has s.levels b).reverse.map Task.enter ++ tasks) := by
  induction sources generalizing tasks with
  | nil => exact .inr rfl
  | cons b rest ih =>
    rw [enterSources]
    by_cases hpath : b ∈ s.path
    · rw [if_pos (List.contains_iff_mem.2 hpath)]
      exact .inl ⟨b, List.mem_cons_self, hpath, _, rfl⟩
    · rw [if_neg (mt List.contains_iff_mem.1 hpath)]
      by_cases hknown : Table.has s.levels b = true
      · rw [if_pos hknown, List.filter_cons_of_neg (by simp [hknown])]
        rcases ih tasks with ⟨c, hc, hcycle⟩ | h
        · exact .inl ⟨c, List.mem_cons_of_mem _ hc, hcycle⟩
        · exact .inr h
      · rw [if_neg hknown, List.filter_cons_of_pos (by simpa using hknown)]
        rcases ih (.enter b :: tasks) with ⟨c, hc, hcycle⟩ | h
        · exact .inl ⟨c, List.mem_cons_of_mem _ hc, hcycle⟩
        · rw [h]
          simp

theorem Stack.enterAll {path : List String} {bs : List String} (h : Stack g root path tasks)
    (hall : ∀ b ∈ bs, Wanted g root path b) : Stack g root path (bs.map Task.enter ++ tasks) := by
  induction bs with
  | nil => exact h
  | cons b rest ih =>
    obtain ⟨hb, hrest⟩ := List.forall_mem_cons.1 hall
    exact .enter (ih hrest) hb

theorem ready_enterAll {above bs : List String} :
    Ready g root levels above (bs.map Task.enter ++ tasks) ↔
      Ready g root levels (bs.reverse ++ above) tasks := by
  induction bs generalizing above with
  | nil => rfl
  | cons b rest ih =>
    rw [List.reverse_cons, List.append_assoc]
    exact ih

/-- Dependencies that may still have to be followed: those of the ids that were not seen. -/
def remaining (g : Dependencies) (seen : String → Bool) : Nat :=
  g.foldr (fun (a, sources) n => if seen a then n else sources.length + n) 0

theorem remaining_le {seen seen' : String → Bool}
    (h : ∀ a, seen a = true → seen' a = true) : remaining g seen' ≤ remaining g seen := by
  induction g with
  | nil => exact Nat.le_refl 0
  | cons e rest ih =>
    obtain ⟨a, sources⟩ := e
    change (if seen' a then remaining rest seen' else sources.length + remaining rest seen') ≤
      if seen a then remaining rest seen else sources.length + remaining rest seen
    cases hs : seen a with
    | true => simpa [h a hs] using ih
    | false =>
      cases seen' a with
      | true => simp only [if_true, Bool.false_eq_true, if_false]; omega
      | false => simp only [Bool.false_eq_true, if_false]; omega

/-- The dependencies of an id that is seen for the first time are no longer to be followed. -/
theorem remaining_add_length_le {seen seen' : String → Bool}
    (h : ∀ a, seen a = true → seen' a = true) (hnew : seen a = false) (hseen : seen' a = true) :
    remaining g seen' + (g.sources a).length ≤ remaining g seen := by
  induction g with
  | nil => exact Nat.le_refl 0
  | cons e rest ih =>
    obtain ⟨b, sources⟩ := e
    change (if seen' b then remaining rest seen' else sources.length + remaining rest seen') +
        ((if b = a then some sources else Table.get? rest a).getD []).length ≤
      if seen b then remaining rest seen else sources.length + remaining rest seen
    by_cases hb : b = a
    · subst hb
      have hrest := remaining_le (g := rest) h
      simp only [hnew, hseen, if_true, Bool.false_eq_true, if_false, Option.getD_some]
      omega
    · have hrest : remaining rest seen' + ((Table.get? rest a).getD []).length ≤
          remaining rest seen := ih
      rw [if_neg hb]
      cases hs : seen b with
      | true => simpa [h b hs] using hrest
      | false =>
        cases seen' b with
        | true => simp only [if_true, Bool.false_eq_true, if_false]; omega
        | false => simp only [Bool.false_eq_true, if_false]; omega

/-- An id is entered and left again, or only left. -/
def Task.weight : Task → Nat
  | .enter _ => 2
  | .leave _ => 1

def Search.seen (s : Search) (a : String) : Bool := Table.has s.levels a || s.path.contains a

theorem Search.seen_iff {s : Search} :
    s.seen a = true ↔ Table.has s.levels a = true ∨ a ∈ s.path := by
  rw [seen, Bool.or_eq_true, List.contains_iff_mem]

def weights : List Task → Nat
  | [] => 0
  | task :: tasks => task.weight + weights tasks

/-- A bound for the steps that are left, which falls at every step. -/
def Search.cost (g : Dependencies) (s : Search) : Nat := weights s.tasks + 2 * remaining g s.seen

theorem weights_enter (bs : List String) (tasks : List Task) :
    weights (bs.map Task.enter ++ tasks) = 2 * bs.length + weights tasks := by
  induction bs with
  | nil => simp
  | cons b rest ih =>
    simp only [List.map_cons, List.cons_append, List.length_cons, weights, Task.weight, ih]
    omega

/-- What a step of a search comes to: a cycle, or a search that has less left to do. -/
def Advances (g : Dependencies) (root : String) (s : Search) (r : Except Fault Search) : Prop :=
  (∃ f, r = .error f ∧ g.Cyclic root) ∨
    ∃ s', r = .ok s' ∧ s'.Good g root ∧ s'.cost g < s.cost g ∧
      ∀ a, Table.has s.levels a = true → Table.has s'.levels a = true

section

variable {path : List String} {tasks : List Task}

theorem step_leave : step g ⟨levels, path, .leave p :: tasks⟩ =
    .ok ⟨Table.set levels p (levelOf levels (g.sources p)), path.erase p, tasks⟩ := rfl

theorem step_enter : step g ⟨levels, path, .enter a :: tasks⟩ =
    if Table.has levels a then .ok ⟨levels, path, tasks⟩
    else if path.contains a then .error (.cycleAt a)
    else (enterSources ⟨levels, a :: path, tasks⟩ a (g.sources a) (.leave a :: tasks)).map
      fun tasks => ⟨levels, a :: path, tasks⟩ := rfl

/-- Leaving an id gives it a level. -/
theorem Search.Good.leave (h : Search.Good g root ⟨levels, path, .leave p :: tasks⟩) :
    Advances g root ⟨levels, path, .leave p :: tasks⟩
      (step g ⟨levels, path, .leave p :: tasks⟩) := by
  obtain ⟨sound, stack, ⟨hall, hready⟩, fresh, nodup⟩ := h
  cases stack with
  | @leave rest _ _ below wanted =>
    have hlevels : ∀ b, g.On p b → Table.has levels b = true := by
      intro b hb
      exact (hall b hb).resolve_right List.not_mem_nil
    obtain ⟨hp, hfresh⟩ := List.forall_mem_cons.1 fresh
    obtain ⟨hnot, hnodup⟩ := List.nodup_cons.1 nodup
    have hstep : step g ⟨levels, p :: rest, .leave p :: tasks⟩ =
        .ok ⟨Table.set levels p (levelOf levels (g.sources p)), rest, tasks⟩ := by
      rw [step_leave, List.erase_cons_head]
    refine .inr ⟨_, hstep, ⟨sound.set hp hlevels, below, ?_, ?_, hnodup⟩, ?_, ?_⟩
    · apply hready.mono
      intro b hb
      rw [has_set]
      rcases hb with hb | hb
      · exact .inl (.inr hb)
      · exact .inl (.inl (List.mem_singleton.1 hb))
    · intro q hq
      apply Bool.eq_false_iff.2
      rw [Ne, has_set, not_or]
      refine ⟨?_, Bool.eq_false_iff.1 (hfresh q hq)⟩
      rintro rfl
      exact hnot hq
    · have hseen : remaining g
          (Search.seen ⟨Table.set levels p (levelOf levels (g.sources p)), rest, tasks⟩) ≤
          remaining g (Search.seen ⟨levels, p :: rest, .leave p :: tasks⟩) := by
        apply remaining_le
        intro a ha
        rw [Search.seen_iff, List.mem_cons, or_left_comm] at ha
        rw [Search.seen_iff, has_set, or_assoc]
        exact ha
      simp only [Search.cost, weights, Task.weight]
      omega
    · intro a ha
      exact (has_set ..).2 (.inr ha)

/-- Entering an id that has a level does nothing. -/
theorem Search.Good.enter_known (h : Search.Good g root ⟨levels, path, .enter a :: tasks⟩)
    (ha : Table.has levels a = true) : Advances g root ⟨levels, path, .enter a :: tasks⟩
      (step g ⟨levels, path, .enter a :: tasks⟩) := by
  obtain ⟨sound, stack, ready, fresh, nodup⟩ := h
  cases stack with
  | enter below wanted =>
    have hstep : step g ⟨levels, path, .enter a :: tasks⟩ = .ok ⟨levels, path, tasks⟩ := by
      rw [step_enter, if_pos ha]
    refine .inr ⟨_, hstep, ⟨sound, below, ?_, fresh, nodup⟩, ?_, fun _ => id⟩
    · have hkeep : ∀ b, Table.has levels b = true ∨ b ∈ [a] →
          Table.has levels b = true ∨ b ∈ [] := by
        intro b hb
        rcases hb with hb | hb
        · exact .inl hb
        · exact .inl (List.mem_singleton.1 hb ▸ ha)
      exact Ready.mono hkeep ready
    · simp only [Search.cost, weights, Task.weight]
      have hseen : Search.seen ⟨levels, path, tasks⟩ =
          Search.seen ⟨levels, path, .enter a :: tasks⟩ := rfl
      rw [hseen]
      omega

/-- Entering an id without a level puts it on the path, with what it depends on above it. -/
theorem Search.Good.enter_new (h : Search.Good g root ⟨levels, path, .enter a :: tasks⟩)
    (ha : Table.has levels a = false) : Advances g root ⟨levels, path, .enter a :: tasks⟩
      (step g ⟨levels, path, .enter a :: tasks⟩) := by
  obtain ⟨sound, stack, ready, fresh, nodup⟩ := h
  cases stack with
  | enter below wanted =>
    have hknown : ¬ Table.has levels a = true := Bool.eq_false_iff.1 ha
    by_cases hpath : a ∈ path
    · refine .inl ⟨.cycleAt a, ?_, below.cyclic wanted hpath⟩
      rw [step_enter, if_neg hknown, if_pos (List.contains_iff_mem.2 hpath)]
    have hleave : Stack g root (a :: path) (.leave a :: tasks) := .leave below wanted
    rw [step_enter, if_neg hknown, if_neg (mt List.contains_iff_mem.1 hpath)]
    rcases enterSources_cases ⟨levels, a :: path, tasks⟩ a (g.sources a) (.leave a :: tasks) with
      ⟨b, hb, hmem, f, hf⟩ | hok
    · refine .inl ⟨f, ?_, hleave.cyclic hb hmem⟩
      rw [hf]
      rfl
    · rw [hok]
      refine .inr ⟨_, rfl, ⟨sound, ?_, ?_, ?_, ?_⟩, ?_, fun _ => id⟩
      · apply hleave.enterAll
        intro b hb
        exact (List.mem_filter.1 (List.mem_reverse.1 hb)).1
      · rw [ready_enterAll, List.reverse_reverse, List.append_nil]
        constructor
        · intro b hb
          by_cases hlevel : Table.has levels b = true
          · exact .inl hlevel
          · exact .inr (List.mem_filter.2 ⟨hb, by rw [Bool.eq_false_iff.2 hlevel]; rfl⟩)
        · have hkeep : ∀ b, Table.has levels b = true ∨ b ∈ [a] → Table.has levels b = true ∨
              b ∈ a :: (g.sources a).filter fun b => !Table.has levels b := by
            intro b hb
            rcases hb with hb | hb
            · exact .inl hb
            · exact .inr (List.mem_singleton.1 hb ▸ List.mem_cons_self)
          exact Ready.mono hkeep ready
      · exact List.forall_mem_cons.2 ⟨ha, fresh⟩
      · exact List.nodup_cons.2 ⟨hpath, nodup⟩
      · have hmore : ∀ b, Search.seen ⟨levels, path, .enter a :: tasks⟩ b = true →
            Search.seen ⟨levels, a :: path, tasks⟩ b = true := by
          intro b hb
          rw [Search.seen_iff] at hb ⊢
          exact hb.imp_right (List.mem_cons_of_mem a)
        have hnew : Search.seen ⟨levels, path, .enter a :: tasks⟩ a = false := by
          apply Bool.eq_false_iff.2
          rw [Ne, Search.seen_iff, not_or]
          exact ⟨hknown, hpath⟩
        have hfewer : remaining g (Search.seen ⟨levels, a :: path, tasks⟩) +
            (g.sources a).length ≤ remaining g (Search.seen ⟨levels, path, .enter a :: tasks⟩) :=
          remaining_add_length_le hmore hnew (Search.seen_iff.2 (.inr List.mem_cons_self))
        have hlength := List.length_filter_le (fun b => !Table.has levels b) (g.sources a)
        have hsame : ∀ ts, Search.seen ⟨levels, a :: path, ts⟩ =
          Search.seen ⟨levels, a :: path, tasks⟩ := fun _ => rfl
        simp only [Search.cost, weights_enter, List.length_reverse, weights, Task.weight, hsame]
        omega

end

theorem Search.Good.step {s : Search} (h : s.Good g root) (htasks : s.tasks ≠ []) :
    Advances g root s (Levels.step g s) := by
  obtain ⟨levels, path, tasks⟩ := s
  cases tasks with
  | nil => exact absurd rfl htasks
  | cons t rest =>
    cases t with
    | leave p => exact h.leave
    | enter a =>
      cases ha : Table.has levels a with
      | true => exact h.enter_known ha
      | false => exact h.enter_new ha

/-- A run with enough fuel finds a cycle or does all tasks. -/
theorem Search.Good.run {s : Search} (h : s.Good g root) (hfuel : s.cost g ≤ fuel) :
    (∃ f, Levels.run g fuel s = .error f ∧ g.Cyclic root) ∨
      ∃ s', Levels.run g fuel s = .ok s' ∧ s'.Good g root ∧ s'.tasks = [] ∧
        ∀ a, Table.has s.levels a = true → Table.has s'.levels a = true := by
  induction fuel generalizing s with
  | zero =>
    -- Every task has a cost, so that none can be left.
    refine .inr ⟨s, rfl, h, ?_, fun _ => id⟩
    cases htasks : s.tasks with
    | nil => rfl
    | cons t rest =>
      have hweight : 0 < t.weight := by cases t <;> exact Nat.succ_pos _
      simp only [Search.cost, htasks, weights] at hfuel
      omega
  | succ fuel ih =>
    cases htasks : s.tasks with
    | nil => exact .inr ⟨s, by rw [Levels.run, htasks], h, htasks, fun _ => id⟩
    | cons t rest =>
      have hrun : Levels.run g (fuel + 1) s = Levels.step g s >>= Levels.run g fuel := by
        rw [Levels.run, htasks]
      have hne : s.tasks ≠ [] := htasks ▸ List.cons_ne_nil t rest
      rcases h.step hne with ⟨f, hf, hcycle⟩ | ⟨s₁, hs₁, hgood, hcost, hmore⟩
      · refine .inl ⟨f, ?_, hcycle⟩
        rw [hrun, hf]
        rfl
      · rw [hrun, hs₁]
        rcases ih hgood (by omega) with hf | ⟨s₂, hs₂, hgood₂, hdone, hmore₂⟩
        · exact .inl hf
        · exact .inr ⟨s₂, hs₂, hgood₂, hdone, fun a ha => hmore₂ a (hmore a ha)⟩

theorem cost_start_le (g : Dependencies) (levels : Levels) (a : String) :
    Search.cost g ⟨levels, [], [.enter a]⟩ ≤ taskBound g := by
  have hseen : remaining g (Search.seen ⟨levels, [], [.enter a]⟩) ≤
      remaining g fun _ => false := remaining_le fun _ h => Bool.noConfusion h
  have hbound : taskBound g = 2 * (1 + remaining g fun _ => false) + 1 := rfl
  rw [hbound, Search.cost]
  simp only [weights, Task.weight]
  omega

theorem addFrom_cases (h : Sound g levels) (a : String) :
    (∃ f, addFrom g levels a = .error f ∧ g.Cyclic a) ∨
      ∃ levels', addFrom g levels a = .ok levels' ∧ Sound g levels' ∧
        Table.has levels' a = true ∧
        ∀ b, Table.has levels b = true → Table.has levels' b = true := by
  rw [addFrom]
  split
  · rename_i ha
    exact .inr ⟨levels, rfl, h, ha, fun _ => id⟩
  · have hgood : Search.Good g a ⟨levels, [], [.enter a]⟩ := .start h
    rcases hgood.run (cost_start_le g levels a) with
      ⟨f, hf, hcycle⟩ | ⟨s, hs, hdone, htasks, hmore⟩
    · refine .inl ⟨f, ?_, hcycle⟩
      rw [hf]
      rfl
    · refine .inr ⟨s.levels, ?_, hdone.sound, ?_, hmore⟩
      · rw [hs]
        rfl
      · have hready := hdone.ready
        rw [htasks] at hready
        exact hready.resolve_right List.not_mem_nil

theorem foldlM_cases (h : Sound g levels) (nodes : List Node) :
    (∃ f, nodes.foldlM (fun levels n => addFrom g levels n.id) levels = .error f ∧
        ∃ n ∈ nodes, g.Cyclic n.id) ∨
      ∃ levels', nodes.foldlM (fun levels n => addFrom g levels n.id) levels = .ok levels' ∧
        Sound g levels' ∧ (∀ n ∈ nodes, Table.has levels' n.id = true) ∧
        ∀ b, Table.has levels b = true → Table.has levels' b = true := by
  induction nodes generalizing levels with
  | nil => exact .inr ⟨levels, rfl, h, fun _ hn => absurd hn List.not_mem_nil, fun _ => id⟩
  | cons n rest ih =>
    rw [List.foldlM_cons]
    rcases addFrom_cases h n.id with ⟨f, hf, hcycle⟩ | ⟨middle, hm, hsound, hn, hmore⟩
    · refine .inl ⟨f, ?_, n, List.mem_cons_self, hcycle⟩
      rw [hf]
      rfl
    · rw [hm]
      rcases ih hsound with ⟨f, hf, m, hm, hcycle⟩ | ⟨levels', hl, hsound', hall, hmore'⟩
      · exact .inl ⟨f, hf, m, List.mem_cons_of_mem _ hm, hcycle⟩
      · refine .inr ⟨levels', hl, hsound', ?_, fun b hb => hmore' b (hmore b hb)⟩
        exact List.forall_mem_cons.2 ⟨hmore' _ hn, hall⟩

/-- Levels are found for all nodes, each following from those of its dependencies, unless one of
the nodes leads into a cycle. -/
theorem ofNodes_cases (g : Dependencies) (nodes : List Node) :
    (∃ f, ofNodes g nodes = .error f ∧ ∃ n ∈ nodes, g.Cyclic n.id) ∨
      ∃ levels, ofNodes g nodes = .ok levels ∧ Sound g levels ∧
        (∀ n ∈ nodes, Table.has levels n.id = true) ∧ ∀ n ∈ nodes, ¬ g.Cyclic n.id := by
  rcases foldlM_cases (g := g) Sound.nil nodes with hf | ⟨levels, hl, hsound, hall, -⟩
  · exact .inl hf
  · exact .inr ⟨levels, hl, hsound, hall, fun n hn => hsound.not_cyclic (hall n hn)⟩

end Flowplan.Layout.Levels
