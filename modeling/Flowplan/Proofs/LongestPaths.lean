import Flowplan.Proofs.LayoutFallback
import Flowplan.Proofs.LevelGrowth
import Mathlib.Order.Bounds.Defs

/-!
Levels as lengths of dependency paths. Main statement: levels are found unless some node leads into a
cycle, and the level of an id is the length of the longest path of dependencies from it.
-/

namespace Flowplan.Layout
set_option autoImplicit true

open Relation Dependencies

/-- So many dependencies follow one another from an id on. -/
inductive Dependencies.Path (g : Dependencies) : String → Nat → Prop
  | here : Path g a 0
  | on (first : g.On a b) (rest : Path g b k) : Path g a (k + 1)

namespace Levels

variable {g : Dependencies} {levels : Levels} {wanted : String → Prop}

theorem foldl_max_cases (ks : List Nat) (start : Nat) :
    ks.foldl max start = start ∨ ks.foldl max start ∈ ks := by
  induction ks generalizing start with
  | nil => exact .inl rfl
  | cons k rest ih =>
    rw [List.foldl_cons]
    rcases ih (max start k) with h | h
    · rw [h]
      rcases Nat.le_total start k with hle | hle
      · rw [Nat.max_eq_right hle]
        exact .inr List.mem_cons_self
      · exact .inl (Nat.max_eq_left hle)
    · exact .inr (List.mem_cons_of_mem _ h)

/-- A level that is not the lowest is one above that of some source. -/
theorem exists_source_below {sources : List String} (levels : Levels) (h : sources ≠ []) :
    ∃ b ∈ sources, levelOf levels sources = (Table.get? levels b).getD 0 + 1 := by
  obtain ⟨s, rest, rfl⟩ := List.exists_cons_of_ne_nil h
  rw [levelOf_cons, Nat.add_comm]
  rcases foldl_max_cases ((s :: rest).map fun s => (Table.get? levels s).getD 0) 0 with hmax | hmax
  · -- All of the sources are on the lowest level then, the first one too.
    have hle := (le_foldl_max ((s :: rest).map fun s => (Table.get? levels s).getD 0) 0).2 _
      (List.mem_map_of_mem List.mem_cons_self)
    refine ⟨s, List.mem_cons_self, ?_⟩
    omega
  · obtain ⟨b, hb, hlevel⟩ := List.mem_map.1 hmax
    exact ⟨b, hb, congrArg (· + 1) hlevel.symm⟩

theorem levelOf_eq_zero_iff {sources : List String} :
    levelOf levels sources = 0 ↔ sources = [] := by
  constructor
  · intro h
    by_contra hne
    obtain ⟨b, -, hb⟩ := exists_source_below levels hne
    omega
  · rintro rfl
    rfl

/-- Some dependency of an id that has any is on the level right below. -/
theorem Sound.exists_below (h : Sound g levels) (ha : Table.get? levels a = some (l + 1)) :
    ∃ b, g.On a b ∧ Table.get? levels b = some l := by
  obtain ⟨hall, hl⟩ := h a _ ha
  have hne : g.sources a ≠ [] := by
    intro hnil
    rw [levelOf_eq_zero_iff.2 hnil] at hl
    omega
  obtain ⟨b, hb, hbelow⟩ := exists_source_below levels hne
  obtain ⟨k, hk⟩ := has_iff.1 (hall b hb)
  rw [hk, Option.getD_some] at hbelow
  refine ⟨b, hb, hk.trans ?_⟩
  congr 1
  omega

theorem Sound.path (h : Sound g levels) (ha : Table.get? levels a = some l) : g.Path a l := by
  induction l generalizing a with
  | zero => exact .here
  | succ l ih =>
    obtain ⟨b, hab, hb⟩ := h.exists_below ha
    exact .on hab (ih hb)

theorem Sound.path_le (h : Sound g levels) (hp : g.Path a k) (ha : Table.get? levels a = some l) :
    k ≤ l := by
  induction hp generalizing l with
  | here => exact Nat.zero_le l
  | on hab _ ih =>
    obtain ⟨j, hj, hlt⟩ := h.lt_of_on ha hab
    have := ih hj
    omega

/-- A level is the length of the longest path. -/
theorem Sound.isGreatest (h : Sound g levels) (ha : Table.get? levels a = some l) :
    IsGreatest {k | g.Path a k} l :=
  ⟨h.path ha, fun _ hp => h.path_le hp ha⟩

theorem Sound.eq_zero_iff (h : Sound g levels) (ha : Table.get? levels a = some l) :
    l = 0 ↔ g.sources a = [] := by
  obtain ⟨-, rfl⟩ := h a l ha
  exact levelOf_eq_zero_iff

theorem Sound.has_of_reaches (h : Sound g levels) (ha : Table.has levels a = true)
    (hab : ReflTransGen g.On a b) : Table.has levels b = true := by
  induction hab with
  | refl => exact ha
  | tail _ hon ih =>
    obtain ⟨l, hl⟩ := has_iff.1 ih
    exact (h _ l hl).1 _ hon

theorem keys_set_of_new (hnew : Table.has levels a = false) (l : Nat) :
    Table.keys (Table.set levels a l) = Table.keys levels ++ [a] := by
  have hkey : a ∉ Table.keys levels := fun h => by
    rw [Table.has_iff_mem_keys.2 h] at hnew
    exact Bool.noConfusion hnew
  rw [Table.keys_set, if_neg hkey]

theorem Grown.nodup (h : Grown g wanted levels) : (Table.keys levels).Nodup := by
  induction h with
  | nil => exact List.nodup_nil
  | set _ _ _ _ ih => exact Table.nodup_keys_set ih _ _

theorem Grown.wanted_of_mem (h : Grown g wanted levels) (ha : a ∈ Table.keys levels) : wanted a := by
  induction h with
  | nil => exact absurd ha List.not_mem_nil
  | set _ new hp _ ih =>
    rw [keys_set_of_new new, List.mem_append, List.mem_singleton] at ha
    rcases ha with ha | rfl
    · exact ih ha
    · exact hp

/-- By the time an id is given its level, all that it depends on has one. -/
theorem Grown.ordered {before after : List String} (h : Grown g wanted levels)
    (hkeys : Table.keys levels = before ++ a :: after) (hab : g.On a b) : b ∈ before := by
  induction h generalizing after with
  | nil => simp [Table.keys] at hkeys
  | set _ new _ below ih =>
    rw [keys_set_of_new new] at hkeys
    rcases List.eq_nil_or_concat after with rfl | ⟨after, last, rfl⟩
    · obtain ⟨rfl, hlast⟩ := List.append_inj' hkeys rfl
      obtain rfl := List.singleton_inj.1 hlast
      exact Table.has_iff_mem_keys.1 (below b hab)
    · rw [List.concat_eq_append, ← List.cons_append, ← List.append_assoc] at hkeys
      exact ih (List.append_inj' hkeys rfl).1

/-- The search for levels comes to an end. It fails, naming a cycle, exactly where some node leads
into one. Otherwise it has a level for each id that the nodes lead to and for nothing else, the
length of the longest path of dependencies from it, and it gives an id its level after all that the
id depends on. -/
theorem longest_paths (g : Dependencies) (nodes : List Node) :
    Walk g [] nodes (ofNodes g nodes) ∧
    (∀ f, ofNodes g nodes = .error f → f.IsCycle) ∧
    ((∃ f, ofNodes g nodes = .error f) ↔ ∃ n ∈ nodes, g.Cyclic n.id) ∧
    ∀ levels, ofNodes g nodes = .ok levels →
      (Table.keys levels).Nodup ∧
      (∀ a, a ∈ Table.keys levels ↔ ∃ n ∈ nodes, ReflTransGen g.On n.id a) ∧
      (∀ a l, Table.get? levels a = some l →
        IsGreatest {k | g.Path a k} l ∧ (l = 0 ↔ g.sources a = [])) ∧
      ∀ before a after, Table.keys levels = before ++ a :: after →
        ∀ b, g.On a b → b ∈ before := by
  have hwalk : Walk g [] nodes (ofNodes g nodes) := walk_foldlM Sound.nil nodes
  refine ⟨hwalk, fun f hf => (hf ▸ hwalk).isCycle, ?_, ?_⟩
  · rcases ofNodes_cases g nodes with ⟨f, hf, hcycle⟩ | ⟨levels, hl, -, -, hnone⟩
    · exact ⟨fun _ => hcycle, fun _ => ⟨f, hf⟩⟩
    · constructor
      · rintro ⟨f, hf⟩
        simp [hl] at hf
      · rintro ⟨n, hn, hcycle⟩
        exact absurd hcycle (hnone n hn)
  · intro levels hl
    have hgrown : Grown g (fun a => ∃ n ∈ nodes, ReflTransGen g.On n.id a) levels :=
      (hl ▸ hwalk).grown (fun n hn a hna => ⟨n, hn, hna⟩) .nil
    have hall : ∀ n ∈ nodes, Table.has levels n.id = true := by
      rcases ofNodes_cases g nodes with ⟨f, hf, -⟩ | ⟨found, hfound, -, hall, -⟩
      · simp [hl] at hf
      · obtain rfl := Except.ok.inj (hl.symm.trans hfound)
        exact hall
    refine ⟨hgrown.nodup, ?_, ?_, ?_⟩
    · intro a
      constructor
      · exact hgrown.wanted_of_mem
      · rintro ⟨n, hn, hna⟩
        exact Table.has_iff_mem_keys.1 (hgrown.sound.has_of_reaches (hall n hn) hna)
    · intro a l ha
      exact ⟨hgrown.sound.isGreatest ha, hgrown.sound.eq_zero_iff ha⟩
    · intro before a after hkeys b hab
      exact hgrown.ordered hkeys hab

/-- Two ways down to an id that is no node, one of them noted twice. -/
def diamond : Dependencies := [("d", ["b", "c", "b"]), ("c", ["a"]), ("b", ["a"])]

/-- From the top of a diamond all of it is given levels, the id at its foot only once. -/
theorem longest_paths_diamond : ∃ levels,
    ofNodes diamond [idle "d", idle "b"] = .ok levels ∧
    Table.keys levels = ["a", "b", "c", "d"] ∧ IsGreatest {k | diamond.Path "d" k} 2 := by
  obtain ⟨-, -, -, hlevels⟩ := longest_paths diamond [idle "d", idle "b"]
  have hok : ofNodes diamond [idle "d", idle "b"] =
      .ok [("a", 0), ("b", 1), ("c", 1), ("d", 2)] := by rfl
  obtain ⟨-, -, hlongest, -⟩ := hlevels _ hok
  exact ⟨_, hok, rfl, (hlongest "d" 2 rfl).1⟩

end Levels
end Flowplan.Layout
