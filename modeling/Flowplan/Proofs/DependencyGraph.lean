import Flowplan.Layout.Graph
import Flowplan.Proofs.TableLaws
import Mathlib.Data.List.Nodup
import Mathlib.Logic.Relation

namespace Flowplan.Layout.Dependencies
set_option autoImplicit true

open Relation

/-- The first id depends on the second. -/
def On (g : Dependencies) (a b : String) : Prop := b ∈ g.sources a

instance (g : Dependencies) (a b : String) : Decidable (g.On a b) :=
  inferInstanceAs (Decidable (b ∈ g.sources a))

/-- Following dependencies from an id leads into a cycle. -/
def Cyclic (g : Dependencies) (a : String) : Prop :=
  ∃ b, ReflTransGen g.On a b ∧ TransGen g.On b b

theorem sources_set (g : Dependencies) (target a : String) (found : List String) :
    sources (Table.set g target found) a = if a = target then found else g.sources a := by
  rw [sources, sources, Table.get?_set]
  split <;> rfl

/-- No node depends on anything before there are connections. -/
theorem sources_ofNodes (nodes : List Node) (a : String) : (ofNodes nodes).sources a = [] := by
  have hempty : ∀ (g : Dependencies) (ns : List Node), g.sources a = [] →
      sources (Table.merge g (ns.map fun n => (n.id, []))) a = [] := by
    intro g ns hg
    induction ns generalizing g with
    | nil => exact hg
    | cons n rest ih =>
      apply ih
      rw [sources_set]
      split
      · rfl
      · exact hg
  exact hempty [] nodes rfl

/-- A target that is new comes to the graph without sources. -/
theorem sources_ensure (g : Dependencies) (target a : String) :
    sources (if Table.has g target then g else Table.set g target []) a = g.sources a := by
  split
  · rfl
  · rename_i hnew
    rw [sources_set]
    split
    · rename_i ha
      have hnone : Table.get? g target = none := by simpa [Table.has] using hnew
      rw [sources, ha, hnone, Option.getD_none]
    · rfl

theorem add_eq (g : Dependencies) (source target : String) : g.add source target =
    if (g.sources target).contains source then g
    else Table.set g target (g.sources target ++ [source]) := rfl

theorem mem_sources_add {g : Dependencies} :
    b ∈ (g.add source target).sources a ↔ b ∈ g.sources a ∨ b = source ∧ a = target := by
  rw [add_eq]
  split
  · rename_i hknown
    constructor
    · exact .inl
    · rintro (hb | ⟨rfl, rfl⟩)
      · exact hb
      · exact List.contains_iff_mem.1 hknown
  · rw [sources_set]
    split
    · rename_i ha
      subst ha
      rw [List.mem_append, List.mem_singleton, and_iff_left rfl]
    · rename_i ha
      rw [or_iff_left fun h => ha h.2]

theorem nodup_sources_add {g : Dependencies} (h : ∀ a, (g.sources a).Nodup)
    (source target a : String) : ((g.add source target).sources a).Nodup := by
  rw [add_eq]
  split
  · exact h a
  · rename_i hnew
    rw [sources_set]
    split
    · apply List.nodup_append.2
      refine ⟨h target, List.nodup_singleton source, ?_⟩
      intro b hb c hc hbc
      rw [List.mem_singleton.1 hc] at hbc
      exact hnew (List.contains_iff_mem.2 (hbc ▸ hb))
    · exact h a

theorem mem_sources_addTargets {g : Dependencies} {targets : List String} :
    b ∈ (g.addTargets source targets).sources a ↔ b ∈ g.sources a ∨ b = source ∧ a ∈ targets := by
  induction targets generalizing g with
  | nil => simp [addTargets]
  | cons t rest ih =>
    have hstep : g.addTargets source (t :: rest) =
        ((if Table.has g t then g else Table.set g t []).add source t).addTargets source rest := rfl
    rw [hstep, ih, mem_sources_add, sources_ensure, List.mem_cons, or_assoc, ← and_or_left]

theorem nodup_sources_addTargets {g : Dependencies} (h : ∀ a, (g.sources a).Nodup)
    (source : String) (targets : List String) (a : String) :
    ((g.addTargets source targets).sources a).Nodup := by
  induction targets generalizing g with
  | nil => exact h a
  | cons t rest ih =>
    apply ih
    apply nodup_sources_add
    intro c
    rw [sources_ensure]
    exact h c

/-- The dependencies with what some edges add to them. -/
def addEdges (g : Dependencies) (found : List (String × List String)) : Dependencies :=
  found.foldl (fun g (source, targets) => g.addTargets source targets) g

theorem mem_sources_addEdges {g : Dependencies} {found : List (String × List String)} :
    b ∈ (g.addEdges found).sources a ↔
      b ∈ g.sources a ∨ ∃ targets, (b, targets) ∈ found ∧ a ∈ targets := by
  induction found generalizing g with
  | nil => simp [addEdges]
  | cons e rest ih =>
    obtain ⟨source, targets⟩ := e
    have hstep : g.addEdges ((source, targets) :: rest) =
        (g.addTargets source targets).addEdges rest := rfl
    rw [hstep, ih, mem_sources_addTargets, or_assoc]
    apply or_congr_right
    constructor
    · rintro (⟨rfl, ha⟩ | ⟨ts, hts, ha⟩)
      · exact ⟨targets, List.mem_cons_self, ha⟩
      · exact ⟨ts, List.mem_cons_of_mem _ hts, ha⟩
    · rintro ⟨ts, hts, ha⟩
      rcases List.mem_cons.1 hts with he | hts
      · obtain ⟨rfl, rfl⟩ := Prod.mk.inj he
        exact .inl ⟨rfl, ha⟩
      · exact .inr ⟨ts, hts, ha⟩

theorem nodup_sources_addEdges {g : Dependencies} (h : ∀ a, (g.sources a).Nodup)
    (found : List (String × List String)) (a : String) : ((g.addEdges found).sources a).Nodup := by
  induction found generalizing g with
  | nil => exact h a
  | cons e rest ih => exact ih fun c => nodup_sources_addTargets h e.1 e.2 c

theorem ofWiring_of_edges (nodes : List Node) {w : Wiring} (h : edges w = .ok found) :
    ofWiring nodes w = .ok ((ofNodes nodes).addEdges found) := by
  rw [ofWiring, h]
  rfl

/-- An id depends on the sources of the connections that lead to it. -/
theorem on_ofNodes_addEdges {nodes : List Node} {found : List (String × List String)} :
    ((ofNodes nodes).addEdges found).On a b ↔ ∃ targets, (b, targets) ∈ found ∧ a ∈ targets := by
  rw [On, mem_sources_addEdges, sources_ofNodes, or_iff_right List.not_mem_nil]

theorem nodup_sources_ofNodes_addEdges (nodes : List Node) (found : List (String × List String))
    (a : String) : (((ofNodes nodes).addEdges found).sources a).Nodup := by
  apply nodup_sources_addEdges
  intro c
  rw [sources_ofNodes]
  exact List.nodup_nil

/-- Where an id depends on one other only, that is all of its sources. -/
theorem sources_eq_singleton {g : Dependencies} (hnodup : (g.sources a).Nodup)
    (h : ∀ c, g.On a c ↔ c = b) : g.sources a = [b] := by
  apply List.perm_singleton.1
  rw [List.perm_ext_iff_of_nodup hnodup (List.nodup_singleton b)]
  intro c
  rw [List.mem_singleton]
  exact h c

end Flowplan.Layout.Dependencies
