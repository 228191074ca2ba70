import Flowplan.Proofs.DependencyGraph
import Flowplan.Proofs.ExceptLaws

/-!
The dependencies of a graph are the connections that are listed, whatever form they come in.
-/

namespace Flowplan
set_option autoImplicit true

section

variable {α β : Type} {R : α → β → Prop} {xs : List α} {ys : List β}

theorem exists_right_of_forall₂ (h : List.Forall₂ R xs ys) (hx : x ∈ xs) : ∃ y ∈ ys, R x y := by
  induction h with
  | nil => exact absurd hx List.not_mem_nil
  | cons hxy _ ih =>
    rcases List.mem_cons.1 hx with rfl | hx
    · exact ⟨_, List.mem_cons_self, hxy⟩
    · obtain ⟨y, hy, hr⟩ := ih hx
      exact ⟨y, List.mem_cons_of_mem _ hy, hr⟩

theorem exists_left_of_forall₂ (h : List.Forall₂ R xs ys) (hy : y ∈ ys) : ∃ x ∈ xs, R x y := by
  obtain ⟨x, hx, hr⟩ := exists_right_of_forall₂ h.flip hy
  exact ⟨x, hx, hr⟩

end

namespace Layout

open Dependencies

/-- A connection leads from one id to another, below whatever outlet it is listed. -/
def Wiring.Lists (w : Wiring) (source target : String) : Prop :=
  match w with
  | .typed m => ∃ outlets, (source, outlets) ∈ m ∧ ∃ outlet cs, (outlet, cs) ∈ outlets ∧
      ∃ c ∈ cs, c.target = target
  | .untyped (.obj o) => ∃ outlets, (source, .obj outlets) ∈ o ∧
      ∃ outlet v, (outlet, v) ∈ outlets ∧ ∃ cs, v.parts? = some cs ∧
        ∃ c ∈ cs, targetOf c = .ok target
  | .untyped _ => False

/-- Connections that are listed as they should be: below each source an outlet's connections, each
with the id of a node as its target. -/
def Wiring.WellFormed : Wiring → Prop
  | .typed _ => True
  | .untyped v => ∃ o, v = .obj o ∧ ∀ source v, (source, v) ∈ o →
      ∃ outlets, v = .obj outlets ∧ ∀ outlet v, (outlet, v) ∈ outlets →
        ∃ cs, v.parts? = some cs ∧ ∀ c ∈ cs, ∃ target, targetOf c = .ok target

theorem exists_targetsOf :
    (∃ targets, targetsOf v = .ok targets) ↔
      ∃ cs, v.parts? = some cs ∧ ∀ c ∈ cs, ∃ target, targetOf c = .ok target := by
  rw [targetsOf]
  cases v.parts? with
  | none => simp
  | some cs =>
    constructor
    · rintro ⟨targets, h⟩
      refine ⟨cs, rfl, ?_⟩
      intro c hc
      obtain ⟨target, -, ht⟩ := exists_right_of_forall₂ (forall₂_of_mapM h) hc
      exact ⟨target, ht⟩
    · rintro ⟨found, hfound, htargets⟩
      obtain rfl := Option.some.inj hfound
      exact exists_mapM htargets

theorem wellFormed_iff_edges : w.WellFormed ↔ ∃ found, edges w = .ok found := by
  cases w with
  | typed m => exact ⟨fun _ => ⟨_, rfl⟩, fun _ => trivial⟩
  | untyped v =>
    constructor
    · rintro ⟨o, rfl, hall⟩
      apply exists_mapM
      rintro ⟨source, v⟩ hmem
      obtain ⟨outlets, rfl, houtlets⟩ := hall source v hmem
      have hlists : ∃ lists, outlets.mapM (fun e => targetsOf e.2) = .ok lists :=
        exists_mapM fun e he => exists_targetsOf.2 (houtlets e.1 e.2 he)
      obtain ⟨lists, hlists⟩ := hlists
      exact ⟨_, bind_eq_ok.2 ⟨lists, hlists, rfl⟩⟩
    · rintro ⟨found, h⟩
      cases v with
      | obj o =>
        refine ⟨o, rfl, ?_⟩
        intro source v hmem
        obtain ⟨e, -, he⟩ := exists_right_of_forall₂ (forall₂_of_mapM h) hmem
        cases v with
        | obj outlets =>
          refine ⟨outlets, rfl, ?_⟩
          intro outlet v hv
          obtain ⟨lists, hlists, -⟩ := bind_eq_ok.1 he
          obtain ⟨targets, -, htargets⟩ := exists_right_of_forall₂ (forall₂_of_mapM hlists) hv
          exact exists_targetsOf.1 ⟨targets, htargets⟩
        | _ => simp at he
      | _ => simp [edges] at h

/-- Dependencies are made exactly of connections that are listed as they should be. -/
theorem wellFormed_iff (nodes : List Node) : w.WellFormed ↔ ∃ g, ofWiring nodes w = .ok g := by
  rw [wellFormed_iff_edges]
  constructor
  · rintro ⟨found, hfound⟩
    exact ⟨_, ofWiring_of_edges nodes hfound⟩
  · rintro ⟨g, hg⟩
    obtain ⟨found, hfound, -⟩ := bind_eq_ok.1 hg
    exact ⟨found, hfound⟩

theorem mem_targetsOf (h : targetsOf v = .ok targets) :
    target ∈ targets ↔ ∃ cs, v.parts? = some cs ∧ ∃ c ∈ cs, targetOf c = .ok target := by
  rw [targetsOf] at h
  cases hv : v.parts? with
  | none => simp [hv] at h
  | some cs =>
    rw [hv] at h
    have hall := forall₂_of_mapM h
    constructor
    · intro ht
      obtain ⟨c, hc, hct⟩ := exists_left_of_forall₂ hall ht
      exact ⟨cs, rfl, c, hc, hct⟩
    · rintro ⟨found, hfound, c, hc, hct⟩
      obtain rfl := Option.some.inj hfound
      obtain ⟨t, ht, hct'⟩ := exists_right_of_forall₂ hall hc
      rw [hct] at hct'
      exact Except.ok.inj hct' ▸ ht

/-- The targets that are found below a source are those of the connections listed there. -/
theorem mem_edges (h : edges w = .ok found) :
    (∃ targets, (source, targets) ∈ found ∧ target ∈ targets) ↔ w.Lists source target := by
  cases w with
  | typed m =>
    obtain rfl := Except.ok.inj h
    constructor
    · rintro ⟨targets, hmem, ht⟩
      obtain ⟨⟨s, outlets⟩, ho, he⟩ := List.mem_map.1 hmem
      obtain ⟨rfl, rfl⟩ := Prod.mk.inj he
      obtain ⟨⟨outlet, cs⟩, hcs, ht⟩ := List.mem_flatMap.1 ht
      exact ⟨outlets, ho, outlet, cs, hcs, List.mem_map.1 ht⟩
    · rintro ⟨outlets, ho, outlet, cs, hcs, ht⟩
      exact ⟨_, List.mem_map.2 ⟨_, ho, rfl⟩, List.mem_flatMap.2 ⟨_, hcs, List.mem_map.2 ht⟩⟩
  | untyped v =>
    cases v with
    | obj o =>
      have hall := forall₂_of_mapM h
      constructor
      · rintro ⟨targets, hmem, ht⟩
        obtain ⟨⟨s, v⟩, ho, he⟩ := exists_left_of_forall₂ hall hmem
        cases v with
        | obj outlets =>
          obtain ⟨lists, hlists, he⟩ := bind_eq_ok.1 he
          obtain ⟨rfl, rfl⟩ := Prod.mk.inj (pure_eq_ok.1 he)
          obtain ⟨targets, htargets, ht⟩ := List.mem_flatten.1 ht
          obtain ⟨⟨outlet, v⟩, hv, hfound⟩ :=
            exists_left_of_forall₂ (forall₂_of_mapM hlists) htargets
          exact ⟨outlets, ho, outlet, v, hv, (mem_targetsOf hfound).1 ht⟩
        | _ => simp at he
      · rintro ⟨outlets, ho, outlet, v, hv, ht⟩
        obtain ⟨⟨s, targets⟩, hmem, he⟩ := exists_right_of_forall₂ hall ho
        obtain ⟨lists, hlists, he⟩ := bind_eq_ok.1 he
        obtain ⟨rfl, rfl⟩ := Prod.mk.inj (pure_eq_ok.1 he)
        obtain ⟨found, hfound, htargets⟩ := exists_right_of_forall₂ (forall₂_of_mapM hlists) hv
        exact ⟨_, hmem, List.mem_flatten.2 ⟨found, hfound, (mem_targetsOf htargets).2 ht⟩⟩
    | _ => simp [edges] at h

/-- An id depends on the sources of the connections that lead to it, and on nothing else. -/
theorem on_iff_lists (h : ofWiring nodes w = .ok g) : g.On target source ↔ w.Lists source target := by
  obtain ⟨found, hfound, hg⟩ := bind_eq_ok.1 h
  obtain rfl := pure_eq_ok.1 hg
  exact on_ofNodes_addEdges.trans (mem_edges hfound)

/-- The connections that lead to an id, followed from target to source, lead into a cycle. -/
def Wiring.Cyclic (w : Wiring) (a : String) : Prop :=
  ∃ b, Relation.ReflTransGen (fun target source => w.Lists source target) a b ∧
    Relation.TransGen (fun target source => w.Lists source target) b b

theorem cyclic_iff (h : ofWiring nodes w = .ok g) : g.Cyclic a ↔ w.Cyclic a := by
  have hon : g.On = fun target source => w.Lists source target := by
    funext target source
    exact propext (on_iff_lists h)
  rw [Dependencies.Cyclic, hon, Wiring.Cyclic]

end Layout
end Flowplan
