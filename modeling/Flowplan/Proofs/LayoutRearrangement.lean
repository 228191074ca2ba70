import Flowplan.Proofs.ColumnGeometry
import Mathlib.Data.List.Perm.Basic
import Mathlib.Logic.Relation

/-!
The layered layout of nodes and connections in another order. Main statement: where names tell nodes
apart, the position of a node does not depend on the order in which nodes, sources, outlets and
connections are listed, nor on how often a connection is.
-/

namespace Flowplan
set_option autoImplicit true

/-- The same keys in another order, their values related to those that they had. -/
def Table.Reordered {κ α β : Type} (R : α → β → Prop) (t : Table κ α) (u : Table κ β) : Prop :=
  ∃ t', List.Perm t t' ∧ List.Forall₂ (fun e f => e.1 = f.1 ∧ R e.2 f.2) t' u

section

variable {κ α β : Type} {R : α → β → Prop} {t : Table κ α} {u : Table κ β}

theorem Table.Reordered.exists_right (h : Table.Reordered R t u) (hv : (key, v) ∈ t) :
    ∃ w, (key, w) ∈ u ∧ R v w := by
  obtain ⟨t', hperm, hall⟩ := h
  obtain ⟨⟨k, w⟩, hw, rfl, hr⟩ := exists_right_of_forall₂ hall (hperm.mem_iff.1 hv)
  exact ⟨w, hw, hr⟩

theorem Table.Reordered.symm {S : β → α → Prop} (h : Table.Reordered R t u)
    (hR : ∀ v w, R v w → S w v) : Table.Reordered S u t := by
  obtain ⟨t', hperm, hall⟩ := h
  have hback : List.Forall₂ (fun f e => f.1 = e.1 ∧ S f.2 e.2) u t' :=
    hall.flip.imp fun f e he => ⟨he.1.symm, hR _ _ he.2⟩
  -- The order may be changed first and the values after it, or the other way round.
  have hcomp : Relation.Comp (List.Forall₂ fun f e => f.1 = e.1 ∧ S f.2 e.2) List.Perm u t :=
    ⟨t', hback, hperm.symm⟩
  rw [List.forall₂_comp_perm_eq_perm_comp_forall₂] at hcomp
  exact hcomp

end

namespace Json

/-- The same items in another order, some of them more or less often. -/
inductive SameItems : Json → Json → Prop
  | self : SameItems v v
  | items (same : ∀ c, c ∈ cs ↔ c ∈ ds) : SameItems (.arr cs) (.arr ds)

/-- The same members in another order, their values related to those that they had. -/
inductive SameMembers (R : Json → Json → Prop) : Json → Json → Prop
  | members (same : Table.Reordered R o p) : SameMembers R (.obj o) (.obj p)

theorem SameItems.symm (h : SameItems v w) : SameItems w v := by
  cases h with
  | self => exact .self
  | items same => exact .items fun c => (same c).symm

theorem SameItems.exists_parts (h : SameItems v w) (hv : v.parts? = some cs) :
    ∃ ds, w.parts? = some ds ∧ ∀ c, c ∈ cs ↔ c ∈ ds := by
  cases h with
  | self => exact ⟨cs, hv, fun _ => Iff.rfl⟩
  | items same =>
    obtain rfl := Option.some.inj hv
    exact ⟨_, rfl, same⟩

theorem SameMembers.symm {R : Json → Json → Prop} (h : SameMembers R v w)
    (hR : ∀ v w, R v w → R w v) : SameMembers R w v := by
  cases h with
  | members same => exact .members (same.symm hR)

end Json

namespace Layout

open Relation Dependencies Flowplan.Json

/-- The same connections listed in another order: sources, the outlets of a source, and the
connections of an outlet, some of these more or less often. -/
inductive Wiring.Rearranged : Wiring → Wiring → Prop
  | typed (same : Table.Reordered (Table.Reordered fun cs ds => ∀ c, c ∈ cs ↔ c ∈ ds) m m') :
      Rearranged (.typed m) (.typed m')
  | untyped (same : SameMembers (SameMembers SameItems) v v') :
      Rearranged (.untyped v) (.untyped v')

variable {w w' : Wiring}

theorem Wiring.Rearranged.symm (h : w.Rearranged w') : w'.Rearranged w := by
  cases h with
  | typed same =>
    exact .typed (same.symm fun _ _ hos => hos.symm fun _ _ hcs c => (hcs c).symm)
  | untyped same =>
    exact .untyped (same.symm fun _ _ hos => hos.symm fun _ _ => SameItems.symm)

theorem Wiring.Rearranged.lists (h : w.Rearranged w') (hl : w.Lists source target) :
    w'.Lists source target := by
  cases h with
  | typed same =>
    obtain ⟨outlets, ho, outlet, cs, hcs, c, hc, ht⟩ := hl
    obtain ⟨outlets', ho', hsame⟩ := same.exists_right ho
    obtain ⟨ds, hds, hmem⟩ := hsame.exists_right hcs
    exact ⟨outlets', ho', outlet, ds, hds, c, (hmem c).1 hc, ht⟩
  | untyped same =>
    obtain ⟨same⟩ := same
    obtain ⟨outlets, ho, outlet, v, hv, cs, hcs, c, hc, ht⟩ := hl
    obtain ⟨-, ho', ⟨hsame⟩⟩ := same.exists_right ho
    obtain ⟨v', hv', hitems⟩ := hsame.exists_right hv
    obtain ⟨ds, hds, hmem⟩ := hitems.exists_parts hcs
    exact ⟨_, ho', outlet, v', hv', ds, hds, c, (hmem c).1 hc, ht⟩

theorem Wiring.Rearranged.lists_iff (h : w.Rearranged w') :
    w.Lists source target ↔ w'.Lists source target :=
  ⟨h.lists, h.symm.lists⟩

theorem Wiring.Rearranged.wellFormed (h : w.Rearranged w') (hw : w'.WellFormed) : w.WellFormed := by
  cases h with
  | typed => trivial
  | untyped same =>
    obtain ⟨same⟩ := same
    obtain ⟨entries, he, hall⟩ := hw
    obtain rfl := Json.obj.inj he
    refine ⟨_, rfl, ?_⟩
    intro source v hv
    obtain ⟨v', hv', ⟨hsame⟩⟩ := same.exists_right hv
    obtain ⟨outlets, ho, houtlets⟩ := hall source _ hv'
    obtain rfl := Json.obj.inj ho
    refine ⟨_, rfl, ?_⟩
    intro outlet l hl
    obtain ⟨l', hl', hitems⟩ := hsame.exists_right hl
    obtain ⟨ds, hds, htargets⟩ := houtlets outlet l' hl'
    obtain ⟨cs, hcs, hmem⟩ := hitems.symm.exists_parts hds
    exact ⟨cs, hcs, fun c hc => htargets c ((hmem c).2 hc)⟩

variable {height across down left top : Int} {nodes nodes' : List Node} {levels levels' : Levels}
  {g g' : Dependencies}

theorem Dependencies.Path.congr (h : ∀ a b, g.On a b → g'.On a b) (hp : g.Path a k) :
    g'.Path a k := by
  induction hp with
  | here => exact .here
  | on first _ ih => exact .on (h _ _ first) ih

/-- The level of an id is settled by what depends on what. -/
theorem Levels.Sound.getD_eq (h : Levels.Sound g levels) (h' : Levels.Sound g' levels')
    (ha : Table.has levels a = true) (ha' : Table.has levels' a = true)
    (hon : ∀ a b, g.On a b ↔ g'.On a b) :
    (Table.get? levels a).getD 0 = (Table.get? levels' a).getD 0 := by
  have hpaths : {k | g.Path a k} = {k | g'.Path a k} :=
    Set.ext fun k => ⟨Path.congr fun a b => (hon a b).1, Path.congr fun a b => (hon a b).2⟩
  have hgreatest := h.getD_isGreatest ha
  rw [hpaths] at hgreatest
  exact hgreatest.unique (h'.getD_isGreatest ha')

/-- Names that tell nodes apart leave one order for those of a column. -/
theorem column_eq_of_perm (hnames : (nodes.map Node.name).Nodup) (hperm : nodes.Perm nodes')
    (hlevels : ∀ n ∈ nodes, levelIn levels n = levelIn levels' n) (l : Nat) :
    column nodes levels l = column nodes' levels' l := by
  have hsame : (nodes.filter fun n => levelIn levels n = l).Perm
      (nodes'.filter fun n => levelIn levels' n = l) := by
    rw [List.filter_congr fun n hn => by rw [hlevels n hn]]
    exact hperm.filter _
  have hsorted := StablySorted.mergeSort Node.name (nodes.filter fun n => levelIn levels n = l)
  have hsorted' := StablySorted.mergeSort Node.name (nodes'.filter fun n => levelIn levels' n = l)
  refine (hsorted.perm.trans (hsame.trans hsorted'.perm.symm)).eq_of_pairwise ?_ hsorted.ordered
    hsorted'.ordered
  intro m n hm hn hle hge
  have hm := List.mem_of_mem_filter (hsorted.perm.mem_iff.1 hm)
  have hn := List.mem_of_mem_filter (hsorted'.perm.mem_iff.1 hn)
  exact List.inj_on_of_nodup_map hnames hm (hperm.mem_iff.2 hn) (String.le_antisymm hle hge)

theorem spot_eq_of_columns (n : Node) (hlevel : levelIn levels n = levelIn levels' n)
    (hcolumns : ∀ l, column nodes levels l = column nodes' levels' l) :
    spot height across down left top nodes levels n =
      spot height across down left top nodes' levels' n := by
  rw [spot, spot, rank, rank, hlevel, hcolumns]

/-- Two nodes or more that lead into no cycle have the spots that their levels give them. -/
theorem exists_spots (width height across down left top : Int) (hmany : 2 ≤ nodes.length)
    (hids : (nodes.map Node.id).Nodup) (hw : w.WellFormed)
    (hacyclic : ∀ n ∈ nodes, ¬ w.Cyclic n.id) :
    ∃ g levels, ofWiring nodes w = .ok g ∧ Levels.Sound g levels ∧
      (∀ n ∈ nodes, Table.has levels n.id = true) ∧
      auto (.whole width height across down left top) nodes w =
        (.ok (nodes.map fun n => n.place (spot height across down left top nodes levels n)), []) := by
  obtain ⟨g, hg⟩ := (wellFormed_iff nodes).1 hw
  obtain ⟨f, -, n, hn, hcycle⟩ | ⟨levels, hl, hsound, hall, -⟩ := Levels.ofNodes_cases g nodes
  · exact absurd ((cyclic_iff hg).1 hcycle) (hacyclic n hn)
  · have hlayered := layered_eq width height across down left top hids hg hl
    exact ⟨g, levels, hg, hsound, hall, auto_of_layered hmany hlayered⟩

/-- A node by itself stands at the start. -/
theorem auto_of_few (width height across down left top : Int) (h : nodes.length < 2) (w : Wiring) :
    auto (.whole width height across down left top) nodes w =
      (.ok (nodes.map fun n => n.place (left, top)), []) := by
  match nodes with
  | [] => rfl
  | [n] => rfl
  | _ :: _ :: _ => exact absurd h (by simp)

theorem forall₂_moved_map (f : Node → Int × Int) (nodes : List Node) :
    List.Forall₂ Moved nodes (nodes.map fun n => n.place (f n)) := by
  induction nodes with
  | nil => exact .nil
  | cons n rest ih => exact .cons ⟨f n, rfl⟩ ih

/-- Layouts give each node one position if they put it at the same spot. -/
theorem position_eq_of_spots {f f' : Node → Int × Int} (hids : (nodes.map Node.id).Nodup)
    (hperm : nodes.Perm nodes') (hspots : ∀ n ∈ nodes, f n = f' n) :
    ∀ m ∈ nodes.map fun n => n.place (f n), ∀ n ∈ nodes'.map fun n => n.place (f' n),
      m.id = n.id → m.position = n.position := by
  intro m hm n hn hid
  obtain ⟨a, ha, rfl⟩ := List.mem_map.1 hm
  obtain ⟨b, hb, rfl⟩ := List.mem_map.1 hn
  obtain rfl := eq_of_id_eq hids ha (hperm.mem_iff.2 hb) hid
  exact hspots a ha

/-- Nodes with the same connections between them have the same spots, in whatever order they come. -/
theorem exists_same_spots (width height across down left top : Int)
    (hids : (nodes.map Node.id).Nodup) (hnames : (nodes.map Node.name).Nodup)
    (hw : w.WellFormed) (hw' : w'.WellFormed) (hacyclic : ∀ n ∈ nodes, ¬ w.Cyclic n.id)
    (hnodes : nodes.Perm nodes')
    (hlists : ∀ source target, w.Lists source target ↔ w'.Lists source target) :
    ∃ f f' : Node → Int × Int,
      auto (.whole width height across down left top) nodes w =
        (.ok (nodes.map fun n => n.place (f n)), []) ∧
      auto (.whole width height across down left top) nodes' w' =
        (.ok (nodes'.map fun n => n.place (f' n)), []) ∧ ∀ n ∈ nodes, f n = f' n := by
  rcases Nat.lt_or_ge nodes.length 2 with hfew | hmany
  · refine ⟨fun _ => (left, top), fun _ => (left, top), ?_, ?_, fun _ _ => rfl⟩
    · exact auto_of_few width height across down left top hfew w
    · exact auto_of_few width height across down left top (hnodes.length_eq ▸ hfew) w'
  · have hids' : (nodes'.map Node.id).Nodup := (hnodes.map _).nodup_iff.1 hids
    have hacyclic' : ∀ n ∈ nodes', ¬ w'.Cyclic n.id := by
      intro n hn
      have h := hacyclic n (hnodes.mem_iff.2 hn)
      simpa only [Wiring.Cyclic, hlists] using h
    obtain ⟨g, levels, hg, hsound, hall, hauto⟩ :=
      exists_spots width height across down left top hmany hids hw hacyclic
    obtain ⟨g', levels', hg', hsound', hall', hauto'⟩ :=
      exists_spots width height across down left top (hnodes.length_eq ▸ hmany) hids' hw' hacyclic'
    have hon : ∀ a b, g.On a b ↔ g'.On a b := fun a b =>
      (on_iff_lists hg).trans ((hlists b a).trans (on_iff_lists hg').symm)
    have hlevels : ∀ n ∈ nodes, levelIn levels n = levelIn levels' n := fun n hn =>
      hsound.getD_eq hsound' (hall n hn) (hall' n (hnodes.mem_iff.1 hn)) hon
    have hcolumns := column_eq_of_perm hnames hnodes hlevels
    exact ⟨_, _, hauto, hauto', fun n hn => spot_eq_of_columns n (hlevels n hn) hcolumns⟩

/-- The order in which nodes and connections are presented does not matter to the layout of nodes
with different ids and names that lead into no cycle: listed in another order, and connections more or
less often, the nodes keep their positions. -/
theorem auto_rearranged (width height across down left top : Int)
    (hids : (nodes.map Node.id).Nodup) (hnames : (nodes.map Node.name).Nodup) (hw : w.WellFormed)
    (hacyclic : ∀ n ∈ nodes, ¬ w.Cyclic n.id) (hnodes : nodes.Perm nodes')
    (hconnections : w.Rearranged w') :
    ∃ placed placed',
      auto (.whole width height across down left top) nodes w = (.ok placed, []) ∧
      auto (.whole width height across down left top) nodes' w' = (.ok placed', []) ∧
      List.Forall₂ Moved nodes placed ∧ List.Forall₂ Moved nodes' placed' ∧
      ∀ m ∈ placed, ∀ n ∈ placed', m.id = n.id → m.position = n.position := by
  obtain ⟨f, f', hauto, hauto', hspots⟩ :=
    exists_same_spots width height across down left top hids hnames hw
      (hconnections.symm.wellFormed hw) hacyclic hnodes fun _ _ => hconnections.lists_iff
  exact ⟨_, _, hauto, hauto', forall₂_moved_map f nodes, forall₂_moved_map f' nodes',
    position_eq_of_spots hids hnodes hspots⟩

/-- The connections of `doubled` in another order, and one of them listed a second time. -/
def redoubled : Wiring :=
  .untyped (.obj [("x", connectionTo "a"), ("a", .obj [("other", .arr [.obj [("target", .str "c")]]),
    ("main", .arr [.obj [("target", .str "b")], .obj [("target", .str "c")],
      .obj [("target", .str "b")]])])])

theorem doubled_rearranged : doubled.Rearranged redoubled := by
  refine .untyped (.members ⟨_, .swap _ _ _, .cons ⟨rfl, .members ⟨_, .refl _, ?_⟩⟩
    (.cons ⟨rfl, .members ⟨_, .swap _ _ _, ?_⟩⟩ .nil)⟩)
  · exact .cons ⟨rfl, .self⟩ .nil
  · refine .cons ⟨rfl, .self⟩ (.cons ⟨rfl, .items ?_⟩ .nil)
    simp [or_comm]

/-- A node with a name of its own. -/
def called (id name : String) : Node := { idle id with name }

/-- Two nodes of one column stay where they are when they change places in the list. -/
theorem auto_rearranged_doubled :
    ([called "b" "B", called "a" "A", called "c" "C"].map Node.id).Nodup ∧
      ([called "b" "B", called "a" "A", called "c" "C"].map Node.name).Nodup ∧
      doubled.WellFormed ∧
      (∀ n ∈ [called "b" "B", called "a" "A", called "c" "C"], ¬ doubled.Cyclic n.id) ∧
      List.Perm [called "b" "B", called "a" "A", called "c" "C"]
        [called "c" "C", called "a" "A", called "b" "B"] ∧
      doubled.Rearranged redoubled ∧ ∃ placed placed',
        auto .default [called "b" "B", called "a" "A", called "c" "C"] doubled =
          (.ok placed, []) ∧
        auto .default [called "c" "C", called "a" "A", called "b" "B"] redoubled =
          (.ok placed', []) ∧
        (∀ m ∈ placed, ∀ n ∈ placed', m.id = n.id → m.position = n.position) ∧
        placed.map Node.position = [(700, -75), (400, 50), (700, 175)] := by
  have hids : ([called "b" "B", called "a" "A", called "c" "C"].map Node.id).Nodup := by decide
  have hnames : ([called "b" "B", called "a" "A", called "c" "C"].map Node.name).Nodup := by decide
  have hg : ofWiring [called "b" "B", called "a" "A", called "c" "C"] doubled =
      .ok [("b", ["a"]), ("a", ["x"]), ("c", ["a"])] := by rfl
  have hl : Levels.ofNodes [("b", ["a"]), ("a", ["x"]), ("c", ["a"])]
      [called "b" "B", called "a" "A", called "c" "C"] =
        .ok [("x", 0), ("a", 1), ("b", 2), ("c", 2)] := by rfl
  have hw : doubled.WellFormed := (wellFormed_iff _).2 ⟨_, hg⟩
  have hacyclic := not_cyclic_of_levels hg hl
  have hnodes : List.Perm [called "b" "B", called "a" "A", called "c" "C"]
      [called "c" "C", called "a" "A", called "b" "B"] :=
    (List.reverse_perm [called "c" "C", called "a" "A", called "b" "B"])
  refine ⟨hids, hnames, hw, hacyclic, hnodes, doubled_rearranged, ?_⟩
  obtain ⟨placed, placed', hauto, hauto', -, -, hpositions⟩ :=
    auto_rearranged 240 100 300 150 100 100 hids hnames hw hacyclic hnodes doubled_rearranged
  refine ⟨placed, placed', hauto, hauto', hpositions, ?_⟩
  have hshown :
      (auto .default [called "b" "B", called "a" "A", called "c" "C"] doubled).1.toOption.map
        (·.map Node.position) = some [(700, -75), (400, 50), (700, 175)] := by
    cbv
  have hresult : auto .default [called "b" "B", called "a" "A", called "c" "C"] doubled =
      (.ok placed, []) := hauto
  rw [hresult] at hshown
  exact Option.some.inj hshown

end Layout
end Flowplan
