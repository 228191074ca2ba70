import Flowplan.Proofs.BuiltNodes
import Mathlib.Data.List.Nodup

namespace Flowplan
set_option autoImplicit true

namespace Builder

theorem ids_nodesFrom {b : Builder}
    (h : (b.nodesFrom index steps).runFrom calls = (.ok nodes, calls')) :
    nodes.map Node.id = (List.range steps.length).map fun k : Nat => nodeId (index + k) := by
  induction steps generalizing index calls calls' nodes with
  | nil =>
    obtain ⟨rfl, -⟩ := Build.runFrom_pure_eq_ok.1 h
    rfl
  | cons s rest ih =>
    obtain ⟨n, c₁, hn, h⟩ := Build.runFrom_bind_eq_ok.1 h
    obtain ⟨others, c₂, ho, h⟩ := Build.runFrom_bind_eq_ok.1 h
    obtain ⟨rfl, -⟩ := Build.runFrom_pure_eq_ok.1 h
    have hshift : (fun k : Nat => nodeId (index + 1 + k)) =
        (fun k : Nat => nodeId (index + k)) ∘ Nat.succ := by
      funext k
      simp only [Function.comp, Nat.succ_eq_add_one, Int.natCast_add, Int.cast_ofNat_Int]
      congr 1
      omega
    rw [List.map_cons, (builds_of_node hn).id_eq, ih ho, List.length_cons, List.range_succ_eq_map,
      List.map_cons, List.map_map, hshift]
    simp

theorem keys_decisionsFrom {b : Builder}
    (h : (b.nodesFrom index steps).runFrom calls = (.ok nodes, calls')) :
    (b.decisionsFrom index steps).keys =
      ((nodes.zip steps).filter fun (_, s) => s.isDecision).map fun (n, _) => n.id := by
  induction steps generalizing index calls calls' nodes with
  | nil => simp [decisionsFrom, Table.keys]
  | cons s rest ih =>
    obtain ⟨n, c₁, hn, h⟩ := Build.runFrom_bind_eq_ok.1 h
    obtain ⟨others, c₂, ho, h⟩ := Build.runFrom_bind_eq_ok.1 h
    obtain ⟨rfl, -⟩ := Build.runFrom_pure_eq_ok.1 h
    have hrest := ih ho
    unfold Table.keys at hrest
    rw [decisionsFrom, Table.keys, List.map_append, hrest, List.zip_cons_cons]
    cases s <;> simp [decision, outputCount?, Step.isDecision, (builds_of_node hn).id_eq]

/-- What flattening some steps from an index comes to, where it succeeds: the nodes of the steps
in their order, the output counts of the decisions among them, and the next free number. -/
structure Numbered (b : Builder) (index : Int) (steps : List Step) (calls : List Call)
    (f : Flattened) (calls' : List Call) : Prop where
  nodes : (b.nodesFrom index steps).runFrom calls = (.ok f.nodes, calls')
  outputs : f.outputs = b.decisionsFrom index steps
  next : f.next = index + steps.length

theorem Numbered.empty (b : Builder) (index : Int) (calls : List Call) :
    Numbered b index [] calls (.empty index) calls :=
  ⟨rfl, rfl, by simp [Flattened.empty]⟩

theorem Numbered.append (hi : 0 ≤ index) (hx : Numbered b index xs calls f middle)
    (hy : Numbered b f.next ys middle g calls') :
    Numbered b index (xs ++ ys) calls (f.append g) calls' := by
  obtain ⟨hn, ho, hnext⟩ := hy
  rw [hx.next] at hn ho hnext
  refine ⟨nodesFrom_append hx.nodes hn, ?_, ?_⟩
  · have hd : ∀ key ∈ g.outputs.keys, key ∉ f.outputs.keys := by
      intro key hkey
      rw [ho] at hkey
      rw [hx.outputs]
      exact notMem_keys_decisionsFrom hi hkey
    have hu : g.outputs.keys.Nodup := by
      rw [ho]
      exact nodup_keys_decisionsFrom b (by omega) ys
    rw [Flattened.append, Table.merge_eq_append hu hd, hx.outputs, ho, decisionsFrom_append]
  · rw [Flattened.append, hnext, List.length_append]
    omega

theorem Numbered.next_nonneg (h : Numbered b index steps calls f calls') (hi : 0 ≤ index) :
    0 ≤ f.next := by
  rw [h.next]
  omega

/-- The run decides what is flattened. -/
theorem Numbered.unique (h : Numbered b index steps calls f calls')
    (h' : Numbered b index steps calls g calls') : f = g := by
  have hn : f.nodes = g.nodes := by
    have hrun := h.nodes.symm.trans h'.nodes
    simpa using hrun
  cases f
  cases g
  simp only [Flattened.mk.injEq]
  exact ⟨hn, h.outputs.trans h'.outputs.symm, h.next.trans h'.next.symm⟩

/-- A step's own node is built unless the step is a branch that is too deep. -/
theorem own_eq (b : Builder) (depth index : Int) (s : Step) :
    b.own depth index s =
      if s.kind? = some .branch ∧ b.settings.maxBranchDepth ≤ depth then
        throw (.refusal (.tooDeep b.settings.maxBranchDepth s))
      else do
        let n ← b.node (nodeId index) s
        return ⟨[n], b.decision index s, index + 1⟩ := by
  cases s with
  | branch cases otherwise =>
    by_cases hd : b.settings.maxBranchDepth ≤ depth
    · simp only [own, Step.kind?, hd, and_self, if_true]
      rfl
    · simp only [own, Step.kind?, hd, and_false, if_false]
      rfl
  | _ => rfl

theorem Numbered.append_assoc (hi : 0 ≤ index) (hx : Numbered b index xs calls f c₁)
    (hy : Numbered b f.next ys c₁ g c₂) (hz : Numbered b g.next zs c₂ k calls') :
    f.append (g.append k) = (f.append g).append k := by
  have hright := hx.append hi (hy.append (hx.next_nonneg hi) hz)
  have hleft := (hx.append hi hy).append hi hz
  rw [List.append_assoc] at hleft
  exact hright.unique hleft

theorem own_numbered {b : Builder} (h : (b.own depth index s).runFrom calls = (.ok f, calls')) :
    Numbered b index [s] calls f calls' := by
  rw [own_eq] at h
  split at h
  · simp at h
  · obtain ⟨n, middle, hn, h⟩ := Build.runFrom_bind_eq_ok.1 h
    obtain ⟨rfl, rfl⟩ := Build.runFrom_pure_eq_ok.1 h
    refine ⟨?_, ?_, ?_⟩
    · rw [nodesFrom, Build.runFrom_bind_ok hn]
      rfl
    · rw [decisionsFrom, decisionsFrom, List.append_nil]
    · simp

mutual

/-- Flattening numbers the steps of a tree in preorder. The index that comes back from one part is
where the next part starts. -/
theorem flattenStep_numbered {b : Builder} (s : Step) (hi : 0 ≤ index)
    (h : (b.flattenStep depth index s).runFrom calls = (.ok f, calls')) :
    Numbered b index (Step.preorder s) calls f calls' := by
  cases s with
  | branch cases otherwise =>
    obtain ⟨top, c₁, ht, h⟩ := Build.runFrom_bind_eq_ok.1 h
    obtain ⟨below, c₂, hb, h⟩ := Build.runFrom_bind_eq_ok.1 h
    obtain ⟨last, c₃, hl, h⟩ := Build.runFrom_bind_eq_ok.1 h
    obtain ⟨rfl, rfl⟩ := Build.runFrom_pure_eq_ok.1 h
    have htop := own_numbered ht
    have hbelow := flattenCases_numbered cases (htop.next_nonneg hi) hb
    have hlast := flattenElse_numbered otherwise
      (hbelow.next_nonneg (htop.next_nonneg hi)) hl
    have both := (htop.append hi hbelow).append hi hlast
    rwa [List.append_assoc] at both
  | _ => exact own_numbered (show (b.own depth index _).runFrom calls = _ from h)

theorem flattenCases_numbered {b : Builder} (cases : List (Case Step)) (hi : 0 ≤ index)
    (h : (b.flattenCases depth index cases).runFrom calls = (.ok f, calls')) :
    Numbered b index (Step.preorderCases cases) calls f calls' := by
  match cases with
  | [] =>
    obtain ⟨rfl, rfl⟩ := Build.runFrom_pure_eq_ok.1 h
    exact .empty b index calls
  | ⟨condition, steps⟩ :: rest =>
    obtain ⟨first, middle, hf, h⟩ := Build.runFrom_bind_eq_ok.1 h
    obtain ⟨others, c, ho, h⟩ := Build.runFrom_bind_eq_ok.1 h
    obtain ⟨rfl, rfl⟩ := Build.runFrom_pure_eq_ok.1 h
    have hfirst := flattenList_numbered steps hi hf
    exact hfirst.append hi (flattenCases_numbered rest (hfirst.next_nonneg hi) ho)

theorem flattenElse_numbered {b : Builder} (otherwise : Member (List Step)) (hi : 0 ≤ index)
    (h : (b.flattenElse depth index otherwise).runFrom calls = (.ok f, calls')) :
    Numbered b index (Step.preorderElse otherwise) calls f calls' := by
  match otherwise with
  | .given steps => exact flattenList_numbered steps hi h
  | .absent =>
    obtain ⟨rfl, rfl⟩ := Build.runFrom_pure_eq_ok.1 h
    exact .empty b index calls
  | .null =>
    obtain ⟨rfl, rfl⟩ := Build.runFrom_pure_eq_ok.1 h
    exact .empty b index calls

theorem flattenList_numbered {b : Builder} (steps : List Step) (hi : 0 ≤ index)
    (h : (b.flattenList depth index steps).runFrom calls = (.ok f, calls')) :
    Numbered b index (Step.preorderList steps) calls f calls' := by
  match steps with
  | [] =>
    obtain ⟨rfl, rfl⟩ := Build.runFrom_pure_eq_ok.1 h
    exact .empty b index calls
  | s :: rest =>
    obtain ⟨first, middle, hf, h⟩ := Build.runFrom_bind_eq_ok.1 h
    obtain ⟨others, c, ho, h⟩ := Build.runFrom_bind_eq_ok.1 h
    obtain ⟨rfl, rfl⟩ := Build.runFrom_pure_eq_ok.1 h
    have hfirst := flattenStep_numbered s hi hf
    exact hfirst.append hi (flattenList_numbered rest (hfirst.next_nonneg hi) ho)

end

/-- A sequence in two parts is flattened as its first part and then, from the index that came back,
its second part, also where one of them fails. -/
theorem runFrom_flattenList_append {b : Builder} (xs ys : List Step) (hi : 0 ≤ index) :
    (b.flattenList depth index (xs ++ ys)).runFrom calls =
      Build.runFrom (do
        let f ← b.flattenList depth index xs
        let g ← b.flattenList depth f.next ys
        return f.append g) calls := by
  induction xs generalizing index calls with
  | nil =>
    rw [List.nil_append, flattenList, pure_bind, ← bind_pure (b.flattenList depth index ys)]
    apply Build.runFrom_bind_congr
    intro g calls' hg
    -- Appending to nothing merges the output counts anew, and may do so as their keys differ.
    have hg' := flattenList_numbered ys hi hg
    rw [← hg'.unique ((Numbered.empty b index calls).append hi hg')]
  | cons s rest ih =>
    simp only [List.cons_append, flattenList, bind_assoc, pure_bind]
    apply Build.runFrom_bind_congr
    intro first middle hs
    have hfirst := flattenStep_numbered s hi hs
    have hnext := hfirst.next_nonneg hi
    rw [Build.runFrom_bind_left (ih hnext)]
    simp only [bind_assoc, pure_bind]
    apply Build.runFrom_bind_congr
    intro f c₁ hf
    apply Build.runFrom_bind_congr
    intro g c₂ hg
    -- Appending is associative for parts that are numbered one after the other only.
    have hf' := flattenList_numbered rest hnext hf
    have hg' := flattenList_numbered ys (hf'.next_nonneg hnext) hg
    rw [hfirst.append_assoc hi hf' hg']

/-- Flattening is the walk in document order: it builds the node of each step when the walk comes to
it, gives the nodes consecutive numbers from its index on, and has an output count for each
decision and for nothing else. Two sequences are flattened one after the other. -/
theorem flatten_walk {b : Builder} (hi : 0 ≤ index)
    (h : (b.flattenList depth index steps).runFrom calls = (.ok f, calls')) :
    (b.nodesFrom index (Step.all steps)).runFrom calls = (.ok f.nodes, calls') ∧
    f.nodes.map Node.id = (List.range (Step.count steps)).map (fun k : Nat => nodeId (index + k)) ∧
    f.nodes.length = Step.count steps ∧
    f.next = index + Step.count steps ∧
    (f.nodes.map Node.id).Nodup ∧
    (∀ n ∈ f.nodes, Node.isId n.id = true) ∧
    f.outputs.keys =
      (((f.nodes.zip (Step.all steps)).filter fun (_, s) => s.isDecision).map fun (n, _) => n.id) ∧
    ∀ ys, (b.flattenList depth index (steps ++ ys)).runFrom calls =
      Build.runFrom (do
        let first ← b.flattenList depth index steps
        let second ← b.flattenList depth first.next ys
        return first.append second) calls := by
  have hall := flattenList_numbered steps hi h
  rw [← Step.all_eq_preorderList] at hall
  have hids := ids_nodesFrom hall.nodes
  refine ⟨hall.nodes, hids, ?_, hall.next, ?_, ?_, ?_, ?_⟩
  · have hlen := congrArg List.length hids
    rwa [List.length_map, List.length_map, List.length_range] at hlen
  · rw [hids]
    apply List.Nodup.map ?_ List.nodup_range
    intro j k he
    have := nodeId_injective (by omega) (by omega) he
    omega
  · intro n hn
    have hmem : n.id ∈ f.nodes.map Node.id := List.mem_map_of_mem hn
    rw [hids, List.mem_map] at hmem
    obtain ⟨k, -, hk⟩ := hmem
    rw [← hk]
    exact isId_nodeId (by omega)
  · rw [hall.outputs]
    exact keys_decisionsFrom hall.nodes
  · intro ys
    exact runFrom_flattenList_append steps ys hi

/-- A builder with an action registry that knows nothing. -/
def offline : Builder := ⟨.default, ⟨"org", fun _ _ => .ok true, fun _ _ => .ok none⟩, "P"⟩

/-- A branch with an empty case and an empty else between two filters. -/
def filtersAroundBranch : List Step :=
  let c : Condition := ⟨"score", .gt, .int 3⟩
  [.filter c, .branch [⟨c, [.slack "#a" "b"]⟩, ⟨c, []⟩] (.given []), .filter c]

/-- Numbers go on past three digits, in and after a branch. -/
theorem flatten_walk_past_three_digits : ∃ (f : Flattened) (calls : List Call),
    (offline.flattenList 0 998 filtersAroundBranch).runFrom [] = (.ok f, calls) ∧
      f.nodes.map Node.id = ["node_998", "node_999", "node_1000", "node_1001"] ∧
      f.next = 1002 ∧ (f.nodes.map Node.id).Nodup := by
  have hrun : ∃ (f : Flattened) (calls : List Call),
      (offline.flattenList 0 998 filtersAroundBranch).runFrom [] = (.ok f, calls) := ⟨_, _, rfl⟩
  obtain ⟨f, calls, h⟩ := hrun
  obtain ⟨-, hids, -, hnext, hnodup, -⟩ := flatten_walk (by decide) h
  rw [Step.count, Step.all_eq_preorderList] at hids hnext
  exact ⟨f, calls, h, hids, hnext, hnodup⟩

end Builder
end Flowplan
