import Flowplan.Proofs.BuildRun
import Flowplan.Proofs.NodeNumbers
import Flowplan.Proofs.PreorderWalk
import Flowplan.Proofs.TableLaws

namespace Flowplan
set_option autoImplicit true

/-- A decision has outputs of its own. -/
def Step.isDecision : Step → Bool
  | .filter _ => true
  | .branch _ _ => true
  | _ => false

namespace Builder

/-- The nodes of steps that are built one after the other, numbered from an index. -/
def nodesFrom (b : Builder) (index : Int) : List Step → Build (List Node)
  | [] => return []
  | s :: rest => do
    let n ← b.node (nodeId index) s
    let others ← nodesFrom b (index + 1) rest
    return n :: others

def decision (b : Builder) (index : Int) (s : Step) : Table String Nat :=
  match b.outputCount? s with
  | some count => [(nodeId index, count)]
  | none => []

/-- The output counts of the decisions among steps that are numbered from an index. -/
def decisionsFrom (b : Builder) (index : Int) : List Step → Table String Nat
  | [] => []
  | s :: rest => b.decision index s ++ decisionsFrom b (index + 1) rest

theorem nodesFrom_append {b : Builder}
    (hx : (b.nodesFrom index xs).runFrom calls = (.ok ms, middle))
    (hy : (b.nodesFrom (index + xs.length) ys).runFrom middle = (.ok ns, calls')) :
    (b.nodesFrom index (xs ++ ys)).runFrom calls = (.ok (ms ++ ns), calls') := by
  induction xs generalizing index calls ms with
  | nil =>
    obtain ⟨rfl, rfl⟩ := Build.runFrom_pure_eq_ok.1 hx
    simpa using hy
  | cons s rest ih =>
    obtain ⟨n, c₁, hn, hx⟩ := Build.runFrom_bind_eq_ok.1 hx
    obtain ⟨others, c₂, ho, hx⟩ := Build.runFrom_bind_eq_ok.1 hx
    obtain ⟨rfl, rfl⟩ := Build.runFrom_pure_eq_ok.1 hx
    have hi : index + (s :: rest).length = index + 1 + rest.length := by
      simp only [List.length_cons]
      omega
    rw [hi] at hy
    rw [List.cons_append, nodesFrom, Build.runFrom_bind_ok hn, Build.runFrom_bind_ok (ih ho hy)]
    rfl

theorem decisionsFrom_append (b : Builder) (index : Int) (xs ys : List Step) :
    b.decisionsFrom index (xs ++ ys) =
      b.decisionsFrom index xs ++ b.decisionsFrom (index + xs.length) ys := by
  induction xs generalizing index with
  | nil => simp [decisionsFrom]
  | cons s rest ih =>
    have hi : index + (s :: rest).length = index + 1 + rest.length := by
      simp only [List.length_cons]
      omega
    rw [List.cons_append, decisionsFrom, decisionsFrom, ih, List.append_assoc, hi]

theorem exists_of_mem_keys_decision {b : Builder} (h : key ∈ (b.decision index s).keys) :
    key = nodeId index := by
  unfold decision at h
  cases hc : b.outputCount? s with
  | none => simp [hc, Table.keys] at h
  | some count => simpa [hc, Table.keys] using h

theorem exists_of_mem_keys_decisionsFrom {b : Builder}
    (h : key ∈ (b.decisionsFrom index steps).keys) :
    ∃ k : Int, index ≤ k ∧ k < index + steps.length ∧ key = nodeId k := by
  induction steps generalizing index with
  | nil => simp [decisionsFrom, Table.keys] at h
  | cons s rest ih =>
    simp only [decisionsFrom, Table.keys, List.map_append, List.mem_append] at h
    simp only [List.length_cons]
    rcases h with h | h
    · exact ⟨index, by omega, by omega, exists_of_mem_keys_decision h⟩
    · obtain ⟨k, hl, hu, he⟩ := ih h
      exact ⟨k, by omega, by omega, he⟩

/-- Later numbers make no identifier that an earlier one has made. -/
theorem notMem_keys_decisionsFrom {b : Builder} (hi : 0 ≤ index)
    (h : key ∈ (b.decisionsFrom (index + xs.length) ys).keys) :
    key ∉ (b.decisionsFrom index xs).keys := by
  intro hx
  obtain ⟨j, hj, -, rfl⟩ := exists_of_mem_keys_decisionsFrom h
  obtain ⟨k, hk, hlt, he⟩ := exists_of_mem_keys_decisionsFrom hx
  have := nodeId_injective (by omega) (by omega) he
  omega

theorem nodup_keys_decisionsFrom (b : Builder) {index : Int} (hi : 0 ≤ index)
    (steps : List Step) : (b.decisionsFrom index steps).keys.Nodup := by
  induction steps generalizing index with
  | nil => exact List.nodup_nil
  | cons s rest ih =>
    have hs : (b.decision index s).keys.Nodup := by
      unfold decision
      cases b.outputCount? s <;> simp [Table.keys]
    simp only [decisionsFrom, Table.keys, List.map_append]
    refine List.nodup_append.2 ⟨hs, ih (by omega), ?_⟩
    rintro a ha c hc rfl
    obtain ⟨k, hk, -, he⟩ := exists_of_mem_keys_decisionsFrom hc
    have := nodeId_injective hi (by omega) ((exists_of_mem_keys_decision ha).symm.trans he)
    omega

end Builder
end Flowplan
