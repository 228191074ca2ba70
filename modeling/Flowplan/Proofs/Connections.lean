import Flowplan.Proofs.TableLaws
import Flowplan.Workflow.Flatten
import Mathlib.Data.List.Basic
import Mathlib.Logic.Relation

namespace Flowplan.ConnectionMap
set_option autoImplicit true

/-- The connections between nodes with these identifiers, each node leading to the next one. -/
def ofIds (outputs : Table String Nat) (ids : List String) : ConnectionMap :=
  (ids.zip ids.tail).map fun (a, b) =>
    (a, [("main", List.replicate ((Table.get? outputs a).getD 1) (wire a b))])

/-- Some connection goes from the first node to the second. -/
def Leads (m : ConnectionMap) (a b : String) : Prop :=
  ∃ outlets port wires, (a, outlets) ∈ m ∧ (port, wires) ∈ outlets ∧ ∃ w ∈ wires, w.target = b

theorem keys_ofIds (outputs : Table String Nat) (ids : List String) :
    Table.keys (ofIds outputs ids) = ids.dropLast := by
  have hfst : ∀ xs : List String, (xs.zip xs.tail).map Prod.fst = xs.dropLast := by
    intro xs
    induction xs with
    | nil => rfl
    | cons x rest ih =>
      cases rest with
      | nil => rfl
      | cons y rest => exact congrArg (x :: ·) ih
  rw [← hfst ids, Table.keys, ofIds, List.map_map]
  rfl

theorem nodup_keys_ofIds (outputs : Table String Nat) {ids : List String} (h : ids.Nodup) :
    (Table.keys (ofIds outputs ids)).Nodup := by
  rw [keys_ofIds]
  exact h.sublist (List.dropLast_sublist _)

/-- Nodes with different identifiers do not write over each other's connections. -/
theorem ofNodes_eq_ofIds (outputs : Table String Nat) {nodes : List Node}
    (h : (nodes.map Node.id).Nodup) : ofNodes outputs nodes = ofIds outputs (nodes.map Node.id) := by
  have hmerge : ofNodes outputs nodes = Table.merge [] (ofIds outputs (nodes.map Node.id)) := by
    rw [Table.merge, ofIds, ← List.map_tail, List.zip_map, List.foldl_map, List.foldl_map]
    rfl
  rw [hmerge, Table.merge_eq_append (nodup_keys_ofIds outputs h) fun _ _ => List.not_mem_nil,
    List.nil_append]

theorem mem_ofIds (outputs : Table String Nat) {ids : List String} {i : Nat}
    (ha : ids[i]? = some a) (hb : ids[i + 1]? = some b) :
    (a, [("main", List.replicate ((Table.get? outputs a).getD 1) (wire a b))]) ∈
      ofIds outputs ids := by
  have hmem : (a, b) ∈ ids.zip ids.tail := by
    have hi : (ids.zip ids.tail)[i]? = some (a, b) :=
      List.getElem?_zip_eq_some.2 ⟨ha, by rwa [List.getElem?_tail]⟩
    exact List.mem_of_getElem? hi
  exact List.mem_map.2 ⟨(a, b), hmem, rfl⟩

/-- All connections are between the nodes that there are. -/
theorem ends_of_mem_ofIds {outputs : Table String Nat} {ids : List String}
    (he : (a, outlets) ∈ ofIds outputs ids) (ho : (port, wires) ∈ outlets) (hw : w ∈ wires) :
    a ∈ ids ∧ w.source = a ∧ w.target ∈ ids := by
  obtain ⟨⟨x, y⟩, hxy, heq⟩ := List.mem_map.1 he
  obtain ⟨rfl, rfl⟩ := Prod.mk.inj heq
  obtain ⟨rfl, rfl⟩ := Prod.mk.inj (List.mem_singleton.1 ho)
  obtain rfl := List.eq_of_mem_replicate hw
  obtain ⟨hx, hy⟩ := List.of_mem_zip hxy
  exact ⟨hx, rfl, List.mem_of_mem_tail hy⟩

/-- Where every node has an output, one comes from the first node to each of them. -/
theorem reaches_ofIds {outputs : Table String Nat} {ids : List String} {i : Nat}
    (h : ∀ a ∈ ids, 0 < (Table.get? outputs a).getD 1) (hr : ids[0]? = some r)
    (ha : ids[i]? = some a) : Relation.ReflTransGen (ofIds outputs ids).Leads r a := by
  induction i generalizing a with
  | zero =>
    obtain rfl := Option.some.inj (hr.symm.trans ha)
    exact .refl
  | succ i ih =>
    obtain ⟨hlt, -⟩ := List.getElem?_eq_some_iff.1 ha
    have hb : ids[i]? = some ids[i] := List.getElem?_eq_getElem (by omega)
    have hpos := h _ (List.mem_of_getElem? hb)
    refine (ih hb).tail ⟨_, _, _, mem_ofIds outputs hb ha, List.mem_singleton_self _,
      wire ids[i] a, ?_, rfl⟩
    exact List.mem_replicate.2 ⟨Nat.pos_iff_ne_zero.1 hpos, rfl⟩

end Flowplan.ConnectionMap
