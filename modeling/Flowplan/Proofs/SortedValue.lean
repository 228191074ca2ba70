import Flowplan.Proofs.PrintedValue
import Mathlib.Data.List.Perm.Basic

/-!
Values that differ at most in the order of their members, and the value with its members in order
that stands for all of them.
-/

namespace Flowplan
set_option autoImplicit true

open Flowplan.Json

namespace Table

variable {κ α β : Type} [DecidableEq κ]

theorem get?_map_values (f : α → β) (t : Table κ α) (key : κ) :
    get? (t.map fun e => (e.1, f e.2)) key = (t.get? key).map f := by
  induction t with
  | nil => rfl
  | cons e rest ih =>
    rw [List.map_cons, get?, get?, ih]
    split <;> rfl

omit [DecidableEq κ] in
theorem keys_map_values (f : α → β) (t : Table κ α) :
    keys (t.map fun e => (e.1, f e.2)) = keys t := by
  rw [keys, keys, List.map_map]
  rfl

end Table

namespace Json

/-- Two values are the same up to the order of the members of objects, at every depth. An integer
and a number with a fraction or an exponent are different. -/
inductive Alike : Json → Json → Prop
  | null : Alike .null .null
  | bool : Alike (.bool b) (.bool b)
  | int : Alike (.int n) (.int n)
  | real : Alike (.real x) (.real x)
  | str : Alike (.str s) (.str s)
  | unpaired : Alike (.unpaired s) (.unpaired s)
  | arr {vs ws : List Json} (length : vs.length = ws.length)
      (each : ∀ (i : Nat) v w, vs[i]? = some v → ws[i]? = some w → Alike v w) :
      Alike (.arr vs) (.arr ws)
  | obj {o p : Object} (keys : ∀ key, key ∈ Table.keys o ↔ key ∈ Table.keys p)
      (each : ∀ key v w, Table.get? o key = some v → Table.get? p key = some w → Alike v w) :
      Alike (.obj o) (.obj p)

namespace Alike

theorem symm (h : Alike v w) : Alike w v := by
  induction h with
  | null => exact .null
  | bool => exact .bool
  | int => exact .int
  | real => exact .real
  | str => exact .str
  | unpaired => exact .unpaired
  | arr length each ih => exact .arr length.symm fun i v w hv hw => ih i w v hw hv
  | obj keys each ih =>
    exact .obj (fun key => (keys key).symm) fun key v w hv hw => ih key w v hw hv

theorem trans (h : Alike u v) (h' : Alike v w) : Alike u w := by
  induction h generalizing w with
  | null => exact h'
  | bool => exact h'
  | int => exact h'
  | real => exact h'
  | str => exact h'
  | unpaired => exact h'
  | arr length each ih =>
    cases h' with
    | arr length' each' =>
      refine .arr (length.trans length') fun i u w hu hw => ?_
      have hi := length ▸ (List.getElem?_eq_some_iff.1 hu).1
      have hv := List.getElem?_eq_getElem hi
      exact ih i u _ hu hv (each' i _ w hv hw)
  | obj keys each ih =>
    cases h' with
    | obj keys' each' =>
      refine .obj (fun key => (keys key).trans (keys' key)) fun key u w hu hw => ?_
      obtain ⟨v, hv⟩ := Table.mem_keys_iff_get?.1
        ((keys key).1 (Table.mem_keys_iff_get?.2 ⟨u, hu⟩))
      exact ih key u v hu hv (each' key v w hv hw)

end Alike

theorem sortedItems_eq (vs : List Json) : sortedItems vs = vs.map sorted := by
  induction vs with
  | nil => rfl
  | cons v rest ih => rw [sortedItems, ih, List.map_cons]

theorem sortedMembers_eq (ms : List (String × Json)) :
    sortedMembers ms = ms.map fun e => (e.1, e.2.sorted) := by
  induction ms with
  | nil => rfl
  | cons e rest ih =>
    obtain ⟨k, v⟩ := e
    rw [sortedMembers, ih, List.map_cons]

/-- The members in order are a permutation of those with their values in order. -/
theorem sorted_obj (ms : List (String × Json)) : ∃ ns, (Json.obj ms).sorted = .obj ns ∧
    (ms.map fun e => (e.1, e.2.sorted)).Perm ns := by
  refine ⟨_, rfl, ?_⟩
  rw [sortedMembers_eq]
  exact (List.mergeSort_perm _ _).symm

theorem Legible.sorted (hv : Legible v) : Legible v.sorted := by
  induction hv with
  | null => exact .null
  | bool => exact .bool
  | int few => exact .int few
  | real single => exact .real single
  | str => exact .str
  | arr each ih =>
    rw [Json.sorted, sortedItems_eq]
    exact .arr (List.forall_mem_map.2 ih)
  | @obj ms keys each ih =>
    obtain ⟨ns, hns, hperm⟩ := sorted_obj ms
    rw [hns]
    refine .obj ?_ fun e he => ?_
    · have hkeys := Table.keys_map_values Json.sorted ms ▸ keys
      exact (hperm.map _).nodup_iff.1 hkeys
    · obtain ⟨e, hmem, rfl⟩ := List.mem_map.1 (hperm.mem_iff.2 he)
      exact ih e hmem

theorem Printable.sorted (hv : Printable v) : Legible v.sorted := hv.legible.sorted

end Json
end Flowplan
