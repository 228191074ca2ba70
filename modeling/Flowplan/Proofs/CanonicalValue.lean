import Flowplan.Proofs.FiniteNumbers
import Flowplan.Proofs.SortedValue

/-!
The canonical text of a value is the same for all orders of its members and for nothing else.
-/

namespace Flowplan.Json
set_option autoImplicit true

open Decimal (Binary64)
open Reader

/-- The values of the program: every string is text, and no key stands twice in an object. -/
inductive WellFormed : Json → Prop
  | null : WellFormed .null
  | bool : WellFormed (.bool b)
  | int : WellFormed (.int n)
  | real : WellFormed (.real x)
  | str : WellFormed (.str s)
  | arr (each : ∀ v ∈ vs, WellFormed v) : WellFormed (.arr vs)
  | obj (keys : (Table.keys ms).Nodup) (each : ∀ e ∈ ms, WellFormed e.2) : WellFormed (.obj ms)

theorem allFiniteItems_iff : allFiniteItems vs = true ↔ ∀ v ∈ vs, v.allFinite = true := by
  induction vs with
  | nil => simp [allFiniteItems]
  | cons v rest ih => rw [allFiniteItems, Bool.and_eq_true, ih, List.forall_mem_cons]

theorem allFiniteMembers_iff : allFiniteMembers ms = true ↔ ∀ e ∈ ms, e.2.allFinite = true := by
  induction ms with
  | nil => simp [allFiniteMembers]
  | cons e rest ih =>
    obtain ⟨k, v⟩ := e
    rw [allFiniteMembers, Bool.and_eq_true, ih, List.forall_mem_cons]

theorem writableItems_iff : writableItems vs = true ↔ ∀ v ∈ vs, v.writable = true := by
  induction vs with
  | nil => simp [writableItems]
  | cons v rest ih => rw [writableItems, Bool.and_eq_true, ih, List.forall_mem_cons]

theorem writableMembers_iff : writableMembers ms = true ↔ ∀ e ∈ ms, e.2.writable = true := by
  induction ms with
  | nil => simp [writableMembers]
  | cons e rest ih =>
    obtain ⟨k, v⟩ := e
    rw [writableMembers, Bool.and_eq_true, ih, List.forall_mem_cons]

theorem WellFormed.printable (h : WellFormed v) (hfinite : v.allFinite = true)
    (hwritable : v.writable = true) : Printable v := by
  induction h with
  | null => exact .null
  | bool => exact .bool
  | int => exact .int (of_decide_eq_true hwritable)
  | real => exact .real hfinite
  | str => exact .str
  | arr each ih =>
    have hfinite := allFiniteItems_iff.1 hfinite
    have hwritable := writableItems_iff.1 hwritable
    exact .arr fun v hv => ih v hv (hfinite v hv) (hwritable v hv)
  | obj keys each ih =>
    have hfinite := allFiniteMembers_iff.1 hfinite
    have hwritable := writableMembers_iff.1 hwritable
    exact .obj keys fun e he => ih e he (hfinite e he) (hwritable e he)

theorem Printable.writable (h : Printable v) : v.writable = true := by
  induction h with
  | null => rfl
  | bool => rfl
  | int few => exact decide_eq_true few
  | real => rfl
  | str => rfl
  | arr each ih => exact writableItems_iff.2 ih
  | obj keys each ih => exact writableMembers_iff.2 ih

theorem Legible.wellFormed (h : Legible v) : WellFormed v := by
  induction h with
  | null => exact .null
  | bool => exact .bool
  | int => exact .int
  | real => exact .real
  | str => exact .str
  | arr each ih => exact .arr ih
  | obj keys each ih => exact .obj keys ih

theorem Printable.wellFormed (h : Printable v) : WellFormed v := h.legible.wellFormed

mutual

/-- The order of members does not matter for whether a value can be written. -/
theorem writable_sorted (v : Json) : v.sorted.writable = v.writable := by
  match v with
  | .arr vs => rw [sorted, writable, writable, writableItems_sorted]
  | .obj ms =>
    rw [sorted, writable, writable, ← writableMembers_sorted ms, Bool.eq_iff_iff,
      writableMembers_iff, writableMembers_iff]
    simp only [List.mem_mergeSort]
  | .null | .bool _ | .int _ | .real _ | .str _ | .unpaired _ => rfl

theorem writableItems_sorted (vs : List Json) :
    writableItems (sortedItems vs) = writableItems vs := by
  match vs with
  | [] => rfl
  | v :: rest =>
    rw [sortedItems, writableItems, writableItems, writable_sorted v, writableItems_sorted rest]

theorem writableMembers_sorted (ms : List (String × Json)) :
    writableMembers (sortedMembers ms) = writableMembers ms := by
  match ms with
  | [] => rfl
  | (k, v) :: rest =>
    rw [sortedMembers, writableMembers, writableMembers, writable_sorted v,
      writableMembers_sorted rest]

end

end Flowplan.Json
