import Flowplan.Plan.Wire
import Flowplan.Proofs.TableLaws

namespace Flowplan.Json
set_option autoImplicit true

mutual

/-- All numbers in a value are finite. -/
def allFinite : Json → Bool
  | .real x => x.isFinite
  | .arr vs => allFiniteItems vs
  | .obj ms => allFiniteMembers ms
  | _ => true

def allFiniteItems : List Json → Bool
  | [] => true
  | v :: rest => v.allFinite && allFiniteItems rest

def allFiniteMembers : List (String × Json) → Bool
  | [] => true
  | (_, v) :: rest => v.allFinite && allFiniteMembers rest

end

theorem allFinite_of_get? {ms : Object} (h : (Json.obj ms).allFinite = true)
    (hv : Table.get? ms key = some v) : v.allFinite = true := by
  change allFiniteMembers ms = true at h
  induction ms with
  | nil => simp [Table.get?] at hv
  | cons e rest ih =>
    obtain ⟨k, w⟩ := e
    rw [allFiniteMembers, Bool.and_eq_true] at h
    rw [Table.get?] at hv
    split at hv
    · exact Option.some.inj hv ▸ h.1
    · exact ih hv h.2

mutual

/-- A value with finite numbers only is written as it is. -/
theorem finite_eq_self (v : Json) (h : v.allFinite = true) : v.finite = v := by
  match v with
  | .real x => exact if_pos h
  | .arr vs => rw [finite, finiteItems_eq_self vs h]
  | .obj ms => rw [finite, finiteMembers_eq_self ms h]
  | .null | .bool _ | .int _ | .str _ | .unpaired _ => rfl

theorem finiteItems_eq_self (vs : List Json) (h : allFiniteItems vs = true) :
    finiteItems vs = vs := by
  match vs with
  | [] => rfl
  | v :: rest =>
    rw [allFiniteItems, Bool.and_eq_true] at h
    rw [finiteItems, finite_eq_self v h.1, finiteItems_eq_self rest h.2]

theorem finiteMembers_eq_self (ms : List (String × Json)) (h : allFiniteMembers ms = true) :
    finiteMembers ms = ms := by
  match ms with
  | [] => rfl
  | (k, v) :: rest =>
    rw [allFiniteMembers, Bool.and_eq_true] at h
    rw [finiteMembers, finite_eq_self v h.1, finiteMembers_eq_self rest h.2]

end

end Flowplan.Json
