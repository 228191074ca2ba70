import Flowplan.Proofs.ReorderedRules
import Flowplan.Proofs.SchemaOutcome
import Mathlib.Data.Multiset.AddSub

/-!
When a value breaks the same rules of two schemas that are alike: the same violations, in some order,
with the quoted parts of a schema in theirs.
-/

namespace Flowplan.Schema
set_option autoImplicit true

open Flowplan.Json

/-- Two messages that say the same: one may quote parts of a schema with their members in another
order. -/
inductive SameMessage : String → String → Prop
  | same : SameMessage m m
  | quoting (before after : String) (parts : List.Forall₂ Alike rules rules') :
      SameMessage (before ++ String.intercalate ", " (rules.map Json.display) ++ after)
        (before ++ String.intercalate ", " (rules'.map Json.display) ++ after)

namespace SameMessage

theorem quote (before after : String) (h : Alike r r') :
    SameMessage (before ++ r.display ++ after) (before ++ r'.display ++ after) := by
  have hquote := quoting before after (.cons h .nil)
  rwa [List.map_singleton, List.map_singleton, String.intercalate_singleton,
    String.intercalate_singleton] at hquote

end SameMessage

/-- The same violation of rules that are alike. The alternatives of a choice correspond in their
order, and the violations of each of them in some order. -/
inductive SameViolation : Violation → Violation → Prop
  | mk (place : w.place = v.place) (keyword : w.keyword = v.keyword)
      (subject : w.subject = v.subject) (rule : Alike v.rule w.rule)
      (message : SameMessage v.message w.message)
      (alternatives : List.Forall₂
        (fun (vs ws : List Violation) => Multiset.Rel SameViolation ↑vs ↑ws)
        v.alternatives w.alternatives) : SameViolation v w

/-- The same violations, in any order. -/
def SameViolations (vs ws : List Violation) : Prop := Multiset.Rel SameViolation ↑vs ↑ws

namespace SameViolations

theorem nil : SameViolations [] [] := Multiset.Rel.zero

theorem append (h : SameViolations vs ws) (h' : SameViolations vs' ws') :
    SameViolations (vs ++ vs') (ws ++ ws') := by
  rw [SameViolations, ← Multiset.coe_add, ← Multiset.coe_add]
  exact Multiset.Rel.add h h'

theorem cons (h : SameViolation v w) (hrest : SameViolations vs ws) :
    SameViolations (v :: vs) (w :: ws) := Multiset.Rel.cons h hrest

theorem length_eq (h : SameViolations vs ws) : vs.length = ws.length :=
  Multiset.card_eq_card_of_rel h

theorem isEmpty_eq (h : SameViolations vs ws) : vs.isEmpty = ws.isEmpty := by
  cases vs with
  | nil => rw [List.eq_nil_of_length_eq_zero h.length_eq.symm]
  | cons v vs => cases ws with
    | nil => exact absurd h.length_eq (Nat.succ_ne_zero _)
    | cons w ws => rfl

end SameViolations

/-- Both fail, or both come to values that a relation holds of. -/
inductive Agree {α β : Type} (R : α → β → Prop) : Except Failure α → Except Failure β → Prop
  | failed : Agree R (.error e) (.error f)
  | ok (h : R a b) : Agree R (.ok a) (.ok b)

namespace Agree

variable {α β γ δ : Type} {R : α → β → Prop} {S : γ → δ → Prop}

theorem bind {f : α → Except Failure γ} {g : β → Except Failure δ} (h : Agree R o p)
    (hnext : ∀ a b, R a b → Agree S (f a) (g b)) : Agree S (o >>= f) (p >>= g) := by
  cases h with
  | failed => exact .failed
  | ok hab => exact hnext _ _ hab

theorem trans {T : α → γ → Prop} {S : β → γ → Prop} (h : Agree R o p) (h' : Agree S p q)
    (hT : ∀ a b c, R a b → S b c → T a c) : Agree T o q := by
  cases h with
  | failed => cases h' with
    | failed => exact .failed
  | ok hab => cases h' with
    | ok hbc => exact .ok (hT _ _ _ hab hbc)

end Agree

section

variable {α β : Type} {R : α → β → Prop} {f : α → Outcome} {g : β → Outcome}

end

end Flowplan.Schema
