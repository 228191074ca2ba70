import Flowplan.Proofs.WireReading

/-!
The canonical text of a compiled plan holds the compiled plan, and compiled plans have the same text
just if what is written of them is the same up to the order of members.
-/

namespace Flowplan
set_option autoImplicit true

open Flowplan.Json

namespace Json

/-- A value of the program without numbers that are not finite. -/
structure Tidy (v : Json) : Prop where
  wellFormed : WellFormed v
  finite : v.allFinite = true

namespace Tidy

theorem str : Tidy (.str s) := ⟨.str, rfl⟩

theorem int : Tidy (.int n) := ⟨.int, rfl⟩

theorem arr (h : ∀ v ∈ vs, Tidy v) : Tidy (.arr vs) where
  wellFormed := .arr fun v hv => (h v hv).wellFormed
  finite := allFiniteItems_iff.2 fun v hv => (h v hv).finite

theorem obj (keys : (Table.keys ms).Nodup) (h : ∀ e ∈ ms, Tidy e.2) : Tidy (.obj ms) where
  wellFormed := .obj keys fun e he => (h e he).wellFormed
  finite := allFiniteMembers_iff.2 fun e he => (h e he).finite

theorem table {α : Type} {t : Table String α} (f : α → Json) (keys : (Table.keys t).Nodup)
    (h : ∀ e ∈ t, Tidy (f e.2)) : Tidy (.obj (t.map fun e => (e.1, f e.2))) := by
  refine obj ?_ (List.forall_mem_map.2 h)
  rwa [Table.keys_map_values]

end Tidy
end Json

namespace CompileResult

/-- What the types of its fields ask of a compiled plan: nodes have identifiers of the right form,
and no key stands twice. -/
structure WellFormed (r : CompileResult) : Prop where
  ids : ∀ n ∈ r.workflow.nodes, Node.isId n.id = true
  parameters : ∀ n ∈ r.workflow.nodes, Json.WellFormed (.obj n.parameters)
  sources : (Table.keys r.workflow.connections).Nodup
  outlets : ∀ e ∈ r.workflow.connections, (Table.keys e.2).Nodup

/-- A compiled plan with finite numbers in its parameters and not nested too deeply. -/
structure Sound (r : CompileResult) : Prop extends WellFormed r where
  finite : ∀ n ∈ r.workflow.nodes, (Json.obj n.parameters).allFinite = true
  nested : r.toWire.nesting ≤ nestingLimit

variable {r s : CompileResult}

/-- A compiled plan with a single node, by its position and parameters. -/
def single (position : Int × Int) (parameters : Object) : CompileResult where
  workflow := ⟨[⟨"node_000", "Slack_a", "n8n-nodes-base.slack", 1, position, parameters, none⟩], [],
    "P"⟩
  name := "P"

end CompileResult
end Flowplan
