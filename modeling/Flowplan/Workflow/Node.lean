import Flowplan.Json.Writer
import Flowplan.Plan.Wire
import Flowplan.Record.Slot

namespace Flowplan

open Flowplan.Json Flowplan.Record

/-- One node of a workflow graph. -/
structure Node where
  id : String
  name : String
  type : String
  typeVersion : Int
  position : Int × Int
  parameters : Object
  webhookId : Option String

namespace Node

def idPattern : String := "^node_\\d\x7b3,\x7d$"

/-- A fixed start and three or more digits. -/
def isId (s : String) : Bool :=
  match Text.after? "node_" s with
  | some rest => 3 ≤ rest.length && rest.toList.all Unicode.isDecimalDigit
  | none => false

def readId (v : Json) : Checked String :=
  (string v).andThen fun s => if isId s then .valid s else .refuse (.pattern idPattern)

def fields : List Slot :=
  [.plain "id", .plain "name", .plain "type", ⟨"typeVersion", "type_version"⟩, .plain "position",
    .plain "parameters", ⟨"webhookId", "webhook_id"⟩]

def ofMembers (o : Object) : Checked Node :=
  Node.mk <$> (Slot.plain "id").required o readId
    <*> (Slot.plain "name").required o string
    <*> (Slot.plain "type").required o string
    <*> (Slot.mk "typeVersion" "type_version").required o integer
    <*> (Slot.plain "position").withDefault o (0, 0) integerPair
    <*> (Slot.plain "parameters").withDefault o [] object
    <*> (Slot.mk "webhookId" "webhook_id").withDefault o none (orNull string)

def read : Json → Checked Node := ofObject "Node" fields ofMembers

def members (n : Node) : Object :=
  [("id", .str n.id), ("name", .str n.name), ("type", .str n.type),
    ("typeVersion", .int n.typeVersion),
    ("position", .arr [.int n.position.1, .int n.position.2]),
    ("parameters", (Json.obj n.parameters).finite)]

/-- A node with a webhook identifier only where it has one. -/
def toWire (n : Node) : Json :=
  .obj (n.members ++ match n.webhookId with
    | some id => [("webhookId", .str id)]
    | none => [])

/-- A node with all of its fields. -/
def toJson (n : Node) : Json :=
  .obj (n.members ++ [("webhookId", match n.webhookId with
    | some id => .str id
    | none => .null)])

def place (n : Node) (position : Int × Int) : Node := { n with position }

end Node

/-- A wire from an output of one node to an input of another. -/
structure Connection where
  source : String
  sourceOutput : String
  target : String
  targetInput : String
deriving DecidableEq, Repr

namespace Connection

def fields : List Slot :=
  [.plain "source", ⟨"sourceOutput", "source_output"⟩, .plain "target",
    ⟨"targetInput", "target_input"⟩]

def ofMembers (o : Object) : Checked Connection :=
  Connection.mk <$> (Slot.plain "source").required o string
    <*> (Slot.mk "sourceOutput" "source_output").withDefault o "main" string
    <*> (Slot.plain "target").required o string
    <*> (Slot.mk "targetInput" "target_input").withDefault o "main" string

def read : Json → Checked Connection := ofObject "Connection" fields ofMembers

def toJson (c : Connection) : Json :=
  .obj [("source", .str c.source), ("sourceOutput", .str c.sourceOutput),
    ("target", .str c.target), ("targetInput", .str c.targetInput)]

end Connection

/-- The connections of each node by their outlets; the place in a list is the number of the output. -/
abbrev ConnectionMap := Table String (Table String (List Connection))

namespace ConnectionMap

def outletsToJson (outlets : Table String (List Connection)) : Json :=
  .obj (outlets.map fun (outlet, cs) => (outlet, .arr (cs.map Connection.toJson)))

def toJson (m : ConnectionMap) : Json :=
  .obj (m.map fun (id, outlets) => (id, outletsToJson outlets))

def read : Json → Checked ConnectionMap := table (table (list Connection.read))

end ConnectionMap

structure Workflow where
  nodes : List Node
  connections : ConnectionMap
  name : String

namespace Workflow

def fields : List Slot := [.plain "nodes", .plain "connections", .plain "name"]

def ofMembers (o : Object) : Checked Workflow :=
  Workflow.mk <$> (Slot.plain "nodes").required o (list Node.read)
    <*> (Slot.plain "connections").withDefault o [] ConnectionMap.read
    <*> (Slot.plain "name").required o string

def read : Json → Checked Workflow := ofObject "Workflow" fields ofMembers

def toWire (w : Workflow) : Json :=
  .obj [("nodes", .arr (w.nodes.map Node.toWire)), ("connections", w.connections.toJson),
    ("name", .str w.name)]

def toJson (w : Workflow) : Json :=
  .obj [("nodes", .arr (w.nodes.map Node.toJson)), ("connections", w.connections.toJson),
    ("name", .str w.name)]

end Workflow

/-- A compiled plan. -/
structure CompileResult where
  workflow : Workflow
  name : String

namespace CompileResult

def fields : List Slot := [.plain "workflow", .plain "name"]

def ofMembers (o : Object) : Checked CompileResult :=
  CompileResult.mk <$> (Slot.plain "workflow").required o Workflow.read
    <*> (Slot.plain "name").required o string

def read : Json → Checked CompileResult := ofObject "CompileResult" fields ofMembers

def toWire (r : CompileResult) : Json :=
  .obj [("workflow", r.workflow.toWire), ("name", .str r.name)]

def toJson (r : CompileResult) : Json :=
  .obj [("workflow", r.workflow.toJson), ("name", .str r.name)]

/-- The text of a compiled plan in which only the values count, not the order of their members. -/
def canonical (r : CompileResult) : Except WriteError String := r.toWire.canonical

end CompileResult
end Flowplan
