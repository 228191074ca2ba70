import Flowplan.Json.Display
import Flowplan.Json.Kind
import Flowplan.Layout.Amount
import Flowplan.Workflow.Node

namespace Flowplan.Layout

open Flowplan.Json

/-- Connections as they come to the layout: of known form, or a value that may be anything. -/
inductive Wiring where
  | typed (m : ConnectionMap)
  | untyped (v : Json)

/-- Why the layered layout is not possible. -/
inductive Fault where
  | noEntries (v : Json)
  | noOutlets (v : Json)
  | notIterable (v : Json)
  | noMembers (v : Json)
  | noTarget
  | badTarget (v : Json)
  | cycle (source id : String)
  | cycleAt (id : String)
  | amount (f : AmountFault)

def Fault.message : Fault → String
  | .noEntries v => v.noFeatureMessage "items"
  | .noOutlets v => v.noFeatureMessage "values"
  | .notIterable v => v.notIterableMessage
  | .noMembers v => v.noMembersMessage
  | .noTarget => "'target'"
  | .badTarget v => "Connection target must be a node id, got " ++ v.display
  | .cycle source id => "Dependency cycle detected between " ++ source ++ " and " ++ id
  | .cycleAt id => "Dependency cycle detected at node " ++ id
  | .amount f => f.message

/-- The target of a connection that may be anything. -/
def targetOf : Json → Except Fault String
  | .obj o => match Table.get? o "target" with
    | none => .error .noTarget
    | some v => match v with
      | .str s => .ok s
      | v => .error (.badTarget v)
  | v => .error (.noMembers v)

def targetsOf (v : Json) : Except Fault (List String) :=
  match v.parts? with
  | some vs => vs.mapM targetOf
  | none => .error (.notIterable v)

/-- The ids that each node depends on, in the order in which they come. -/
abbrev Dependencies := Table String (List String)

namespace Dependencies

def ofNodes (nodes : List Node) : Dependencies :=
  Table.ofPairs (nodes.map fun n => (n.id, []))

/-- One more dependency, unless it is known already. -/
def add (g : Dependencies) (source target : String) : Dependencies :=
  let sources := (Table.get? g target).getD []
  if sources.contains source then g else Table.set g target (sources ++ [source])

def addTargets (g : Dependencies) (source : String) (targets : List String) : Dependencies :=
  targets.foldl (fun g t =>
    let g := if Table.has g t then g else Table.set g t []
    g.add source t) g

/-- The targets below each source. -/
def edges : Wiring → Except Fault (List (String × List String))
  | .typed m => .ok (m.map fun (source, outlets) =>
      (source, outlets.flatMap fun (_, cs) => cs.map Connection.target))
  | .untyped (.obj o) => o.mapM fun (source, outlets) =>
      match outlets with
      | .obj outlets => do
        let lists ← outlets.mapM fun (_, v) => targetsOf v
        return (source, lists.flatten)
      | v => .error (.noOutlets v)
  | .untyped v => .error (.noEntries v)

/-- The dependencies that connections make; targets that are no node come last. -/
def ofWiring (nodes : List Node) (w : Wiring) : Except Fault Dependencies := do
  let found ← edges w
  return found.foldl (fun g (source, targets) => g.addTargets source targets) (ofNodes nodes)

/-- What an id depends on. -/
def sources (g : Dependencies) (id : String) : List String := (Table.get? g id).getD []

end Dependencies
end Flowplan.Layout
