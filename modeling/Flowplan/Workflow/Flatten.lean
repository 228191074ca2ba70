import Flowplan.Workflow.Build

namespace Flowplan

open Flowplan.Json

/-- What the nodes of a plan are made with. -/
structure Builder where
  settings : Settings
  context : Context
  planName : String

/-- A computation that asks the registry: it keeps the calls also where it fails. -/
abbrev Build := ExceptT Obstacle (StateM (List Call))

namespace Build

def ofExcept {α : Type} (r : Except Obstacle α) : Build α := ExceptT.mk (pure r)

def resolve (context : Context) (slug : String) : Build (Option Action.Definition) := do
  let history ← getThe (List Call)
  set (history ++ [Call.resolve slug])
  match context.resolve history slug with
  | .ok d => return d
  | .error o => throw (.breakdown (.outage o))

end Build

/-- Nodes in order, the number of outputs of each decision among them, and the next free number. -/
structure Flattened where
  nodes : List Node
  outputs : Table String Nat
  next : Int

namespace Flattened

def empty (index : Int) : Flattened := ⟨[], [], index⟩

/-- The second after the first, from whose next number it was made. -/
def append (f g : Flattened) : Flattened :=
  ⟨f.nodes ++ g.nodes, Table.merge f.outputs g.outputs, g.next⟩

end Flattened

namespace Builder

/-- The node of one step. -/
def node (b : Builder) (id : String) (step : Step) : Build Node := do
  match step with
  | .trigger path signed =>
    Build.ofExcept (Node.webhook b.settings b.planName id path signed).checked
  | .filter c =>
    let condition ← Build.ofExcept (Node.condition c step)
    Build.ofExcept (Node.filter b.settings id c.field condition).checked
  | .branch cases otherwise =>
    let rules ← Build.ofExcept (Node.rulesFrom step 0 cases)
    let fallback := Node.fallbackOutput cases.length otherwise
    Build.ofExcept (Node.switch b.settings id rules fallback).checked
  | .slack channel text => Build.ofExcept (Node.slack b.settings id channel text).checked
  | .request method url headers body =>
    Build.ofExcept (Node.request b.settings id (Node.hostLabel url) method.name url
      headers.toOption body.toOption).checked
  | .action slug input =>
    match ← Build.resolve b.context slug with
    | none => throw (.refusal (.unknownAction slug step))
    | some d =>
      Build.ofExcept (Node.request b.settings id ("Custom_" ++ slug) d.method d.url d.headers
        (Node.actionBody d.body input.toOption)).checked
  | .bare _ => throw (.refusal (.unsupportedStep step))

/-- The number of outputs of a decision; other steps have none on record. -/
def outputCount? (b : Builder) : Step → Option Nat
  | .filter _ => some (if b.settings.filterFalseOutputTerminates then 1 else 2)
  | .branch cases otherwise =>
    some (cases.length + otherwise.toOption.toList.length)
  | _ => none

/-- One step's own node, without what is below it. -/
def own (b : Builder) (depth index : Int) (step : Step) : Build Flattened := do
  let id := nodeId index
  match step with
  | .branch _ _ =>
    if b.settings.maxBranchDepth ≤ depth then
      throw (.refusal (.tooDeep b.settings.maxBranchDepth step))
  | _ => pure ()
  let n ← b.node id step
  let outputs := match b.outputCount? step with
    | some count => [(id, count)]
    | none => []
  return ⟨[n], outputs, index + 1⟩

mutual

/-- A step's node, then the nodes of everything below it in document order. -/
def flattenStep (b : Builder) (depth index : Int) : Step → Build Flattened
  | .branch cases otherwise => do
    let top ← b.own depth index (.branch cases otherwise)
    let below ← flattenCases b (depth + 1) top.next cases
    let last ← flattenElse b (depth + 1) below.next otherwise
    return (top.append below).append last
  | .trigger path signed => b.own depth index (.trigger path signed)
  | .filter c => b.own depth index (.filter c)
  | .slack channel text => b.own depth index (.slack channel text)
  | .request method url headers body => b.own depth index (.request method url headers body)
  | .action slug input => b.own depth index (.action slug input)
  | .bare type => b.own depth index (.bare type)

def flattenCases (b : Builder) (depth index : Int) : List (Case Step) → Build Flattened
  | [] => return .empty index
  | ⟨_, steps⟩ :: rest => do
    let first ← flattenList b depth index steps
    let others ← flattenCases b depth first.next rest
    return first.append others

def flattenElse (b : Builder) (depth index : Int) : Member (List Step) → Build Flattened
  | .given steps => flattenList b depth index steps
  | .absent => return .empty index
  | .null => return .empty index

def flattenList (b : Builder) (depth index : Int) : List Step → Build Flattened
  | [] => return .empty index
  | s :: rest => do
    let first ← flattenStep b depth index s
    let others ← flattenList b depth first.next rest
    return first.append others

end

/-- The nodes of a sequence of steps, numbered from an index. -/
def flatten (b : Builder) (depth index : Int) (steps : List Step) :
    Except Obstacle Flattened × List Call :=
  (b.flattenList depth index steps).run.run []

end Builder

namespace ConnectionMap

def wire (source target : String) : Connection := ⟨source, "main", target, "main"⟩

/-- Each node leads to the next one, a decision with as many connections as it has outputs. -/
def ofNodes (outputs : Table String Nat) (nodes : List Node) : ConnectionMap :=
  (nodes.zip nodes.tail).foldl (fun m (a, b) =>
    Table.set m a.id
      [("main", List.replicate ((Table.get? outputs a.id).getD 1) (wire a.id b.id))]) []

end ConnectionMap
end Flowplan
