import Flowplan.Layout.Placement
import Flowplan.Rules.Validation
import Flowplan.Workflow.Flatten

namespace Flowplan

open Flowplan.Json

/-- How a compilation ended, the calls it made and what it logged. -/
structure Compilation where
  outcome : Except CompileError CompileResult
  calls : List Call
  log : List LogEntry

namespace Compilation

def logger : String := "plan_compiler"

def startLog (context : Context) (p : Plan) : LogEntry :=
  ⟨logger, .info, "Compiling plan to n8n workflow plan=" ++ p.name ++ " steps=" ++
    toString p.steps.length ++ " org=" ++ redactedOrg context.org⟩

/-- A star stands for how long it took. -/
def successLog (context : Context) (w : Workflow) : LogEntry :=
  ⟨logger, .info, "Plan compiled successfully plan=" ++ w.name ++ " nodes=" ++
    toString w.nodes.length ++ " connections=" ++ toString w.connections.length ++ " org=" ++
    redactedOrg context.org ++ " duration=*"⟩

def failureLog (context : Context) : Obstacle → LogEntry
  | .refusal r =>
    ⟨logger, .error, "Plan compilation failed code=" ++ r.code ++ " step_type=" ++
      ((r.step?.bind Step.type?).getD "None") ++ " org=" ++ redactedOrg context.org ++
      " message=" ++ r.message⟩
  | .breakdown b =>
    ⟨logger, .error, "Unexpected compilation error org=" ++ redactedOrg context.org ++
      " error=" ++ b.message⟩

/-- The nodes and connections of a plan, all nodes at the origin. -/
def graph (settings : Settings) (context : Context) (p : Plan) :
    Except Obstacle (List Node × ConnectionMap) × List Call :=
  match (Builder.mk settings context p.name).flatten 0 0 p.steps with
  | (.error e, calls) => (.error e, calls)
  | (.ok f, calls) =>
    if f.nodes.isEmpty then (.error (.refusal .noNodes), calls)
    else (.ok (f.nodes, ConnectionMap.ofNodes f.outputs f.nodes), calls)

/-- The workflow of a plan with its nodes in place, and what the layout logs. -/
def workflow (settings : Settings) (options : Layout.Options) (context : Context) (p : Plan) :
    Except Obstacle Workflow × List Call × List LogEntry :=
  match graph settings context p with
  | (.error e, calls) => (.error e, calls, [])
  | (.ok (nodes, connections), calls) =>
    match Layout.auto options nodes (.typed connections) with
    | (.error f, log) => (.error (.breakdown (.amount f)), calls, log)
    | (.ok placed, log) => (.ok ⟨placed, connections, p.name⟩, calls, log)

/-- Compiles a plan whose rules are not asked; it fails only with a compile error. -/
def ofPlan (settings : Settings) (options : Layout.Options) (context : Context) (p : Plan) :
    Compilation :=
  let start := startLog context p
  match workflow settings options context p with
  | (.error e, calls, log) =>
    ⟨.error (.ofObstacle e), calls, start :: log ++ [failureLog context e]⟩
  | (.ok w, calls, log) => ⟨.ok ⟨w, p.name⟩, calls, start :: log ++ [successLog context w]⟩

end Compilation

/-- Why a document is not compiled. -/
inductive PipelineError where
  | invalid (issues : List Issue)
  | failed (e : CompileError)
  | hugeInteger (e : Plan.HugeInteger)

namespace PipelineError

/-- Each code once, in order. -/
def codes (issues : List Issue) : List String :=
  (issues.map Issue.code).eraseDups.mergeSort fun a b => decide (a ≤ b)

def invalidMessage (issues : List Issue) : String :=
  "Plan failed validation with " ++ toString issues.length ++ " issue(s): " ++
    String.intercalate ", " (codes issues)

end PipelineError

/-- How the way from a document to a workflow ended. -/
structure Pipeline where
  outcome : Except PipelineError CompileResult
  calls : List Call
  log : List LogEntry

namespace Pipeline

def ofCompilation (before : List Call) (c : Compilation) : Pipeline :=
  ⟨c.outcome.mapError .failed, before ++ c.calls, c.log⟩

def invalid (v : Validation) : Pipeline := ⟨.error (.invalid v.issues), v.calls, v.log⟩

/-- Compiles a parsed plan without asking the rules. -/
def direct (settings : Settings) (options : Layout.Options) (context : Context)
    (parsed : Plan.Parsed) : Pipeline :=
  match parsed with
  | .error ds => invalid (.ofDefects ds)
  | .ok p => ofCompilation [] (.ofPlan settings options context p)

/-- Compiles a parsed plan that keeps all rules. -/
def full (settings : Settings) (options : Layout.Options) (context : Context)
    (parsed : Plan.Parsed) : Pipeline :=
  match parsed with
  | .error ds => invalid (.ofDefects ds)
  | .ok p =>
    let v := Validation.ofPlan settings.maxBranchDepth context p
    if v.valid then ofCompilation v.calls (.ofPlan settings options (context.after v.calls) p)
    else invalid v

def ofSource (run : Plan.Parsed → Pipeline) (s : Plan.Source) : Pipeline :=
  match Plan.parse s with
  | .error e => ⟨.error (.hugeInteger e), [], []⟩
  | .ok parsed => run parsed

end Pipeline
end Flowplan
