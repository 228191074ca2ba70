import Flowplan.Log.Entry
import Flowplan.Plan.Parse
import Flowplan.Rules.Check

namespace Flowplan

/-- Why the rules could not be checked to the end. -/
inductive Interruption where
  | outage (o : Outage)
  | noType
deriving DecidableEq, Repr

def Interruption.message : Interruption → String
  | .outage o => o.message
  | .noType => "'StepBase' object has no attribute 'type'"

/-- What came of a run of checks: the broken rules, all calls made so far, and why it stopped if it
did not reach the end. -/
structure Inspection where
  findings : List Finding
  calls : List Call
  interruption : Option Interruption

namespace Inspection

def found (f : Finding) (r : Inspection) : Inspection := { r with findings := f :: r.findings }

/-- Makes the checks in their order, up to the first that fails to be made. -/
def run (context : Context) (history : List Call) : List Check → Inspection
  | [] => ⟨[], history, none⟩
  | .broken f :: rest => (run context history rest).found f
  | .noType :: _ => ⟨[], history, some .noType⟩
  | .ask call otherwise :: rest =>
    match context.answer history call with
    | .error o => ⟨[], history ++ [call], some (.outage o)⟩
    | .ok true => run context (history ++ [call]) rest
    | .ok false => (run context (history ++ [call]) rest).found otherwise

def interruptedFinding : Finding := ⟨[.name "validation"], .interrupted⟩

/-- All findings; an interruption is the last one. -/
def allFindings (r : Inspection) : List Finding :=
  match r.interruption with
  | none => r.findings
  | some _ => r.findings ++ [interruptedFinding]

end Inspection

/-- What the rules say about a plan. -/
structure Validation where
  issues : List Issue
  calls : List Call
  log : List LogEntry

namespace Validation

def valid (v : Validation) : Bool := v.issues.isEmpty

def logger : String := "plan_compiler.compiler.validate_plan"

def logOf (context : Context) (r : Inspection) : List LogEntry :=
  match r.interruption with
  | none => []
  | some e => [⟨logger, .error, "Error during plan validation org=" ++ redactedOrg context.org ++
      " error=" ++ e.message⟩]

/-- Checks a plan against the rules; it always ends with a result. -/
def ofPlan (limit : Int) (context : Context) (p : Plan) : Validation :=
  let r := Inspection.run context [] (Check.ofPlan limit p)
  ⟨r.allFindings.map Finding.toIssue, r.calls, logOf context r⟩

def ofDefect (d : Plan.Defect) : Issue :=
  (Finding.mk [.name "schema"] (.malformed d.message)).toIssue

/-- The defects of a document that is no plan, as issues. -/
def ofDefects (ds : List Plan.Defect) : Validation := ⟨ds.map ofDefect, [], []⟩

def ofParsed (limit : Int) (context : Context) : Plan.Parsed → Validation
  | .ok p => ofPlan limit context p
  | .error ds => ofDefects ds

/-- The structure of a document first; the rules are asked only where it is sound. -/
def ofSource (limit : Int) (context : Context) (s : Plan.Source) :
    Except Plan.HugeInteger Validation :=
  (Plan.parse s).map (ofParsed limit context)

end Validation
end Flowplan
