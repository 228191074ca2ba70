import Flowplan.Context
import Flowplan.Layout.Amount
import Flowplan.Plan.Wire
import Flowplan.Record.Fault
import Flowplan.Rules.Finding

namespace Flowplan

open Flowplan.Json

/-- Why a plan is refused, with the step that is to blame. -/
inductive Refusal where
  | tooDeep (limit : Int) (step : Step)
  | unsupportedOperator (op : Json) (step : Step)
  | unknownAction (slug : String) (step : Step)
  | unsupportedStep (step : Step)
  | noNodes

/-- What breaks down while a plan is compiled without the plan being to blame by a rule. -/
inductive Breakdown where
  | outage (o : Outage)
  | unusableOperator (op : Json)
  | badNode (complaints : List Record.Complaint)
  | amount (f : Layout.AmountFault)

inductive Obstacle where
  | refusal (r : Refusal)
  | breakdown (b : Breakdown)

namespace Refusal

def code : Refusal → String
  | .tooDeep _ _ => "MAX_DEPTH_EXCEEDED"
  | .unsupportedOperator _ _ => "UNSUPPORTED_FILTER_OPERATION"
  | .unknownAction _ _ => "UNKNOWN_CUSTOM_ACTION"
  | .unsupportedStep _ => "UNSUPPORTED_STEP_TYPE"
  | .noNodes => "NO_NODES_GENERATED"

def message : Refusal → String
  | .tooDeep limit _ => Rule.tooDeepSentence limit
  | .unsupportedOperator op _ =>
    "Unsupported filter operation \"" ++ op.plain ++
      "\". Supported operations: equals, contains, gt, lt, regex"
  | .unknownAction slug _ => Rule.unknownActionSentence slug
  | .unsupportedStep step =>
    "Unsupported step type \"" ++ step.type?.getD "StepBase" ++
      "\". Use custom.action for unsupported integrations."
  | .noNodes => "Plan compilation resulted in no nodes. Ensure the plan has valid steps."

def step? : Refusal → Option Step
  | .tooDeep _ s => some s
  | .unsupportedOperator _ s => some s
  | .unknownAction _ s => some s
  | .unsupportedStep s => some s
  | .noNodes => none

end Refusal

def Breakdown.message : Breakdown → String
  | .outage o => o.message
  | .unusableOperator op => op.unusableKeyMessage
  | .badNode cs => String.intercalate "; " (cs.map Record.Complaint.message)
  | .amount f => f.message

/-- The error that a compilation ends with. -/
structure CompileError where
  code : String
  message : String
  step : Option Step
  cause : Option Breakdown

namespace CompileError

def ofObstacle : Obstacle → CompileError
  | .refusal r => ⟨r.code, r.message, r.step?, none⟩
  | .breakdown b =>
    ⟨"COMPILATION_ERROR", "Failed to compile plan: " ++ b.message, none, some b⟩

def stepType? (e : CompileError) : Option String := e.step.bind Step.type?

/-- The text of an error that shows its fields. -/
def shown (code message : String) : String :=
  "CompilerError(code=" ++ Text.quoted code ++ ", message=" ++ Text.quoted message ++ ")"

end CompileError
end Flowplan
