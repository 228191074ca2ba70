import Flowplan.Locator
import Flowplan.Record.Slot
import Flowplan.Url.Redaction

namespace Flowplan

open Flowplan.Json

/-- A broken rule as it is reported. -/
structure Issue where
  path : String
  code : String
  message : String
deriving DecidableEq, Repr

namespace Issue

open Record in
def read : Json → Record.Checked Issue :=
  ofObject "ValidationIssue" [.plain "path", .plain "code", .plain "message"] fun o =>
    Issue.mk <$> (Slot.plain "path").required o string
      <*> (Slot.plain "code").required o string
      <*> (Slot.plain "message").required o string

def toJson (i : Issue) : Json :=
  .obj [("path", .str i.path), ("code", .str i.code), ("message", .str i.message)]

end Issue

/-- The rules that a plan keeps beyond its structure. -/
inductive Rule where
  | noSteps
  | startsWithoutTrigger
  | manyTriggers
  | unknownAction (slug : String)
  | forbiddenHost (url : String)
  | emptyCase
  | emptyElse
  | slackChannel (channel : String)
  | webhookPath (path : String)
  | webhookPathFormat (path : String)
  | tooDeep (limit : Int)
  /-- The rules could not be checked to the end. -/
  | interrupted
  /-- The structure of the document is broken. -/
  | malformed (message : String)
deriving DecidableEq, Repr

namespace Rule

def code : Rule → String
  | .noSteps => "NO_STEPS"
  | .startsWithoutTrigger => "MUST_START_WITH_TRIGGER"
  | .manyTriggers => "MULTIPLE_TRIGGERS"
  | .unknownAction _ => "UNKNOWN_ACTION_SLUG"
  | .forbiddenHost _ => "FORBIDDEN_HOST"
  | .emptyCase => "EMPTY_BRANCH_CASE"
  | .emptyElse => "EMPTY_BRANCH_ELSE"
  | .slackChannel _ => "INVALID_SLACK_CHANNEL"
  | .webhookPath _ => "INVALID_WEBHOOK_PATH"
  | .webhookPathFormat _ => "INVALID_WEBHOOK_PATH_FORMAT"
  | .tooDeep _ => "MAX_DEPTH_EXCEEDED"
  | .interrupted => "VALIDATION_ERROR"
  | .malformed _ => "SCHEMA_VALIDATION_FAILED"

def tooDeepSentence (limit : Int) : String :=
  "Branches can be nested at most " ++ toString limit ++ " levels deep."

def unknownActionSentence (slug : String) : String :=
  "Custom action \"" ++ slug ++ "\" is not available for your organization. " ++
    "Check the spelling or contact support to add this action."

def message : Rule → String
  | .noSteps => "Plan must contain at least one step."
  | .startsWithoutTrigger =>
    "Plan must start with a trigger step (e.g., trigger.http). Add a trigger as the first step."
  | .manyTriggers =>
    "Plan can only have one trigger step. Remove extra trigger steps or create separate plans."
  | .unknownAction slug => unknownActionSentence slug
  | .forbiddenHost url =>
    "HTTP requests to " ++ Url.redacted url ++ " are not allowed. " ++
      "Contact support to allowlist this host."
  | .emptyCase =>
    "Branch cases must contain at least one step. Add an action or remove this case."
  | .emptyElse => "Branch else clause cannot be empty. Add steps or remove the else clause."
  | .slackChannel channel =>
    "Slack channel must start with # for channels or @ for users. Got: \"" ++ channel ++ "\""
  | .webhookPath path => "Webhook path must start with /. Got: \"" ++ path ++ "\""
  | .webhookPathFormat path =>
    "Webhook path cannot contain spaces or query parameters. Got: \"" ++ path ++ "\""
  | .tooDeep limit => tooDeepSentence limit ++ " Flatten this branch or split the plan."
  | .interrupted => "An error occurred during plan validation. Please try again."
  | .malformed message => message

end Rule

/-- A broken rule and the place in the document where it is broken. -/
structure Finding where
  place : Locator
  rule : Rule
deriving DecidableEq, Repr

def Finding.toIssue (f : Finding) : Issue := ⟨f.place.text, f.rule.code, f.rule.message⟩

end Flowplan
