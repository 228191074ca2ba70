import Flowplan.Rules.Finding

namespace Flowplan

open Flowplan.Json

/-- Whether a plan is valid, and the issues it has. -/
structure Verdict where
  valid : Bool
  issues : List Issue

namespace Verdict

open Record in
def read : Json → Record.Checked Verdict :=
  ofObject "ValidationResult" [.plain "valid", .plain "issues"] fun o =>
    Verdict.mk <$> (Slot.plain "valid").required o boolean
      <*> (Slot.plain "issues").withDefault o [] (list Issue.read)

def toJson (v : Verdict) : Json :=
  .obj [("valid", .bool v.valid), ("issues", .arr (v.issues.map Issue.toJson))]

end Verdict

namespace Issue

inductive Category where
  | critical
  | warning
  | info
deriving DecidableEq, Repr

def criticalCodes : List String :=
  ["SCHEMA_VALIDATION_FAILED", "MUST_START_WITH_TRIGGER", "NO_STEPS", "EMPTY_BRANCH_CASE"]

def warningCodes : List String := ["UNKNOWN_ACTION_SLUG", "FORBIDDEN_HOST", "MULTIPLE_TRIGGERS"]

/-- Issues that have to be mended before all others. -/
def blockingCodes : List String := ["SCHEMA_VALIDATION_FAILED", "MUST_START_WITH_TRIGGER"]

def category (i : Issue) : Category :=
  if criticalCodes.contains i.code then .critical
  else if warningCodes.contains i.code then .warning
  else .info

/-- The issues of one category, in their order. -/
def ofCategory (c : Category) (issues : List Issue) : List Issue :=
  issues.filter fun i => i.category = c

def counted (n : Nat) (word : String) : String :=
  toString n ++ " " ++ word ++ (if n == 1 then "" else "s")

end Issue

/-- One sentence on a verdict for people. -/
def Verdict.summary (v : Verdict) : String :=
  if v.valid then "Plan is valid and ready to use."
  else
    let total := Issue.counted v.issues.length "issue"
    let blocking := v.issues.countP fun i => Issue.blockingCodes.contains i.code
    if blocking = 0 then
      "Plan has " ++ total ++ " that should be addressed before deployment."
    else
      "Plan has " ++ total ++ " including " ++ Issue.counted blocking "critical error" ++
        ". Fix critical errors first."

end Flowplan
