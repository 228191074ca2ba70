import Flowplan.Compile
import Flowplan.Rules.Summary

/-!
A plan that sorts leads, checked and compiled.
-/

namespace Flowplan.Example

open Flowplan.Json

/-- A placeholder for a value of the incoming item. -/
def placeholder (reference : String) : String := "\x7b\x7b" ++ reference ++ "\x7d\x7d"

def hotLead : Case Step where
  condition := ⟨"lead_score", .gt, .int 80⟩
  steps := [.slack "#sales-hot"
    ("Hot lead: " ++ placeholder "name" ++ " (" ++ placeholder "email" ++ ")")]

def germanLead : Case Step where
  condition := ⟨"country", .equals, .str "DE"⟩
  steps := [.request .post "https://api.hubspot.com/crm/v3/objects/contacts"
    (.given [("Authorization", .str ("Bearer " ++ placeholder "secrets.HUBSPOT_TOKEN"))])
    (.given [("properties", .obj [("email", .str (placeholder "email")),
      ("region", .str "EMEA")])])]

def leadRouter : Plan where
  version := "1"
  name := "Lead Router"
  steps := [
    .trigger "/leads" true,
    .filter ⟨"email", .contains, .str "@"⟩,
    .branch [hotLead, germanLead]
      (.given [.slack "#sales-leads" ("New lead: " ++ placeholder "name")])]

def context (settings : Settings) : Context :=
  .ofTables "org_demo_0001" (.ofList settings.allowedHosts) .empty

def issueLine (i : Issue) : String := "  " ++ i.code ++ " at " ++ i.path ++ ": " ++ i.message

def outcomeLine : Except PipelineError CompileResult → String
  | .ok r => r.toWire.print .indented
  | .error (.failed e) => e.message
  | .error (.invalid issues) => PipelineError.invalidMessage issues
  | .error (.hugeInteger e) => e.message

/-- The verdict on the plan, then its issues or the workflow. -/
def lines (settings : Settings) : List String :=
  let v := Validation.ofPlan settings.maxBranchDepth (context settings) leadRouter
  (Verdict.mk v.valid v.issues).summary ::
    if v.valid then
      [outcomeLine (Pipeline.full settings (.ofSettings settings) (context settings)
        (.ok leadRouter)).outcome]
    else v.issues.map issueLine

def output (settings : Settings) : String := String.join ((lines settings).map (·.push '\n'))

end Flowplan.Example
