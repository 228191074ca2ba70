import Flowplan.Context
import Flowplan.Plan.Basic
import Flowplan.Rules.Finding

namespace Flowplan

/-- One thing that the rules ask about a plan, in the order of asking: a rule that is broken
whatever anyone answers, a question that has to be answered with yes, or the type of a step that
has none. -/
inductive Check where
  | broken (f : Finding)
  | ask (call : Call) (otherwise : Finding)
  | noType

namespace Check

def brokenIf (bad : Bool) (place : Locator) (rule : Rule) : List Check :=
  if bad then [.broken ⟨place, rule⟩] else []

def ofWebhookPath (place : Locator) (path : String) : List Check :=
  brokenIf (!Text.startsWith path "/") (place ++ [.name "path"]) (.webhookPath path) ++
  brokenIf (path.toList.contains ' ' || path.toList.contains '?') (place ++ [.name "path"])
    (.webhookPathFormat path)

def ofChannel (place : Locator) (channel : String) : List Check :=
  brokenIf (!(Text.startsWith channel "#" || Text.startsWith channel "@"))
    (place ++ [.name "channel"]) (.slackChannel channel)

mutual

/-- The checks of a step at a place, inside so many branches; a branch that is too deep is not
looked into. -/
def ofStep (limit : Int) (depth : Nat) (place : Locator) : Step → List Check
  | .trigger path _ => ofWebhookPath place path
  | .slack channel _ => ofChannel place channel
  | .request _ url _ _ =>
    [.ask (.allows url) ⟨place ++ [.name "url"], .forbiddenHost url⟩]
  | .action slug _ =>
    [.ask (.resolve slug) ⟨place ++ [.name "actionSlug"], .unknownAction slug⟩]
  | .branch cases otherwise =>
    if limit ≤ depth then [.broken ⟨place, .tooDeep limit⟩]
    else ofCases limit depth place 0 cases ++ ofElse limit depth place otherwise
  | .filter _ => []
  | .bare _ => []

def ofCases (limit : Int) (depth : Nat) (place : Locator) (i : Nat) : List (Case Step) → List Check
  | [] => []
  | ⟨_, steps⟩ :: rest =>
    let here := place ++ [.name "cases", .index i, .name "steps"]
    (if steps.isEmpty then [.broken ⟨here, .emptyCase⟩]
      else ofSteps limit (depth + 1) here 0 steps) ++
    ofCases limit depth place (i + 1) rest

def ofElse (limit : Int) (depth : Nat) (place : Locator) : Member (List Step) → List Check
  | .given steps =>
    let here := place ++ [.name "else"]
    if steps.isEmpty then [.broken ⟨here, .emptyElse⟩]
    else ofSteps limit (depth + 1) here 0 steps
  | .absent => []
  | .null => []

def ofSteps (limit : Int) (depth : Nat) (place : Locator) (i : Nat) : List Step → List Check
  | [] => []
  | s :: rest =>
    ofStep limit depth (place ++ [.index i]) s ++ ofSteps limit depth place (i + 1) rest

end

/-- A plan has steps, and the first one is a trigger. -/
def ofStart (steps : List Step) : List Check :=
  match steps with
  | [] => [.broken ⟨[.name "steps"], .noSteps⟩]
  | s :: _ => match s.isTrigger? with
    | none => [.noType]
    | some isTrigger =>
      brokenIf (!isTrigger) [.name "steps", .index 0, .name "type"] .startsWithoutTrigger

/-- A plan has no second trigger among its own steps. -/
def ofTriggers (steps : List Step) : List Check :=
  match steps.mapM Step.isTrigger? with
  | none => [.noType]
  | some triggers => brokenIf (1 < triggers.count true) [.name "steps"] .manyTriggers

/-- Everything that the rules ask about a plan. -/
def ofPlan (limit : Int) (p : Plan) : List Check :=
  ofStart p.steps ++ ofSteps limit 0 [.name "steps"] 0 p.steps ++ ofTriggers p.steps

end Check
end Flowplan
