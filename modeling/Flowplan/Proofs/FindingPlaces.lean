import Flowplan.Proofs.RuleFindings

namespace Flowplan
set_option autoImplicit true

open Flowplan.Json

namespace Site

theorem exists_of_mem_reports {xs : List Site} (h : f ∈ reports limit context history xs) :
    ∃ x ∈ xs, ∃ granted, f ∈ x.violations limit granted := by
  induction xs generalizing history with
  | nil => exact absurd h List.not_mem_nil
  | cons x rest ih =>
    rcases List.mem_append.1 h with h | h
    · exact ⟨x, List.mem_cons_self, _, h⟩
    · obtain ⟨y, hy, hf⟩ := ih h
      exact ⟨y, List.mem_cons_of_mem _ hy, hf⟩

end Site

namespace Plan

end Plan

namespace Plan

def brokenDocument : Json :=
  let condition : Json := .obj [("field", .str "a"), ("op", .str "gt"), ("value", .int 1)]
  let slack (channel : String) : Json := .obj [("type", .str "action.slack.postMessage"),
    ("channel", .str channel), ("text", .str "b")]
  let request (url : String) : Json := .obj [("type", .str "action.http.request"),
    ("method", .str "GET"), ("url", .str url)]
  let action (slug : String) : Json := .obj [("type", .str "custom.action"),
    ("actionSlug", .str slug)]
  let trigger (path : String) : Json := .obj [("type", .str "trigger.http"),
    ("path", .str path), ("secretHmac", .bool false)]
  let way (steps : List Json) : Json := .obj [("when", condition), ("steps", .arr steps)]
  let branch (ways otherwise : List Json) : Json := .obj [("type", .str "branch"),
    ("cases", .arr ways), ("else", .arr otherwise)]
  .obj [("version", .str "1"), ("name", .str "P"), ("steps", .arr [
    slack "sales",
    branch [way [], way [branch [way [slack "below"]] [], slack "beside"]]
      [request "https://a", action "missing", request "https://b"],
    trigger "/a", trigger "b?"])]

def brokenRules : List (String × String) :=
  [("steps[0].type", "MUST_START_WITH_TRIGGER"),
   ("steps[0].channel", "INVALID_SLACK_CHANNEL"),
   ("steps[1].cases[0].steps", "EMPTY_BRANCH_CASE"),
   ("steps[1].cases[1].steps[0]", "MAX_DEPTH_EXCEEDED"),
   ("steps[1].cases[1].steps[1].channel", "INVALID_SLACK_CHANNEL"),
   ("steps[1].else[1].actionSlug", "UNKNOWN_ACTION_SLUG"),
   ("steps[1].else[2].url", "FORBIDDEN_HOST"),
   ("steps[3].path", "INVALID_WEBHOOK_PATH"),
   ("steps[3].path", "INVALID_WEBHOOK_PATH_FORMAT"),
   ("steps", "MULTIPLE_TRIGGERS")]

end Plan

/-- Collaborators that allow the first URL and nothing after it. -/
def Context.once : Context := ⟨"org", fun calls _ => .ok calls.isEmpty, fun _ _ => .ok none⟩

end Flowplan
