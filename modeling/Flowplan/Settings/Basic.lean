import Flowplan.Json.Basic

namespace Flowplan

open Flowplan.Json

def defaultAllowedHosts : List String := [
  "api.slack.com",
  "hooks.slack.com",
  "api.github.com",
  "api.salesforce.com",
  "graph.microsoft.com",
  "api.hubspot.com",
  "api.stripe.com",
  "api.zapier.com",
  "jsonplaceholder.typicode.com"]

/-- What can be configured, with its defaults. -/
structure Settings where
  logLevel : String := "INFO"
  /-- Hosts that requests may go to; what is below them may be called too. -/
  allowedHosts : List String := defaultAllowedHosts
  /-- How many branches may stand one inside the other. -/
  maxBranchDepth : Int := 16
  maxNodeNameLength : Int := 50
  webhookSignatureHeader : String := "X-Hub-Signature-256"
  webhookSecretVariable : String := "webhook_secret"
  /-- Whether the false output of a filter leads nowhere. -/
  filterFalseOutputTerminates : Bool := false
  layoutNodeWidth : Int := 240
  layoutNodeHeight : Int := 100
  layoutHorizontalSpacing : Int := 300
  layoutVerticalSpacing : Int := 150
  layoutStartX : Int := 100
  layoutStartY : Int := 100
deriving DecidableEq, Repr

namespace Settings

def default : Settings := {}

/-- The settings by the names that they are configured with. -/
def members (s : Settings) : Object :=
  [("log_level", .str s.logLevel),
    ("allowed_hosts", .arr (s.allowedHosts.map .str)),
    ("max_branch_depth", .int s.maxBranchDepth),
    ("max_node_name_length", .int s.maxNodeNameLength),
    ("webhook_signature_header", .str s.webhookSignatureHeader),
    ("webhook_secret_variable", .str s.webhookSecretVariable),
    ("filter_false_output_terminates", .bool s.filterFalseOutputTerminates),
    ("layout_node_width", .int s.layoutNodeWidth),
    ("layout_node_height", .int s.layoutNodeHeight),
    ("layout_horizontal_spacing", .int s.layoutHorizontalSpacing),
    ("layout_vertical_spacing", .int s.layoutVerticalSpacing),
    ("layout_start_x", .int s.layoutStartX),
    ("layout_start_y", .int s.layoutStartY)]

def names : List String := Table.keys default.members

end Settings

end Flowplan
