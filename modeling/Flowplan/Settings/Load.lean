import Flowplan.Hosts
import Flowplan.Json.Reader
import Flowplan.Record.Slot
import Flowplan.Settings.Basic
import Flowplan.Settings.EnvFile

namespace Flowplan.Settings

open Flowplan.Json Flowplan.Record

/-- Where settings are found: arguments go before environment variables, and those before a file. -/
structure Sources where
  arguments : Object
  environment : Table String String
  file : Option String

inductive Origin where
  | environment
  | file
deriving DecidableEq, Repr

def Origin.name : Origin → String
  | .environment => "EnvSettingsSource"
  | .file => "DotEnvSettingsSource"

inductive LoadError where
  /-- The text for a setting that is a list is no JSON. -/
  | unreadable (name : String) (origin : Origin)
  | invalid (complaints : List Complaint)

/-- Why a text was not read. -/
def LoadError.unreadableMessage (name : String) (origin : Origin) : String :=
  "error parsing value for field \"" ++ name ++ "\" from source \"" ++ origin.name ++ "\""

/-- The same names in lower case. -/
def lowered {α : Type} (t : Table String α) : Table String α :=
  Table.ofPairs (t.map fun (k, v) => (Unicode.lower k, v))

/-- The value of a variable: a list is written as JSON, and null leaves it out. -/
def ofText (origin : Origin) (name text : String) : Except LoadError (Option Json) :=
  if name = "allowed_hosts" then
    match Json.read text with
    | .ok .null => .ok none
    | .ok v => .ok (some v)
    | .error _ => .error (.unreadable name origin)
  else .ok (some (.str text))

def ofVariables (origin : Origin) (vs : EnvFile.Variables) : Except LoadError Object := do
  let found ← names.mapM fun name =>
    match (Table.get? (lowered vs) name).join with
    | some text => do return (← ofText origin name text).map (name, ·)
    | none => return none
  return found.filterMap id

def ofMembers (o : Object) : Checked Settings :=
  let d := default
  Settings.mk <$> (Slot.plain "log_level").withDefault o d.logLevel
      (fun v => (string v).map Unicode.upper)
    <*> (Slot.plain "allowed_hosts").withDefault o d.allowedHosts
      (fun v => (list string v).map Hosts.normalized)
    <*> (Slot.plain "max_branch_depth").withDefault o d.maxBranchDepth (integerFrom 1)
    <*> (Slot.plain "max_node_name_length").withDefault o d.maxNodeNameLength (integerFrom 1)
    <*> (Slot.plain "webhook_signature_header").withDefault o d.webhookSignatureHeader string
    <*> (Slot.plain "webhook_secret_variable").withDefault o d.webhookSecretVariable string
    <*> (Slot.plain "filter_false_output_terminates").withDefault o
      d.filterFalseOutputTerminates boolean
    <*> (Slot.plain "layout_node_width").withDefault o d.layoutNodeWidth integer
    <*> (Slot.plain "layout_node_height").withDefault o d.layoutNodeHeight integer
    <*> (Slot.plain "layout_horizontal_spacing").withDefault o d.layoutHorizontalSpacing integer
    <*> (Slot.plain "layout_vertical_spacing").withDefault o d.layoutVerticalSpacing integer
    <*> (Slot.plain "layout_start_x").withDefault o d.layoutStartX integer
    <*> (Slot.plain "layout_start_y").withDefault o d.layoutStartY integer

/-- The settings of all sources; names are found in any case, and unknown ones do not count. -/
def load (s : Sources) : Except LoadError Settings := do
  let environment := s.environment.map fun (k, v) => (k, some v)
  let fromEnvironment ← ofVariables .environment environment
  let fromFile ← ofVariables .file ((s.file.map (EnvFile.read environment)).getD [])
  match ofMembers (Table.merge (Table.merge fromFile fromEnvironment) (lowered s.arguments)) with
  | .valid settings => return settings
  | .invalid cs => throw (.invalid cs)

end Flowplan.Settings
