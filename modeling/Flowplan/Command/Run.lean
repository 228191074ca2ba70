import Flowplan.Action.Registry
import Flowplan.Command.Arguments
import Flowplan.Compile
import Flowplan.Console.Grid
import Flowplan.Console.Markup
import Flowplan.Rules.Summary
import Flowplan.Text.Encoding

namespace Flowplan.Command

open Flowplan.Json Flowplan.Console

/-- What ends a command without a message of its own. -/
inductive Crash where
  | undecodable
  | hugeInteger
  | tooDeep
  | noDirectory
  | notDirectory
  | markup
deriving DecidableEq, Repr

/-- How a command ended: what it shows, and the file it writes. -/
structure Outcome where
  exitCode : Nat
  output : String := ""
  written : Option (String × String) := none
  crash : Option Crash := none
deriving DecidableEq, Repr

namespace Outcome

def shows (output : String) : Outcome := { exitCode := 0, output }

def fails (output : String) : Outcome := { exitCode := 1, output }

def crashes (crash : Crash) (output : String) : Outcome :=
  { exitCode := 1, output, crash := some crash }

/-- A usage error has an exit code of its own. -/
def misused (e : UsageError) : Outcome := { exitCode := 2, output := e.misuse.shown e.page }

end Outcome

/-- The text of a file, with plain line breaks. -/
def textOf (disk : Disk) (path : String) : Except Crash String :=
  match disk path with
  | some (.file bytes) => match Text.decodeUtf8 bytes with
    | .ok s => .ok (String.ofList (Text.plainBreaks s.toList))
    | .error _ => .error .undecodable
  | _ => .error .noDirectory

/-- What is wrong with a file of actions. -/
inductive ActionsError where
  | crash (c : Crash)
  | unusable (reason : String)

namespace ActionsError

def ofRead (path : String) : ReadError → ActionsError
  | .hugeInteger _ => .crash .hugeInteger
  | .tooDeep => .crash .tooDeep
  | e => .unusable (path ++ " is not valid JSON: " ++ e.message)

def ofFault (f : Action.Fault) : ActionsError :=
  match f.sort with
  | .key => .unusable ("action definition is missing " ++ f.message)
  | _ => .unusable ("invalid action definition: " ++ f.message)

end ActionsError

/-- The actions of a file by their slugs. -/
def registryOf (disk : Disk) (path : String) : Except ActionsError Action.Registry := do
  let text ← (textOf disk path).mapError .crash
  let v ← (Json.read text).mapError (.ofRead path)
  match v with
  | .obj _ => (Action.Registry.ofJson v).mapError .ofFault
  | _ => throw (.unusable "expected an object keyed by action slug")

/-- An empty path counts as none. -/
def actionsOf (disk : Disk) (s : Subject) : Except ActionsError Action.Registry :=
  match s.actions with
  | none => .ok .empty
  | some path => if path.isEmpty then .ok .empty else registryOf disk path

def contextOf (settings : Settings) (disk : Disk) (s : Subject) : Except ActionsError Context :=
  (actionsOf disk s).map (Context.ofTables s.org (.ofList settings.allowedHosts))

def categoryName : Issue.Category → String
  | .critical => "critical"
  | .warning => "warning"
  | .info => "info"

def issueRow (c : Issue.Category) (i : Issue) : List String :=
  [categoryName c, i.code, Markup.escape i.path, Markup.escape i.message]

/-- The issues by their categories in a table, the gravest first. -/
def issuesGrid (issues : List Issue) : Grid where
  title := "Issues"
  columns := [⟨"Severity", .center⟩, ⟨"Code", .left⟩, ⟨"Path", .left⟩, ⟨"Message", .left⟩]
  rows := [Issue.Category.critical, .warning, .info].flatMap fun c =>
    (Issue.ofCategory c issues).map (issueRow c)

/-- A table whose cells may have tags, if the tags of each cell fit each other. -/
def gridText? (g : Grid) : Option String := do
  let rows ← g.rows.mapM (List.mapM Markup.render?)
  return Grid.shown { g with rows }

/-- What is shown where tags do not fit; nothing more is shown then. -/
def withMarkup (output : String) (shown : Option String) (next : String → Outcome) : Outcome :=
  match shown with
  | some s => next (output ++ s)
  | none => .crashes .markup output

def failing (output message : String) : Outcome :=
  withMarkup output ((Markup.render? ("[bold]Error:[/bold] " ++ Markup.escape message)).map shown)
    .fails

/-- The end of a command whose actions could not be read. -/
def ActionsError.outcome (page : Page) : ActionsError → Outcome
  | .crash c => .crashes c ""
  | .unusable reason => .misused ⟨page, .badActions reason⟩

/-- A command on a plan's text, with the actions read first. -/
def withPlan (settings : Settings) (disk : Disk) (page : Page) (s : Subject)
    (next : Context → String → Outcome) : Outcome :=
  match contextOf settings disk s with
  | .error e => e.outcome page
  | .ok context => match textOf disk s.plan with
    | .error c => .crashes c ""
    | .ok text => next context text

def endOf (valid : Bool) : String → Outcome := if valid then .shows else .fails

/-- The verdict on a plan in one of the formats. -/
def showVerdict (format : Format) (v : Verdict) : Outcome :=
  match format with
  | .json => endOf v.valid (v.toJson.print .indented ++ "\n")
  | .table =>
    if v.valid then .shows (shown ("✓ " ++ v.summary))
    else withMarkup "" (gridText? (issuesGrid v.issues)) fun output =>
      .fails (output ++ shown v.summary)

def checkPlanFile (settings : Settings) (disk : Disk) (s : Subject) (format : Format) : Outcome :=
  withPlan settings disk (.command .validate) s fun context text =>
    match Validation.ofSource settings.maxBranchDepth context (.text text) with
    | .error e => failing "" ("Validation failed unexpectedly: " ++ e.message)
    | .ok v => showVerdict format ⟨v.valid, v.issues⟩

def writtenPanel (r : CompileResult) (path : String) : Option String :=
  (Markup.render? ("[bold green]✓ Compiled " ++ r.name ++ "[/bold green]\n\n[dim]Nodes: " ++
    toString r.workflow.nodes.length ++ "[/dim]\n[dim]Connections: " ++
    toString r.workflow.connections.length ++ "[/dim]\n[dim]Written to: " ++ path ++
    "[/dim]")).map panel

/-- The workflow goes to a file or is shown itself. -/
def deliver (disk : Disk) (r : CompileResult) (output : Option String) : Outcome :=
  match r.toWire.write .indented with
  | .error .hugeInteger => .crashes .hugeInteger ""
  | .ok text => match output.getD "" with
    | "" => .shows (text ++ "\n")
    | path => match disk (parentOf path) with
      | none => .crashes .noDirectory ""
      | some (.file _) => .crashes .notDirectory ""
      | some .directory =>
        { withMarkup "" (writtenPanel r path) .shows with written := some (path, text ++ "\n") }

def compilePlanFile (settings : Settings) (disk : Disk) (s : Subject) (output : Option String) : Outcome :=
  withPlan settings disk (.command .compile) s fun context text =>
    let options := Layout.Options.ofSettings settings
    match (Pipeline.ofSource (.full settings options context) (.text text)).outcome with
    | .ok r => deliver disk r output
    | .error (.invalid issues) => withMarkup "" (gridText? (issuesGrid issues)) fun shown =>
      failing shown ("Plan is invalid (" ++ toString issues.length ++ " issue(s))")
    | .error (.failed e) => failing "" ("[" ++ e.code ++ "] " ++ e.message)
    | .error (.hugeInteger _) => .crashes .hugeInteger ""

/-- The settings as they are grouped for people. -/
def sections : List (String × List String) := [
  ("Validation Policy", ["allowed_hosts", "max_branch_depth"]),
  ("Node Synthesis", ["max_node_name_length", "webhook_signature_header",
    "webhook_secret_variable", "filter_false_output_terminates"]),
  ("Layout", ["layout_node_width", "layout_node_height", "layout_horizontal_spacing",
    "layout_vertical_spacing", "layout_start_x", "layout_start_y"]),
  ("Logging", ["log_level"])]

def settingOf (settings : Settings) (name : String) : Json :=
  (Table.get? settings.members name).getD .null

def settingsJson (settings : Settings) : Json :=
  .obj (sections.map fun (title, names) =>
    (title, .obj (names.map fun name => (name, settingOf settings name))))

/-- A value in a table: the items of a list one after the other. -/
def settingText : Json → String
  | .arr vs => String.intercalate ", " (vs.map Json.plain)
  | v => v.plain

def sectionGrid (settings : Settings) (title : String) (names : List String) : Grid where
  title := title
  columns := [⟨"Setting", .left⟩, ⟨"Env Variable", .left⟩, ⟨"Value", .left⟩]
  rows := names.map fun name =>
    [name, name.map Char.toUpper, settingText (settingOf settings name)]

def showSections (settings : Settings) (output : String) : List (String × List String) → Outcome
  | [] => .shows output
  | (title, names) :: rest =>
    withMarkup output (gridText? (sectionGrid settings title names)) fun output =>
      showSections settings (output ++ "\n") rest

def showSettings (settings : Settings) (format : Format) : Outcome :=
  match format with
  | .json => .shows ((settingsJson settings).print .indented ++ "\n")
  | .table => showSections settings (panel "Plan Compiler Configuration") sections

def versionText : String := "plan-compiler, version 0.1.0\n"

def Request.run (settings : Settings) (disk : Disk) : Request → Outcome
  | .validate s format => checkPlanFile settings disk s format
  | .compile s output => compilePlanFile settings disk s output
  | .config format => showSettings settings format
  | .help page => .shows page.shown
  | .nothing => { exitCode := 2, output := Page.program.shown }
  | .version => .shows versionText

/-- The program on its arguments. -/
def run (settings : Settings) (disk : Disk) (args : List String) : Outcome :=
  match Request.ofArguments disk args with
  | .error e => .misused e
  | .ok r => r.run settings disk

end Flowplan.Command
