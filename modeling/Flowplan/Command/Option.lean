namespace Flowplan.Command

/-- What the value of an option has to be. -/
inductive ValueKind where
  | text
  | inputFile
  | outputFile
  | choice (names : List String)
deriving DecidableEq, Repr

/-- An option of a command; without a kind of value it is a switch. -/
structure Flag where
  long : String
  short : Option String := none
  value : Option ValueKind := none
  required : Bool := false
  purpose : String
deriving DecidableEq, Repr

namespace Flag

/-- The names as messages show them. -/
def shown (f : Flag) : String :=
  String.intercalate " / " ((f.long :: f.short.toList).map fun s => "'" ++ s ++ "'")

def valueName : ValueKind → String
  | .text => "TEXT"
  | .inputFile => "FILE"
  | .outputFile => "FILE"
  | .choice names => "[" ++ String.intercalate "|" names ++ "]"

/-- The names and the value as the help shows them. -/
def usage (f : Flag) : String :=
  String.intercalate ", " (f.short.toList ++ [f.long]) ++
    ((f.value.map fun v => " " ++ valueName v).getD "")

def helpText (f : Flag) : String := f.purpose ++ if f.required then "  [required]" else ""

def help : Flag where
  long := "--help"
  purpose := "Show this message and exit."

def version : Flag where
  long := "--version"
  purpose := "Show the version and exit."

def verbose : Flag where
  long := "--verbose"
  short := some "-v"
  purpose := "Show compiler logs and full error tracebacks"

def orgId : Flag where
  long := "--org-id"
  value := some .text
  required := true
  purpose := "Organization the plan belongs to"

def actions : Flag where
  long := "--actions"
  value := some .inputFile
  purpose := "JSON file of custom action definitions"

def format : Flag where
  long := "--format"
  short := some "-f"
  value := some (.choice ["json", "table"])
  purpose := "Output format"

def output : Flag where
  long := "--output"
  short := some "-o"
  value := some .outputFile
  purpose := "Write the workflow JSON to this file"

end Flag

inductive Name where
  | validate
  | compile
  | config
deriving DecidableEq, Repr

/-- A page of help: that of the program or that of a command. -/
inductive Page where
  | program
  | command (name : Name)
deriving DecidableEq, Repr

namespace Name

def all : List Name := [.compile, .config, .validate]

def text : Name → String
  | .validate => "validate"
  | .compile => "compile"
  | .config => "config"

def ofText? (s : String) : Option Name := all.find? fun c => c.text == s

def flags : Name → List Flag
  | .validate => [.orgId, .actions, .format, .help]
  | .compile => [.orgId, .actions, .output, .help]
  | .config => [.format, .help]

def takesPlan : Name → Bool
  | .config => false
  | _ => true

def title : Name → String
  | .validate => "Validate a plan without compiling it."
  | .compile => "Compile a plan into an n8n workflow."
  | .config => "Show current configuration."

/-- What the help says below the title; an empty line stands between paragraphs. -/
def description : Name → List String
  | .validate => [
    "Runs the structural schema check and, when that passes, the business rules",
    "(trigger placement, allowed hosts, known custom actions, ...).",
    "",
    "Example:",
    "  plan-compiler validate plan.json --org-id org_123",
    "  plan-compiler validate plan.json --org-id org_123 --format json"]
  | .compile => [
    "The plan is validated first; an invalid plan is reported and nothing is",
    "written.",
    "",
    "Example:",
    "  plan-compiler compile plan.json --org-id org_123",
    "  plan-compiler compile plan.json --org-id org_123 --output workflow.json"]
  | .config => [
    "Displays configuration values loaded from environment variables and .env file."]

end Name

def planArgument : String := "PLAN_FILE"

namespace Page

def flags : Page → List Flag
  | .program => [.version, .verbose, .help]
  | .command c => c.flags

def path : Page → String
  | .program => "cli"
  | .command c => "cli " ++ c.text

def arguments : Page → String
  | .program => " COMMAND [ARGS]..."
  | .command c => if c.takesPlan then " " ++ planArgument else ""

def usage (p : Page) : String := "Usage: " ++ p.path ++ " [OPTIONS]" ++ p.arguments

def title : Page → String
  | .program => "Plan Compiler - validate automation plans and compile them to n8n workflows."
  | .command c => c.title

def description : Page → List String
  | .program => [
    "Commands:",
    "  validate       - Check a plan for structural and business-rule problems",
    "  compile        - Compile a plan into an n8n workflow graph",
    "  config         - Show current configuration",
    "",
    "Examples:",
    "  plan-compiler validate plan.json --org-id org_123",
    "  plan-compiler compile plan.json --org-id org_123 --actions actions.json",
    "  plan-compiler -v compile plan.json --org-id org_123"]
  | .command c => c.description

def commands : Page → List (String × String)
  | .program => Name.all.map fun c => (c.text, c.title)
  | .command _ => []

end Page
end Flowplan.Command
