import Flowplan.Command.Usage
import Flowplan.Text.Basic
import Flowplan.Text.Similar

namespace Flowplan.Command

/-- What a path leads to. -/
inductive Entry where
  | file (bytes : List UInt8)
  | directory

/-- The files that a command can see. -/
abbrev Disk := String → Option Entry

inductive Format where
  | json
  | table
deriving DecidableEq, Repr

/-- A plan's file and the organization and actions to check it with. -/
structure Subject where
  plan : String
  org : String
  actions : Option String
deriving DecidableEq, Repr

/-- What the arguments ask for. -/
inductive Request where
  | validate (subject : Subject) (format : Format)
  | compile (subject : Subject) (output : Option String)
  | config (format : Format)
  | help (page : Page)
  /-- Nothing was asked for. -/
  | nothing
  | version
deriving DecidableEq, Repr

/-- A misuse on the page of the command it concerns. -/
structure UsageError where
  page : Page
  misuse : Misuse
deriving DecidableEq, Repr

/-- The options of a command in the order in which they are given, and its other arguments. -/
structure Given where
  flags : List (Flag × String)
  others : List String

/-- The options in one argument; the last one may still need a value. -/
structure Taken where
  complete : List (Flag × String)
  pending : Option (Flag × String)

namespace Given

def unknown (flags : List Flag) (name : String) : Misuse :=
  .unknownFlag name
    (((flags.map Flag.long).filter (Text.alike · name)).mergeSort fun a b => decide (a ≤ b))

/-- Letters after one dash: switches, and at most one option with a value, which may follow it. -/
def letters (flags : List Flag) : List Char → Except Misuse Taken
  | [] => .ok ⟨[], none⟩
  | c :: rest =>
    let name := "-" ++ String.singleton c
    match flags.find? fun f => f.short == some name with
    | none => .error (.unknownFlag name [])
    | some f =>
      if f.value.isNone then do
        let taken ← letters flags rest
        return { taken with complete := (f, "") :: taken.complete }
      else if rest.isEmpty then .ok ⟨[], some (f, name)⟩
      else .ok ⟨[(f, String.ofList rest)], none⟩

/-- A name and, after an equals sign, its value. -/
def assignment (arg : String) : String × Option String :=
  match Text.splitFirst '=' arg.toList with
  | some (name, value) => (String.ofList name, some (String.ofList value))
  | none => (arg, none)

def taken (flags : List Flag) (arg : String) : Except Misuse Taken :=
  let (name, value) := assignment arg
  match flags.find? fun f => f.long == name with
  | some f => match f.value, value with
    | some _, some v => .ok ⟨[(f, v)], none⟩
    | some _, none => .ok ⟨[], some (f, name)⟩
    | none, some _ => .error (.unwantedValue name)
    | none, none => .ok ⟨[(f, "")], none⟩
  | none =>
    if Text.startsWith arg "--" then .error (unknown flags name)
    else letters flags (arg.toList.drop 1)

def isFlag (arg : String) : Bool := Text.startsWith arg "-" && 1 < arg.length

/-- Options that come before the others. -/
def after (g : Given) (found : List (Flag × String)) : Given := { g with flags := found ++ g.flags }

/-- Goes through the arguments; where options and other arguments do not mix, the first other
argument ends the options. -/
def read (mixed : Bool) (flags : List Flag) (args : List String) : Except Misuse Given :=
  match args with
  | [] => .ok ⟨[], []⟩
  | arg :: rest =>
    if arg == "--" then .ok ⟨[], rest⟩
    else if isFlag arg then do
      let found ← taken flags arg
      match found.pending, rest with
      | none, rest => return (← read mixed flags rest).after found.complete
      | some (f, _), v :: rest => return (← read mixed flags rest).after (found.complete ++ [(f, v)])
      | some (_, name), [] => throw (.missingValue name)
    else if mixed then do
      let g ← read mixed flags rest
      return { g with others := arg :: g.others }
    else .ok ⟨[], arg :: rest⟩
termination_by args.length

def has (g : Given) (f : Flag) : Bool := g.flags.any fun e => e.1 = f

/-- The value that was given last. -/
def value? (g : Given) (f : Flag) : Option String :=
  (g.flags.reverse.find? fun e => e.1 = f).map (·.2)

end Given

def checkInput (disk : Disk) (param path : String) : Except Misuse Unit :=
  match disk path with
  | none => .error (.noFile param path)
  | some .directory => .error (.directory param path)
  | some (.file _) => .ok ()

def checkOutput (disk : Disk) (param path : String) : Except Misuse Unit :=
  match disk path with
  | some .directory => .error (.directory param path)
  | _ => .ok ()

/-- A value has to be of the kind that its option asks for. -/
def checkFlag (disk : Disk) (g : Given) (f : Flag) : Except Misuse Unit :=
  let value := (g.value? f).getD ""
  match f.value with
  | some .inputFile => checkInput disk f.shown value
  | some .outputFile => checkOutput disk f.shown value
  | some (.choice names) =>
    if names.contains value then .ok () else .error (.badChoice f.shown value names)
  | _ => .ok ()

/-- The plan's file, and the arguments that are too many. -/
def checkPlan (disk : Disk) (c : Name) (others : List String) :
    Except Misuse (String × List String) :=
  if c.takesPlan then
    match others with
    | [] => .error (.missingArgument planArgument)
    | plan :: rest => do
      checkInput disk ("'" ++ planArgument ++ "'") plan
      return (plan, rest)
  else .ok ("", others)

def formatOf (g : Given) : Format := if g.value? .format = some "json" then .json else .table

/-- The request of a command: what is given is checked in its order, then what is missing. -/
def Name.request (disk : Disk) (c : Name) (args : List String) : Except Misuse Request := do
  let g ← Given.read true c.flags args
  if g.has .help then return .help (.command c)
  (g.flags.map (·.1)).eraseDups.forM (checkFlag disk g)
  let (plan, rest) ← checkPlan disk c g.others
  match c.flags.find? fun f => f.required && !g.has f with
  | some f => throw (.missingFlag f)
  | none => pure ()
  if !rest.isEmpty then throw (.tooMany rest)
  let subject : Subject := ⟨plan, (g.value? .orgId).getD "", g.value? .actions⟩
  match c with
  | .validate => return .validate subject (formatOf g)
  | .compile => return .compile subject (g.value? .output)
  | .config => return .config (formatOf g)

/-- What the options of the program itself ask for, if they ask for anything. -/
def Given.programRequest? (g : Given) : Option Request :=
  g.flags.findSome? fun (f, _) =>
    if f = .help then some (.help .program)
    else if f = .version then some .version
    else none

/-- A name that is no command may be meant as an option. -/
def unknownCommand (name : String) (args : List String) : Except Misuse Request := do
  let alike := (Name.all.map Name.text).filter (Text.alike · name)
  if Given.isFlag name then
    let g ← Given.read false Page.program.flags args
    match g.programRequest? with
    | some r => return r
    | none => throw (.unknownCommand name alike)
  else throw (.unknownCommand name alike)

def onPage (p : Page) (r : Except Misuse Request) : Except UsageError Request :=
  r.mapError (UsageError.mk p)

/-- What the arguments of the program ask for. -/
def Request.ofArguments (disk : Disk) (args : List String) : Except UsageError Request :=
  if args.isEmpty then .ok .nothing
  else
    match Given.read false Page.program.flags args with
    | .error m => .error ⟨.program, m⟩
    | .ok g => match g.programRequest?, g.others with
      | some r, _ => .ok r
      | none, [] => .error ⟨.program, .missingCommand⟩
      | none, name :: rest => match Name.ofText? name with
        | some c => onPage (.command c) (c.request disk rest)
        | none => onPage .program (unknownCommand name (name :: rest))

/-- The directory that a path is in. -/
def parentOf (path : String) : String :=
  match Text.splitLast '/' path.toList with
  | some ([], _) => "/"
  | some (parent, _) => String.ofList parent
  | none => "."

/-- The paths that an argument may name: all of it, or the value in it. -/
def pathsIn (arg : String) : List String :=
  arg :: String.ofList (arg.toList.drop 2) :: (Given.assignment arg).2.toList

/-- All that a command may look at on a disk. -/
def paths (args : List String) : List String :=
  (args.flatMap pathsIn).flatMap fun path => [path, parentOf path]

end Flowplan.Command
