import Flowplan.Command.Option
import Flowplan.Text.Quoted

namespace Flowplan.Command

/-- What is wrong with the arguments of a command. -/
inductive Misuse where
  | unknownFlag (name : String) (alike : List String)
  | missingValue (flag : String)
  | unwantedValue (flag : String)
  | missingCommand
  | unknownCommand (name : String) (alike : List String)
  | missingFlag (flag : Flag)
  | missingArgument (name : String)
  | noFile (param path : String)
  | directory (param path : String)
  | badChoice (param value : String) (names : List String)
  | tooMany (arguments : List String)
  | badActions (reason : String)
deriving DecidableEq, Repr

namespace Misuse

def suggestion : List String → String
  | [] => ""
  | [s] => " Did you mean " ++ Text.quoted s ++ "?"
  | ss => " (Did you mean one of: " ++ String.intercalate ", " (ss.map Text.quoted) ++ "?)"

def invalidValue (param reason : String) : String :=
  "Invalid value for " ++ param ++ ": " ++ reason

def message : Misuse → String
  | .unknownFlag name alike => "No such option " ++ Text.quoted name ++ "." ++ suggestion alike
  | .missingValue flag => "Option " ++ Text.quoted flag ++ " requires an argument."
  | .unwantedValue flag => "Option " ++ Text.quoted flag ++ " does not take a value."
  | .missingCommand => "Missing command."
  | .unknownCommand name alike => "No such command " ++ Text.quoted name ++ "." ++ suggestion alike
  | .missingFlag flag => "Missing option " ++ flag.shown ++ "."
  | .missingArgument name => "Missing argument '" ++ name ++ "'."
  | .noFile param path => invalidValue param ("File " ++ Text.quoted path ++ " does not exist.")
  | .directory param path =>
    invalidValue param ("File " ++ Text.quoted path ++ " is a directory.")
  | .badChoice param value names =>
    invalidValue param (Text.quoted value ++ " is not one of " ++
      String.intercalate ", " (names.map Text.quoted) ++ ".")
  | .tooMany arguments =>
    "Got unexpected extra argument" ++ (if arguments.length = 1 then "" else "s") ++ " (" ++
      String.intercalate " " arguments ++ ")"
  | .badActions reason => invalidValue "--actions" reason

/-- Whether the error is shown without the usage of the command. -/
def isBare : Misuse → Bool
  | .missingValue _ => true
  | .unwantedValue _ => true
  | _ => false

/-- The error as it is shown below the usage of the command. -/
def shown (m : Misuse) (p : Page) : String :=
  let error := "Error: " ++ m.message ++ "\n"
  if m.isBare then error
  else p.usage ++ "\nTry '" ++ p.path ++ " --help' for help.\n\n" ++ error

end Misuse

namespace Page

def indented (line : String) : String := if line.isEmpty then "" else "  " ++ line

/-- Two columns, the second one aligned. -/
def listed (rows : List (String × String)) : List String :=
  let size := (rows.map fun r => r.1.length).foldl max 0
  rows.map fun (name, text) =>
    "  " ++ name ++ Text.replicate (size + 2 - name.length) ' ' ++ text

def titled (name : String) (rows : List (String × String)) : List String :=
  if rows.isEmpty then [] else "" :: (name ++ ":") :: listed rows

/-- The page as it is shown. -/
def shown (p : Page) : String :=
  let lines := [p.usage, "", indented p.title, ""] ++ p.description.map indented ++
    titled "Options" (p.flags.map fun f => (f.usage, f.helpText)) ++
    titled "Commands" p.commands
  String.join (lines.map (·.push '\n'))

end Page
end Flowplan.Command
