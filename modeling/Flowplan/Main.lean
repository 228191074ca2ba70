import Flowplan.Command.Run
import Flowplan.Settings.Load

/-!
The program: settings from environment variables and a file, arguments, and a disk on one side, what
a command shows and writes on the other.
-/

namespace Flowplan

open Flowplan.Json

/-- The code with which a system refuses to read a directory as a file. -/
def directoryCode : UInt32 := 21

def entryAt (path : String) : IO (Option Command.Entry) := do
  try
    return some (.file (← IO.FS.readBinFile path).toList)
  catch
    | .inappropriateType _ code _ =>
      return if code = directoryCode then some .directory else none
    | _ => return none

/-- The part of the disk that a command may look at. -/
def diskFor (args : List String) : IO Command.Disk := do
  let entries ← (Command.paths args).mapM fun path => do return (path, ← entryAt path)
  return fun path => (Table.get? entries path).join

def fileText? (path : String) : IO (Option String) := do
  match ← entryAt path with
  | some (.file bytes) => return String.fromUTF8? (ByteArray.mk bytes.toArray)
  | _ => return none

/-- The names in a text, as far as they can be those of variables. -/
def wordsOf (text : String) : List String :=
  (text.splitToList fun c => !(c.isAlphanum || c = '_')).filter (!·.isEmpty)

def variablesOf (names : List String) : IO (Table String String) :=
  names.eraseDups.filterMapM fun name => do return (← IO.getEnv name).map (name, ·)

def settingsFile : String := ".env"

def sources : IO Settings.Sources := do
  let file ← fileText? settingsFile
  let names := Settings.names ++ Settings.names.map (·.map Char.toUpper) ++
    wordsOf (file.getD "")
  return ⟨[], ← variablesOf names, file⟩

def loadFailure : Settings.LoadError → String
  | .unreadable name origin => Settings.LoadError.unreadableMessage name origin
  | .invalid complaints =>
    String.intercalate "\n" (complaints.map fun c => (Plan.Defect.ofComplaint c).message)

def crashText : Command.Crash → String
  | .undecodable => "a file is not in UTF-8"
  | .hugeInteger => "an integer has too many digits"
  | .tooDeep => "a file is nested too deeply"
  | .noDirectory => "no such directory"
  | .notDirectory => "not a directory"
  | .markup => "tags do not fit each other"

def perform (outcome : Command.Outcome) : IO UInt32 := do
  if let some (path, text) := outcome.written then IO.FS.writeFile path text
  IO.print outcome.output
  if let some crash := outcome.crash then IO.eprintln (crashText crash)
  return UInt32.ofNat outcome.exitCode

end Flowplan

def main (args : List String) : IO UInt32 := do
  match Flowplan.Settings.load (← Flowplan.sources) with
  | .error e =>
    IO.eprintln (Flowplan.loadFailure e)
    return 1
  | .ok settings => Flowplan.perform (Flowplan.Command.run settings (← Flowplan.diskFor args) args)
