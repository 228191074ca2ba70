import Flowplan.Format.Fill
import Flowplan.Log.Level
import Flowplan.Settings.Basic

namespace Flowplan

open Flowplan.Json

/-- The loggers that were asked for, in that order, and their levels. -/
structure Loggers where
  names : List String
  levels : Table String Int

namespace Loggers

def empty : Loggers := ⟨[], []⟩

/-- The logger above all others, which needs no name. -/
def root : String := "root"

def rootLevel : Int := Severity.warning.level

/-- The name that a logger shows. -/
def fullName (name : String) : String := if name.isEmpty then root else name

def configuredLevel (settings : Settings) : Int :=
  (Severity.levelOfName? settings.logLevel).getD Severity.info.level

/-- A logger keeps the level that it got first. -/
def ask (settings : Settings) (name : String) (level : Option Int) (ls : Loggers) : Loggers :=
  if ls.names.contains name then ls
  else ⟨ls.names ++ [name],
    Table.set ls.levels (fullName name) (level.getD (configuredLevel settings))⟩

def level (ls : Loggers) (name : String) : Int := (Table.get? ls.levels (fullName name)).getD 0

def setAll (level : Int) (ls : Loggers) : Loggers :=
  { ls with levels := ls.levels.map fun (name, _) => (name, level) }

/-- The names above a dotted name, the nearest first. -/
def above (name : String) : List String :=
  let parts := Text.pieces '.' name.toList
  let heads := (List.range' 1 (parts.length - 1)).reverse.map fun n =>
    String.ofList (List.intercalate ['.'] (parts.take n))
  if name = root then [] else heads ++ [root]

/-- The level of a logger, or of the nearest one above it that has one. -/
def effectiveLevel (ls : Loggers) (name : String) : Int :=
  let known := if Table.has ls.levels root then ls.levels else (root, rootLevel) :: ls.levels
  ((fullName name :: above (fullName name)).findSome? fun name =>
    (Table.get? known name).filter (· != 0)).getD 0

/-- The logger that shows what this one is told: itself or the nearest one above it. -/
def shownBy? (ls : Loggers) (name : String) : Option String :=
  (fullName name :: above (fullName name)).find? (Table.has ls.levels)

/-- A message in the levels of its logger and of the one that shows it; there is none at zero. -/
def passes (ls : Loggers) (name : String) (level : Int) : Bool :=
  0 < level && ls.effectiveLevel name ≤ level &&
    (ls.shownBy? name).any fun shower => ls.level shower ≤ level

/-- A message with its values; a single object gives them by their names. -/
def message? (format : String) : List Json → Option String
  | [] => some format
  | [.obj (m :: ms)] => Format.fill? format ⟨some (m :: ms), [.obj (m :: ms)]⟩
  | values => Format.fill? format ⟨none, values⟩

/-- What is shown of a message, unless it is too low or does not fit its values. -/
def line? (ls : Loggers) (time name : String) (level : Int) (format : String)
    (values : List Json) : Option String :=
  if ls.passes name level then
    (message? format values).map fun message =>
      String.intercalate " | " [time, fullName name, Severity.levelText level, message] ++ "\n"
  else none

end Loggers

end Flowplan
