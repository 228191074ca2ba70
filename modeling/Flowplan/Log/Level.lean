import Flowplan.Log.Entry

namespace Flowplan

namespace Severity

def all : List Severity := [.debug, .info, .warning, .error, .critical]

/-- The graver, the higher. -/
def level : Severity → Int
  | .debug => 10
  | .info => 20
  | .warning => 30
  | .error => 40
  | .critical => 50

def ofLevel? (n : Int) : Option Severity := all.find? fun s => s.level == n

/-- The level of a name as settings have it: there are two names more, and one for no level. -/
def levelOfName? : String → Option Int
  | "WARN" => some warning.level
  | "FATAL" => some critical.level
  | "NOTSET" => some 0
  | name => (all.find? fun s => s.name == name).map level

/-- The code for the colour in which a console shows the name. -/
def colour : Severity → String
  | .debug => "36"
  | .info => "32"
  | .warning => "33"
  | .error => "31"
  | .critical => "35"

def coloured (s : Severity) : String :=
  "\x1b[" ++ s.colour ++ "m" ++ s.name ++ "\x1b[0m"

/-- A level that is no one's has its number for a name. -/
def levelText (n : Int) : String :=
  ((ofLevel? n).map coloured).getD ("Level " ++ toString n)

theorem ofLevel?_level (s : Severity) : ofLevel? s.level = some s := by
  cases s <;> rfl

theorem levelOfName?_name (s : Severity) : levelOfName? s.name = some s.level := by
  cases s <;> rfl

end Severity

end Flowplan
