import Flowplan.Decimal.Notation
import Flowplan.Json.Basic
import Flowplan.Text.Quoted

namespace Flowplan.Json

def displaySpecials : Decimal.Specials := ⟨"nan", "inf"⟩

mutual

/-- A value as messages show it. -/
def display : Json → String
  | .null => "None"
  | .bool b => if b then "True" else "False"
  | .int n => toString n
  | .real x => x.text displaySpecials
  | .str s => Text.quoted s
  | .unpaired s => Text.quoted s
  | .arr items => "[" ++ String.intercalate ", " (displayItems items) ++ "]"
  | .obj members => "\x7b" ++ String.intercalate ", " (displayMembers members) ++ "\x7d"

def displayItems : List Json → List String
  | [] => []
  | v :: rest => v.display :: displayItems rest

def displayMembers : List (String × Json) → List String
  | [] => []
  | (k, v) :: rest => (Text.quoted k ++ ": " ++ v.display) :: displayMembers rest

end

/-- A value as part of a sentence: a string stands there without quotes. -/
def plain : Json → String
  | .str s => s
  | .unpaired s => s
  | v => v.display

end Flowplan.Json
