namespace Flowplan

/-- A step from a value in a document to one of its parts. -/
inductive Token where
  | index (n : Int)
  /-- A truth value in the place of an index. -/
  | flag (b : Bool)
  | name (s : String)
deriving DecidableEq, Repr

/-- The way from the root of a document to one of its values. -/
abbrev Locator := List Token

namespace Locator

def root : String := "root"

/-- A locator's text with one more token; no text is yet the place of the first name. -/
def extend (text : String) : Token → String
  | .index n => text ++ "[" ++ toString n ++ "]"
  | .flag b => text ++ "[" ++ (if b then "True" else "False") ++ "]"
  | .name s => if text.isEmpty then s else text ++ "." ++ s

def textFrom (text : String) (tokens : Locator) : String := tokens.foldl extend text

/-- Names divided by points and indices in brackets; the empty locator is the root. -/
def text (tokens : Locator) : String :=
  let text := textFrom "" tokens
  if text.isEmpty then root else text

theorem textFrom_append (text : String) (front back : Locator) :
    textFrom text (front ++ back) = textFrom (textFrom text front) back :=
  List.foldl_append

end Locator
end Flowplan
