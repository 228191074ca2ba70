import Flowplan.Decimal.Notation
import Flowplan.Json.Basic
import Flowplan.Text.Basic

namespace Flowplan.Json

/-- How a value is written: whether characters beyond ASCII are escaped, the blanks of each level
when every item has its own line, and what follows a comma and a colon. -/
structure Style where
  ascii : Bool
  indent : Option Nat
  comma : String
  colon : String

namespace Style

def indented : Style := ⟨true, some 2, ",", ": "⟩

def compact : Style := ⟨false, none, ",", ":"⟩

def compactAscii : Style := ⟨true, none, ",", ":"⟩

/-- The line break before an item at a level. -/
def lineBreak (style : Style) (level : Nat) : String :=
  match style.indent with
  | none => ""
  | some width => "\n" ++ Text.replicate (width * level) ' '

end Style

def printSpecials : Decimal.Specials := ⟨"NaN", "Infinity"⟩

def unitEscape (n : Nat) : String := "\\u" ++ Text.hexDigits 4 n

/-- Beyond the basic plane a character is two escapes. -/
def charEscape (c : Char) : String :=
  let n := c.toNat
  if n < 0x10000 then unitEscape n
  else unitEscape (0xD800 + (n - 0x10000) / 0x400) ++ unitEscape (0xDC00 + (n - 0x10000) % 0x400)

def printChar (ascii : Bool) (c : Char) : String :=
  if c == '"' then "\\\""
  else if c == '\\' then "\\\\"
  else if c == '\n' then "\\n"
  else if c == '\r' then "\\r"
  else if c == '\t' then "\\t"
  else if c.toNat == 8 then "\\b"
  else if c.toNat == 12 then "\\f"
  else if c.toNat < 0x20 then charEscape c
  else if ascii && 0x7F ≤ c.toNat then charEscape c
  else String.singleton c

def printString (ascii : Bool) (s : String) : String :=
  (s.toList.foldl (fun acc c => acc ++ printChar ascii c) "\"").push '"'

/-- Items between brackets, each on its own line where the style says so. -/
def enclose (style : Style) (level : Nat) (opening closing : String) (items : List String) :
    String :=
  match items with
  | [] => opening ++ closing
  | items =>
    opening ++ style.lineBreak (level + 1) ++
      String.intercalate (style.comma ++ style.lineBreak (level + 1)) items ++
      style.lineBreak level ++ closing

mutual

def printAt (style : Style) (level : Nat) : Json → String
  | .null => "null"
  | .bool b => if b then "true" else "false"
  | .int n => toString n
  | .real x => x.text printSpecials
  | .str s => printString style.ascii s
  | .unpaired s => printString style.ascii s
  | .arr items => enclose style level "[" "]" (printItems style (level + 1) items)
  | .obj members => enclose style level "\x7b" "\x7d" (printMembers style (level + 1) members)

def printItems (style : Style) (level : Nat) : List Json → List String
  | [] => []
  | v :: rest => printAt style level v :: printItems style level rest

def printMembers (style : Style) (level : Nat) : List (String × Json) → List String
  | [] => []
  | (k, v) :: rest =>
    (printString style.ascii k ++ style.colon ++ printAt style level v) ::
      printMembers style level rest

end

def print (style : Style) (v : Json) : String := printAt style 0 v

def keyLE (m n : String × Json) : Bool := decide (m.1 ≤ n.1)

mutual

/-- The value with the members of every object in the order of their keys. -/
def sorted : Json → Json
  | .arr items => .arr (sortedItems items)
  | .obj members => .obj ((sortedMembers members).mergeSort keyLE)
  | v => v

def sortedItems : List Json → List Json
  | [] => []
  | v :: rest => v.sorted :: sortedItems rest

def sortedMembers : List (String × Json) → List (String × Json)
  | [] => []
  | (k, v) :: rest => (k, v.sorted) :: sortedMembers rest

end

end Flowplan.Json
