import Flowplan.Json.Printer
import Flowplan.Json.Reader

namespace Flowplan.Json

/-- Why a value has no text. -/
inductive WriteError where
  | hugeInteger
deriving DecidableEq, Repr

def WriteError.message : WriteError → String
  | .hugeInteger => "Exceeds the limit (4300 digits) for integer string conversion; " ++
      "use sys.set_int_max_str_digits() to increase the limit"

mutual

/-- Whether no integer of a value has more digits than an integer is written with. -/
def writable : Json → Bool
  | .int n => Decimal.Binary64.digitCount n.natAbs ≤ Reader.maxDigits
  | .arr items => writableItems items
  | .obj members => writableMembers members
  | _ => true

def writableItems : List Json → Bool
  | [] => true
  | v :: rest => v.writable && writableItems rest

def writableMembers : List (String × Json) → Bool
  | [] => true
  | (_, v) :: rest => v.writable && writableMembers rest

end

def write (style : Style) (v : Json) : Except WriteError String :=
  if v.writable then .ok (v.print style) else .error .hugeInteger

/-- One text for all orders of members. -/
def canonical (v : Json) : Except WriteError String := v.sorted.write .compact

end Flowplan.Json
