import Flowplan.Decimal.Binary64
import Flowplan.Table

namespace Flowplan

open Decimal (Binary64)

/-- A JSON value. Members keep their order, and an integer differs from a number with a fraction
or an exponent. -/
inductive Json where
  | null
  | bool (b : Bool)
  | int (n : Int)
  | real (x : Binary64)
  | str (s : String)
  /-- A string with a half of a surrogate pair in it, which is no text; the half is replaced. -/
  | unpaired (s : String)
  | arr (items : List Json)
  | obj (members : List (String × Json))
deriving Inhabited, Repr

namespace Json

abbrev Object := Table String Json

/-- Whether a value counts as set: null, false, zero and what is empty do not. -/
def truthy : Json → Bool
  | .null => false
  | .bool b => b
  | .int n => n != 0
  | .real x => !x.equalsInt 0
  | .str s => !s.isEmpty
  | .unpaired _ => true
  | .arr items => !items.isEmpty
  | .obj members => !members.isEmpty

end Json
end Flowplan
