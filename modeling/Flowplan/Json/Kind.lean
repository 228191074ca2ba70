import Flowplan.Json.Basic

namespace Flowplan.Json

/-- The name that messages give to the kind of a value. -/
def kindName : Json → String
  | .null => "NoneType"
  | .bool _ => "bool"
  | .int _ => "int"
  | .real _ => "float"
  | .str _ => "str"
  | .unpaired _ => "str"
  | .arr _ => "list"
  | .obj _ => "dict"

/-- Why a value that is no object has no members. -/
def noMembersMessage : Json → String
  | .str _ => "string indices must be integers, not 'str'"
  | .unpaired _ => "string indices must be integers, not 'str'"
  | .arr _ => "list indices must be integers or slices, not str"
  | v => "'" ++ v.kindName ++ "' object is not subscriptable"

def notIterableMessage (v : Json) : String := "'" ++ v.kindName ++ "' object is not iterable"

def noFeatureMessage (v : Json) (feature : String) : String :=
  "'" ++ v.kindName ++ "' object has no attribute '" ++ feature ++ "'"

def unusableKeyMessage (v : Json) : String := "unhashable type: '" ++ v.kindName ++ "'"

/-- The parts of a value that can be gone through: the items of a list, the keys of an object or
the characters of a string. -/
def parts? : Json → Option (List Json)
  | .arr vs => some vs
  | .obj ms => some ((Table.keys ms).map .str)
  | .str s => some (s.toList.map fun c => .str (String.singleton c))
  | .unpaired s => some (s.toList.map fun c => .str (String.singleton c))
  | _ => none

end Flowplan.Json
