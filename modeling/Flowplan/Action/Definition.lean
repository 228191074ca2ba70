import Flowplan.Json.Display
import Flowplan.Json.Kind

namespace Flowplan

open Flowplan.Json

namespace Action

/-- What is wrong with the description of an action. -/
inductive Fault where
  | noUrl
  /-- Members are asked of a value that is no object. -/
  | noMembers (v : Json)
  /-- The descriptions are no object. -/
  | noDescriptions (v : Json)
  | notIterable (v : Json)
  | notPair (index : Nat)
  | pairLength (index length : Nat)
  | unusableKey (v : Json)

/-- The sort of a fault: a missing key, a value of the wrong kind or shape, or no such feature. -/
inductive FaultSort where
  | key
  | kind
  | value
  | feature
deriving DecidableEq, Repr

namespace Fault

def sort : Fault → FaultSort
  | .noUrl => .key
  | .pairLength _ _ => .value
  | .noDescriptions _ => .feature
  | _ => .kind

def message : Fault → String
  | .noUrl => "'url'"
  | .noMembers v => v.noMembersMessage
  | .noDescriptions v => v.noFeatureMessage "items"
  | .notIterable v => v.notIterableMessage
  | .notPair i => "cannot convert dictionary update sequence element #" ++ toString i ++
      " to a sequence"
  | .pairLength i n => "dictionary update sequence element #" ++ toString i ++ " has length " ++
      toString n ++ "; 2 is required"
  | .unusableKey v => v.unusableKeyMessage

end Fault

/-- An action as the call that it stands for. -/
structure Definition where
  slug : String
  url : String
  method : String
  headers : Option Object
  body : Option Object
  metadata : Object

/-- A key of an object from a value that is no string. -/
def keyText? : Json → Option String
  | .null => some "null"
  | .bool b => some (if b then "true" else "false")
  | .int n => some (toString n)
  | .real x => some (x.text ⟨"NaN", "Infinity"⟩)
  | .str s => some s
  | .unpaired s => some s
  | .arr _ => none
  | .obj _ => none

def pairOf (i : Nat) (v : Json) : Except Fault (String × Json) :=
  match parts? v with
  | none => .error (.notPair i)
  | some [k, w] => match keyText? k with
    | some key => .ok (key, w)
    | none => .error (.unusableKey k)
  | some vs => .error (.pairLength i vs.length)

def pairsFrom (i : Nat) : List Json → Except Fault (List (String × Json))
  | [] => .ok []
  | v :: rest => do
    let pair ← pairOf i v
    let others ← pairsFrom (i + 1) rest
    return pair :: others

/-- An object, also from a list of pairs. -/
def objectOf : Json → Except Fault Object
  | .obj o => .ok o
  | v => match parts? v with
    | some vs => do return Table.ofPairs (← pairsFrom 0 vs)
    | none => .error (.notIterable v)

/-- An optional part of a description; a value that counts as not set leaves it out. -/
def optionalObject (o : Object) (key : String) : Except Fault (Option Object) :=
  match Table.get? o key with
  | some v => if v.truthy then some <$> objectOf v else .ok none
  | none => .ok none

namespace Definition

def ofMembers (slug : String) (o : Object) : Except Fault Definition := do
  match Table.get? o "url" with
  | none => .error .noUrl
  | some url =>
    let method := ((Table.get? o "method").map Json.plain).getD "POST"
    let headers ← optionalObject o "headers"
    let body ← optionalObject o "body"
    let metadata ← optionalObject o "metadata"
    return ⟨slug, url.plain, method, headers, body, metadata.getD []⟩

/-- The action of a slug from its description; only the URL has to be there. -/
def ofJson (slug : String) : Json → Except Fault Definition
  | .obj o => ofMembers slug o
  | v => .error (.noMembers v)

def orNull : Option Object → Json
  | some o => .obj o
  | none => .null

def toJson (d : Definition) : Json :=
  .obj [("slug", .str d.slug), ("url", .str d.url), ("method", .str d.method),
    ("headers", orNull d.headers), ("body", orNull d.body), ("metadata", .obj d.metadata)]

end Definition
end Action
end Flowplan
