import Flowplan.Console.Style

/-!
Texts with tags in brackets that set and end styles, as they are shown without styles.
-/

namespace Flowplan.Console

/-- Part of a text with tags. -/
inductive MarkupPart where
  | plain (c : Char)
  /-- Characters that stand as they are. -/
  | literal (cs : List Char)
  | tag (name : String)
deriving DecidableEq, Repr

namespace Markup

def startsTag (c : Char) : Bool :=
  ('a' ≤ c && c ≤ 'z') || c == '#' || c == '/' || c == '@'

/-- Backslashes, a bracket with what stands in it, and what follows. -/
def bracketed? (cs : List Char) : Option (Nat × List Char × List Char) :=
  let slashes := (cs.takeWhile (· == '\\')).length
  match cs.dropWhile (· == '\\') with
  | '[' :: c :: rest =>
    if startsTag c then
      let inside := c :: rest.takeWhile fun d => d != ']' && d != '['
      match rest.dropWhile fun d => d != ']' && d != '[' with
      | ']' :: rest => some (slashes, inside, rest)
      | _ => none
    else none
  | _ => none

def enclosed (inside : List Char) : List Char := '[' :: (inside ++ [']'])

/-- Backslashes before a bracket count in pairs; a single one makes the bracket plain. -/
def bracketParts (slashes : Nat) (inside : List Char) : List MarkupPart :=
  .literal (List.replicate (slashes / 2) '\\') ::
    [if slashes % 2 = 1 then .literal (enclosed inside)
     else .tag (String.ofList (inside.takeWhile (· != '=')))]

def parts (cs : List Char) : List MarkupPart :=
  match bracketed? cs with
  | some (slashes, inside, rest) =>
    if _h : rest.length < cs.length then bracketParts slashes inside ++ parts rest
    else bracketParts slashes inside
  | none => match cs with
    | [] => []
    | c :: rest => .plain c :: parts rest
termination_by cs.length

/-- The styles that are left when one is ended; none is ended that is not set. -/
def ended? (name : String) (styles : List String) : Option (List String) :=
  let name := Text.trim name
  if name.isEmpty then
    match styles with
    | [] => none
    | _ :: rest => some rest
  else
    let name := Style.normalized name
    if styles.contains name then some (styles.erase name) else none

def isControl (c : Char) : Bool :=
  let n := c.toNat
  n == 7 || n == 8 || (11 ≤ n && n ≤ 13)

/-- The characters of the parts under some styles, the last set first; a tag that ends a style
which is not set has no meaning. -/
def shown? (styles : List String) : List MarkupPart → Option (List Char)
  | [] => some []
  | .plain '\\' :: .plain '[' :: rest => (shown? styles rest).map ('[' :: ·)
  | .plain c :: rest =>
    (shown? styles rest).map fun cs => if isControl c then cs else c :: cs
  | .literal cs :: rest => (shown? styles rest).map (cs ++ ·)
  | .tag name :: rest => match Text.after? "/" name with
    | some name => (ended? name styles).bind (shown? · rest)
    | none => shown? (Style.normalized name :: styles) rest

/-- What a text with tags shows, if its tags fit each other. -/
def render? (text : String) : Option String :=
  (shown? [] (parts text.toList)).map String.ofList

def escapedFrom (cs : List Char) : List Char :=
  match bracketed? cs with
  | some (slashes, inside, rest) =>
    let here := List.replicate (2 * slashes + 1) '\\' ++ enclosed inside
    if _h : rest.length < cs.length then here ++ escapedFrom rest else here
  | none => match cs with
    | [] => []
    | c :: rest => c :: escapedFrom rest
termination_by cs.length

/-- A text whose brackets are no tags. -/
def escape (text : String) : String :=
  let cs := escapedFrom text.toList
  String.ofList (match cs.reverse with
    | '\\' :: '\\' :: _ => cs
    | '\\' :: _ => cs ++ ['\\']
    | _ => cs)

end Markup
end Flowplan.Console
