import Flowplan.Record.Fault
import Flowplan.Text.Basic

namespace Flowplan.Record

open Decimal (Binary64)

/-- A fraction of zeros does not count. -/
def withoutZeroFraction (cs : List Char) : List Char :=
  match Text.splitFirst '.' cs with
  | some (before, after) => if after.all (· == '0') then before else cs
  | none => cs

/-- Zeros at the start do not count, nor underscores among them; at least one digit stays. -/
def withoutLeadingZeros? : List Char → Option (List Char)
  | '0' :: rest =>
    let last := (rest.takeWhile fun c => c == '0' || c == '_').getLastD '0'
    match rest.dropWhile fun c => c == '0' || c == '_' with
    | [] => some [last]
    | '.' :: kept => some (last :: '.' :: kept)
    | c :: kept => if c.isDigit then some (c :: kept) else none
  | c :: rest => if c.isDigit then some (c :: rest) else none
  | [] => none

/-- The digits of a text that may have single underscores between them. -/
def digits? (cs : List Char) : Option (List Char) :=
  let groups := Text.pieces '_' cs
  if groups.all fun g => !g.isEmpty && g.all Char.isDigit then some groups.flatten else none

def textValue (ds : List Char) : Nat := ds.foldl (fun n c => n * 10 + (c.toNat - 48)) 0

def unsignedText? (cs : List Char) : Option Int := do
  let cs ← withoutLeadingZeros? cs
  let ds ← digits? (withoutZeroFraction cs)
  return textValue ds

/-- An integer from a text: blanks around it, a sign and a fraction of zeros are allowed. -/
def integerText? (s : String) : Option Int :=
  match Text.trimmed Unicode.isWhiteSpace s.toList with
  | '-' :: rest => (unsignedText? rest).map (- ·)
  | '+' :: rest => unsignedText? rest
  | cs => unsignedText? cs

/-- A number with a fraction part of zero is an integer while it fits 64 bits. -/
def integerReal (x : Binary64) : Checked Int :=
  if !x.isFinite then .refuse .notFinite
  else if !x.isInteger then .refuse .fractional
  else if x.truncate.natAbs < Decimal.twoTo 63 then .valid x.truncate
  else .refuse .hugeInteger

def integer : Json → Checked Int
  | .int n => .valid n
  | .bool b => .valid (if b then 1 else 0)
  | .real x => integerReal x
  | .str s => if 4300 < s.length then .refuse .hugeInteger else
    match integerText? s with
    | some n => .valid n
    | none => .refuse .unreadableInteger
  | _ => .refuse .notInteger

def trueWords : List String := ["1", "on", "t", "true", "y", "yes"]

def falseWords : List String := ["0", "off", "f", "false", "n", "no"]

/-- The words for the truth values, in any case of their letters. -/
def boolText? (s : String) : Option Bool :=
  let word := s.map Char.toLower
  if trueWords.contains word then some true
  else if falseWords.contains word then some false
  else none

def boolOfInt? (n : Int) : Option Bool :=
  if n == 0 then some false else if n == 1 then some true else none

def orUnreadable (b : Option Bool) : Checked Bool :=
  match b with
  | some b => .valid b
  | none => .refuse .unreadableBool

def boolean : Json → Checked Bool
  | .bool b => .valid b
  | .str s => orUnreadable (boolText? s)
  | .int n => if n.natAbs < Decimal.twoTo 63 then orUnreadable (boolOfInt? n) else .refuse .notBool
  | .real x => match integerReal x with
    | .valid n => orUnreadable (boolOfInt? n)
    | .invalid _ => .refuse .notBool
  | _ => .refuse .notBool

end Flowplan.Record
