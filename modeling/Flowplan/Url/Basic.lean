import Flowplan.Unicode.Case
import Flowplan.Unicode.Compatibility
import Flowplan.Url.Address

namespace Flowplan

/-- The parts of a URL that say where it leads. -/
structure Url where
  scheme : String
  authority : List Char
deriving DecidableEq, Repr

namespace Url

def isSchemeChar (c : Char) : Bool := c.isAlphanum || c == '+' || c == '-' || c == '.'

/-- Control characters and spaces in front do not count, nor tabs and line breaks anywhere. -/
def cleaned (s : String) : List Char :=
  (s.toList.dropWhile fun c => c.toNat ≤ 0x20).filter fun c => c != '\t' && c != '\r' && c != '\n'

/-- The scheme and what follows its colon; where there is no scheme it is empty. -/
def splitScheme (cs : List Char) : String × List Char :=
  match Text.splitFirst ':' cs with
  | some (c :: scheme, rest) =>
    if c.isAlpha && scheme.all isSchemeChar then
      ((String.ofList (c :: scheme)).map Char.toLower, rest)
    else ("", cs)
  | _ => ("", cs)

def endsAuthority (c : Char) : Bool := c == '/' || c == '?' || c == '#'

def authorityOf : List Char → List Char
  | '/' :: '/' :: rest => rest.takeWhile (!endsAuthority ·)
  | _ => []

/-- What follows the user information, which ends at the last at sign. -/
def afterUser (authority : List Char) : List Char :=
  match Text.splitLast '@' authority with
  | some (_, rest) => rest
  | none => authority

/-- The host in brackets and what follows them, with whether anything stands before them. -/
def bracketed? (cs : List Char) : Option (Bool × List Char × List Char) :=
  (Text.splitFirst '[' cs).map fun (before, rest) =>
    match Text.splitFirst ']' rest with
    | some (host, after) => (!before.isEmpty, host, after)
    | none => (!before.isEmpty, rest, [])

def beforeColon (cs : List Char) : List Char :=
  match Text.splitFirst ':' cs with
  | some (host, _) => host
  | none => cs

/-- The host as it is written. -/
def rawHost (authority : List Char) : List Char :=
  match bracketed? (afterUser authority) with
  | some (_, host, _) => host
  | none => beforeColon (afterUser authority)

/-- Brackets hold an address, nothing stands before them, and what follows them starts with a colon. -/
def bracketsFit (authority : List Char) : Bool :=
  match bracketed? (afterUser authority) with
  | some (before, host, after) =>
    !before && (after.isEmpty || after.head? == some ':') && isBracketedHost host
  | none => isBracketedHost (beforeColon (afterUser authority))

def authorityFits (authority : List Char) : Bool :=
  let opening := authority.contains '['
  let closing := authority.contains ']'
  opening == closing && (!opening || bracketsFit authority) &&
  !authority.any Unicode.hidesDelimiter

/-- The scheme and authority of a URL, unless its authority is malformed. -/
def split? (s : String) : Option Url :=
  let (scheme, rest) := splitScheme (cleaned s)
  let authority := authorityOf rest
  if authorityFits authority then some ⟨scheme, authority⟩ else none

/-- Letters are in lower case up to the first percent sign. -/
def lowerHost (host : List Char) : String :=
  match Text.splitFirst '%' host with
  | some (name, zone) =>
    Unicode.lower (String.ofList name) ++ String.ofList ('%' :: zone)
  | none => Unicode.lower (String.ofList host)

def hostname? (u : Url) : Option String :=
  match rawHost u.authority with
  | [] => none
  | host => some (lowerHost host)

/-- The host name of a URL that is not malformed and has one. -/
def hostOf? (s : String) : Option String := (split? s).bind hostname?

end Url
end Flowplan
