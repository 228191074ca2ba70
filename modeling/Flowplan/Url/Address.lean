import Flowplan.Text.Basic

namespace Flowplan.Url

def isHexDigit (c : Char) : Bool :=
  c.isDigit || ('a' ≤ c && c ≤ 'f') || ('A' ≤ c && c ≤ 'F')

/-- A decimal number up to 255 without zeros before it. -/
def isOctet (cs : List Char) : Bool :=
  !cs.isEmpty && cs.all Char.isDigit && cs.length ≤ 3 && (cs.length == 1 || cs.head? != some '0') &&
  cs.foldl (fun n c => n * 10 + (c.toNat - 48)) 0 ≤ 255

def isIPv4 (cs : List Char) : Bool :=
  let octets := Text.pieces '.' cs
  octets.length == 4 && octets.all isOctet

def isGroup (cs : List Char) : Bool := !cs.isEmpty && cs.length ≤ 4 && cs.all isHexDigit

/-- The groups of an address, a decimal one at its end standing for two. -/
def groups? (cs : List Char) : Option (List (List Char)) :=
  let parts := Text.pieces ':' cs
  match parts.getLast? with
  | none => none
  | some last =>
    if parts.length < 3 then none
    else if last.contains '.' then
      if isIPv4 last then some (parts.dropLast ++ [['0'], ['0']]) else none
    else some parts

/-- Whether groups on both sides of a gap fit: an empty group may only touch the gap at an end of
the address, and the gap stands for at least one group. -/
def fitsAround (before after : List (List Char)) : Bool :=
  let before := match before with
    | [[]] => []
    | gs => gs
  let after := match after with
    | [[]] => []
    | gs => gs
  before.all isGroup && after.all isGroup && before.length + after.length ≤ 7

/-- Eight groups, or fewer with one gap. -/
def isGrouped (parts : List (List Char)) : Bool :=
  let inner := parts.tail.dropLast
  match inner.filter List.isEmpty with
  | [] => parts.length == 8 && parts.all isGroup
  | [_] =>
    let first := parts.take 1 ++ inner.takeWhile (!·.isEmpty)
    let rest := parts.drop (first.length + 1)
    parts.length ≤ 9 && fitsAround first rest
  | _ => false

def isUnscopedIPv6 (cs : List Char) : Bool :=
  match groups? cs with
  | some parts => isGrouped parts
  | none => false

/-- An address of the sixth version, with a zone after a percent sign if there is one. -/
def isIPv6 (cs : List Char) : Bool :=
  match Text.splitFirst '%' cs with
  | none => isUnscopedIPv6 cs
  | some (address, zone) => !zone.isEmpty && !zone.contains '%' && isUnscopedIPv6 address

/-- A future version: hexadecimal digits, a point and at least one more character. -/
def isFutureAddress (cs : List Char) : Bool :=
  match Text.splitFirst '.' cs with
  | some (version, rest) => !version.isEmpty && version.all isHexDigit && !rest.isEmpty
  | none => false

def isBracketedHost : List Char → Bool
  | 'v' :: rest => isFutureAddress rest
  | cs => isIPv6 cs

end Flowplan.Url
