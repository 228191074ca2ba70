import Flowplan.Json.Basic
import Flowplan.Text.Basic

namespace Flowplan.Json

open Decimal (Binary64)

/-- What is wrong with a text at one of its characters. -/
inductive Fault where
  | unterminatedString
  | controlCharacter
  | badEscape
  | badUnicodeEscape
  | missingName
  | missingColon
  | missingComma
  | missingValue
  | extraData
  | byteOrderMark
deriving DecidableEq, Repr

def Fault.message : Fault → String
  | .unterminatedString => "Unterminated string starting at"
  | .controlCharacter => "Invalid control character at"
  | .badEscape => "Invalid \\escape"
  | .badUnicodeEscape => "Invalid \\uXXXX escape"
  | .missingName => "Expecting property name enclosed in double quotes"
  | .missingColon => "Expecting ':' delimiter"
  | .missingComma => "Expecting ',' delimiter"
  | .missingValue => "Expecting value"
  | .extraData => "Extra data"
  | .byteOrderMark => "Unexpected UTF-8 BOM (decode using utf-8-sig)"

/-- Why reading stopped, with the characters from that place on. -/
inductive Refusal where
  | fault (kind : Fault) (rest : List Char)
  | tooDeep
  | hugeInteger (digits : Nat)

/-- Why a text is no JSON value. -/
inductive ReadError where
  | malformed (fault : Fault) (line column offset : Nat)
  | tooDeep
  | hugeInteger (digits : Nat)
deriving DecidableEq, Repr

def ReadError.message : ReadError → String
  | .malformed fault line column offset =>
    s!"{fault.message}: line {line} column {column} (char {offset})"
  | .tooDeep => "too many nested values"
  | .hugeInteger digits =>
    "Exceeds the limit (4300 digits) for integer string conversion: value has " ++
      toString digits ++ " digits; use sys.set_int_max_str_digits() to increase the limit"

/-- The place of a refusal, counted from the start of the text. -/
def Refusal.located (source : List Char) : Refusal → ReadError
  | .fault kind rest =>
    let before := source.take (source.length - rest.length)
    .malformed kind (before.count '\n' + 1) ((before.reverse.takeWhile (· != '\n')).length + 1)
      before.length
  | .tooDeep => .tooDeep
  | .hugeInteger digits => .hugeInteger digits

namespace Reader

abbrev Result (α : Type) := Except Refusal (α × List Char)

def isBlank (c : Char) : Bool := c == ' ' || c == '\t' || c == '\n' || c == '\r'

def skip (cs : List Char) : List Char := cs.dropWhile isBlank

def hexValue? (c : Char) : Option Nat :=
  if c.isDigit then some (c.toNat - 48)
  else if 'a' ≤ c && c ≤ 'f' then some (c.toNat - 87)
  else if 'A' ≤ c && c ≤ 'F' then some (c.toNat - 55)
  else none

def unit? (a b c d : Char) : Option Nat := do
  let a ← hexValue? a
  let b ← hexValue? b
  let c ← hexValue? c
  let d ← hexValue? d
  return ((a * 16 + b) * 16 + c) * 16 + d

def simpleEscape? : Char → Option Nat
  | '"' => some 34
  | '\\' => some 92
  | '/' => some 47
  | 'b' => some 8
  | 'f' => some 12
  | 'n' => some 10
  | 'r' => some 13
  | 't' => some 9
  | _ => none

/-- The characters of a string up to its closing quote; `start` begins at the opening one. -/
def stringBody (start : List Char) (acc : List Nat) : List Char → Result (List Nat)
  | [] => .error (.fault .unterminatedString start)
  | ['\\'] => .error (.fault .unterminatedString start)
  | '\\' :: 'u' :: a :: b :: c :: d :: e :: rest =>
    match unit? a b c d with
    | some n => stringBody start (n :: acc) (e :: rest)
    | none => .error (.fault .badUnicodeEscape ('u' :: a :: b :: c :: d :: e :: rest))
  | '\\' :: c :: rest =>
    if c == 'u' then .error (.fault .badUnicodeEscape (c :: rest))
    else match simpleEscape? c with
      | some n => stringBody start (n :: acc) rest
      | none => .error (.fault .badEscape ('\\' :: c :: rest))
  | c :: rest =>
    if c == '"' then .ok (acc.reverse, rest)
    else if c.toNat < 0x20 then .error (.fault .controlCharacter (c :: rest))
    else stringBody start (c.toNat :: acc) rest

def isHigh (n : Nat) : Bool := 0xD800 ≤ n && n ≤ 0xDBFF

def isLow (n : Nat) : Bool := 0xDC00 ≤ n && n ≤ 0xDFFF

/-- The characters of a run of code points: a high half and the low one after it are one character,
and a half alone becomes the replacement character. -/
def joinHalves : List Nat → List Char → Bool → List Char × Bool
  | [], acc, lone => (acc.reverse, lone)
  | [n], acc, lone =>
    if isHigh n || isLow n then ((Char.ofNat 0xFFFD :: acc).reverse, true)
    else ((Char.ofNat n :: acc).reverse, lone)
  | n :: m :: rest, acc, lone =>
    if isHigh n && isLow m then
      joinHalves rest (Char.ofNat (0x10000 + (n - 0xD800) * 0x400 + (m - 0xDC00)) :: acc) lone
    else if isHigh n || isLow n then joinHalves (m :: rest) (Char.ofNat 0xFFFD :: acc) true
    else joinHalves (m :: rest) (Char.ofNat n :: acc) lone

/-- The text of a string and whether a half stands alone in it. -/
def text (start rest : List Char) : Result (String × Bool) :=
  match stringBody start [] rest with
  | .error e => .error e
  | .ok (units, rest) =>
    let (cs, lone) := joinHalves units [] false
    .ok ((String.ofList cs, lone), rest)

def digitsValue (cs : List Char) : Nat := cs.foldl (fun n c => n * 10 + (c.toNat - 48)) 0

/-- The digits after a point, where a digit follows it. -/
def fraction : List Char → List Char × List Char
  | '.' :: rest => match rest.takeWhile Char.isDigit with
    | [] => ([], '.' :: rest)
    | ds => (ds, rest.dropWhile Char.isDigit)
  | cs => ([], cs)

/-- The exponent, where a digit follows its mark and sign. -/
def exponent : List Char → Option Int × List Char
  | e :: rest =>
    if e == 'e' || e == 'E' then
      let (negative, digits) := match rest with
        | '-' :: ds => (true, ds)
        | '+' :: ds => (false, ds)
        | ds => (false, ds)
      match digits.takeWhile Char.isDigit with
      | [] => (none, e :: rest)
      | ds =>
        let n : Int := digitsValue ds
        (some (if negative then -n else n), digits.dropWhile Char.isDigit)
    else (none, e :: rest)
  | [] => (none, [])

/-- More digits than this are no integer. -/
def maxDigits : Nat := 4300

/-- A number whose sign has been read and whose whole part is given. -/
def numberTail (negative : Bool) (whole rest : List Char) : Result Json :=
  let (frac, rest) := fraction rest
  let (power, rest) := exponent rest
  if frac.isEmpty && power.isNone then
    if maxDigits < whole.length then .error (.hugeInteger whole.length)
    else
      let n : Int := digitsValue whole
      .ok (.int (if negative then -n else n), rest)
  else
    let power := power.getD 0 - frac.length
    .ok (.real (Binary64.ofDecimal negative (digitsValue (whole ++ frac)) power), rest)

/-- A leading zero is the whole part by itself. -/
def number? (negative : Bool) : List Char → Option (Result Json)
  | '0' :: rest => some (numberTail negative ['0'] rest)
  | cs => match cs.takeWhile Char.isDigit with
    | [] => none
    | ds => some (numberTail negative ds (cs.dropWhile Char.isDigit))

def constants : List (List Char × Json) := [
  ("null".toList, .null), ("true".toList, .bool true), ("false".toList, .bool false),
  ("NaN".toList, .real .nan), ("Infinity".toList, .real (.infinity false)),
  ("-Infinity".toList, .real (.infinity true))]

def constant? (cs : List Char) : Option (Json × List Char) :=
  constants.findSome? fun (word, v) =>
    if word.isPrefixOf cs then some (v, cs.drop word.length) else none

/-- A value that is neither a string nor a container. -/
def scalar (cs : List Char) : Result Json :=
  match constant? cs with
  | some r => .ok r
  | none =>
    let number := match cs with
      | '-' :: rest => number? true rest
      | cs => number? false cs
    number.getD (.error (.fault .missingValue cs))

mutual

/-- A value at the start of the characters, with room for so many nested containers. -/
def value (fuel room : Nat) (cs : List Char) : Result Json :=
  match fuel with
  | 0 => .error .tooDeep
  | fuel + 1 =>
    match cs with
    | '"' :: rest =>
      match text cs rest with
      | .error e => .error e
      | .ok ((s, lone), rest) => .ok (if lone then .unpaired s else .str s, rest)
    | '[' :: rest =>
      match room with
      | 0 => .error .tooDeep
      | room + 1 => match skip rest with
        | ']' :: rest => .ok (.arr [], rest)
        | rest => items fuel room [] rest
    | '{' :: rest =>
      match room with
      | 0 => .error .tooDeep
      | room + 1 => match skip rest with
        | '}' :: rest => .ok (.obj [], rest)
        | rest => members fuel room [] rest
    | cs => scalar cs

def items (fuel room : Nat) (acc : List Json) (cs : List Char) : Result Json :=
  match fuel with
  | 0 => .error .tooDeep
  | fuel + 1 =>
    match value fuel room cs with
    | .error e => .error e
    | .ok (v, rest) =>
      match skip rest with
      | ']' :: rest => .ok (.arr (v :: acc).reverse, rest)
      | ',' :: rest => items fuel room (v :: acc) (skip rest)
      | rest => .error (.fault .missingComma rest)

def members (fuel room : Nat) (acc : List (String × Json)) (cs : List Char) : Result Json :=
  match fuel with
  | 0 => .error .tooDeep
  | fuel + 1 =>
    match cs with
    | '"' :: rest =>
      match text cs rest with
      | .error e => .error e
      | .ok ((key, _), rest) =>
        match skip rest with
        | ':' :: rest =>
          match value fuel room (skip rest) with
          | .error e => .error e
          | .ok (v, rest) =>
            match skip rest with
            | '}' :: rest => .ok (.obj (Table.ofPairs ((key, v) :: acc).reverse), rest)
            | ',' :: rest => members fuel room ((key, v) :: acc) (skip rest)
            | rest => .error (.fault .missingComma rest)
        | rest => .error (.fault .missingColon rest)
    | cs => .error (.fault .missingName cs)

end

end Reader

/-- The nesting that a document may have. -/
def nestingLimit : Nat := 1000

/-- One value with nothing but blanks around it. -/
def readChars (room : Nat) (cs : List Char) : Except ReadError Json :=
  let result : Except Refusal Json := match Reader.value (2 * cs.length + 2) room (Reader.skip cs) with
    | .error e => .error e
    | .ok (v, rest) => match Reader.skip rest with
      | [] => .ok v
      | rest => .error (.fault .extraData rest)
  result.mapError (·.located cs)

/-- The value that a text holds; a byte order mark is refused. -/
def readWithin (room : Nat) (s : String) : Except ReadError Json :=
  match s.toList with
  | [] => readChars room []
  | c :: cs =>
    if c.toNat == 0xFEFF then .error (.malformed .byteOrderMark 1 1 0)
    else readChars room (c :: cs)

def read (s : String) : Except ReadError Json := readWithin nestingLimit s

end Flowplan.Json
