import Flowplan.Text.Basic

namespace Flowplan.Text

inductive Encoding where
  | utf8
  | utf16 (bigEndian : Bool)
  | utf32 (bigEndian : Bool)
deriving DecidableEq, Repr

def Encoding.name : Encoding → String
  | .utf8 => "utf-8"
  | .utf16 bigEndian => if bigEndian then "utf-16-be" else "utf-16-le"
  | .utf32 bigEndian => if bigEndian then "utf-32-be" else "utf-32-le"

inductive DecodeFault where
  | invalidStart
  | invalidContinuation
  | unexpectedEnd
  | truncated
  | outOfRange
deriving DecidableEq, Repr

def DecodeFault.message : DecodeFault → String
  | .invalidStart => "invalid start byte"
  | .invalidContinuation => "invalid continuation byte"
  | .unexpectedEnd => "unexpected end of data"
  | .truncated => "truncated data"
  | .outOfRange => "code point not in range(0x110000)"

/-- The bytes that are no text in an encoding, from the place where they start. -/
structure DecodeError where
  encoding : Encoding
  fault : DecodeFault
  start : Nat
  bytes : List UInt8
deriving Repr

def DecodeError.message (e : DecodeError) : String :=
  let place := match e.bytes with
    | [b] => "byte 0x" ++ hexDigits 2 b.toNat ++ " in position " ++ toString e.start
    | bs => "bytes in position " ++ toString e.start ++ "-" ++ toString (e.start + bs.length - 1)
  "'" ++ e.encoding.name ++ "' codec can't decode " ++ place ++ ": " ++ e.fault.message

namespace Decoder

/-- How many bytes the character that starts with this byte has. -/
def width? (b : Nat) : Option Nat :=
  if b < 0x80 then some 1
  else if b < 0xC2 then none
  else if b < 0xE0 then some 2
  else if b < 0xF0 then some 3
  else if b < 0xF5 then some 4
  else none

/-- The bytes that may follow a first byte. -/
def secondFits (first second : Nat) : Bool :=
  let low := if first == 0xE0 then 0xA0 else if first == 0xF0 then 0x90 else 0x80
  let high := if first == 0xED then 0x9F else if first == 0xF4 then 0x8F else 0xBF
  low ≤ second && second ≤ high

def isContinuation (b : Nat) : Bool := 0x80 ≤ b && b ≤ 0xBF

/-- How many of the bytes after the first belong to its character. -/
def goodTail (first : Nat) : List Nat → Nat
  | [] => 0
  | second :: rest =>
    if secondFits first second then 1 + (rest.takeWhile isContinuation).length else 0

def codePoint : List Nat → Nat
  | [] => 0
  | first :: rest =>
    let head := match rest.length with
      | 0 => first
      | 1 => first % 0x20
      | 2 => first % 0x10
      | _ => first % 0x08
    rest.foldl (fun n b => n * 0x40 + b % 0x40) head

/-- A half of a surrogate pair stands for its escape. -/
def chars (n : Nat) : List Char :=
  if 0xD800 ≤ n && n < 0xE000 then ("\\u" ++ hexDigits 4 n).toList else [Char.ofNat n]

/-- Three bytes that hold a half of a surrogate pair. -/
def half? : List Nat → Option Nat
  | [0xED, b, c] => if 0xA0 ≤ b && b ≤ 0xBF && isContinuation c then some (codePoint [0xED, b, c]) else none
  | _ => none

/-- Characters of one to four bytes; `halves` lets a half of a surrogate pair pass. -/
def utf8 (halves : Bool) (fuel start : Nat) (acc : List Char) (bytes : List UInt8) :
    Except DecodeError (List Char) :=
  match fuel with
  | 0 => .ok acc.reverse
  | fuel + 1 =>
    match bytes with
    | [] => .ok acc.reverse
    | first :: rest =>
      match width? first.toNat with
      | none => .error ⟨.utf8, .invalidStart, start, [first]⟩
      | some width =>
        let tail := (rest.take (width - 1)).map UInt8.toNat
        let good := goodTail first.toNat tail
        if good + 1 = width then
          utf8 halves fuel (start + width)
            (Char.ofNat (codePoint (first.toNat :: tail)) :: acc) (rest.drop good)
        else if good < tail.length then
          match half? (first.toNat :: tail), halves with
          | some n, true =>
            utf8 halves fuel (start + 3) ((chars n).reverse ++ acc) (rest.drop 2)
          | _, _ =>
            .error ⟨.utf8, .invalidContinuation, start, first :: rest.take good⟩
        else .error ⟨.utf8, .unexpectedEnd, start, first :: rest⟩

def unit16 (bigEndian : Bool) (a b : UInt8) : Nat :=
  if bigEndian then a.toNat * 256 + b.toNat else b.toNat * 256 + a.toNat

/-- Units of two bytes, a pair of surrogates being one character. -/
def utf16 (bigEndian : Bool) (start : Nat) (acc : List Char) :
    List UInt8 → Except DecodeError (List Char)
  | [] => .ok acc.reverse
  | [a] => .error ⟨.utf16 bigEndian, .truncated, start, [a]⟩
  | a :: b :: c :: d :: rest =>
    let n := unit16 bigEndian a b
    let m := unit16 bigEndian c d
    if 0xD800 ≤ n && n < 0xDC00 && 0xDC00 ≤ m && m < 0xE000 then
      utf16 bigEndian (start + 4)
        (Char.ofNat (0x10000 + (n - 0xD800) * 0x400 + (m - 0xDC00)) :: acc) rest
    else utf16 bigEndian (start + 2) ((chars n).reverse ++ acc) (c :: d :: rest)
  | a :: b :: rest =>
    utf16 bigEndian (start + 2) ((chars (unit16 bigEndian a b)).reverse ++ acc) rest

/-- Units of four bytes. -/
def utf32 (bigEndian : Bool) (start : Nat) (acc : List Char) :
    List UInt8 → Except DecodeError (List Char)
  | [] => .ok acc.reverse
  | a :: b :: c :: d :: rest =>
    let n := if bigEndian then unit16 true a b * 65536 + unit16 true c d
      else unit16 false c d * 65536 + unit16 false a b
    if 0x110000 ≤ n then .error ⟨.utf32 bigEndian, .outOfRange, start, [a, b, c, d]⟩
    else utf32 bigEndian (start + 4) ((chars n).reverse ++ acc) rest
  | bytes => .error ⟨.utf32 bigEndian, .truncated, start, bytes⟩

end Decoder

/-- The text of a file; halves of surrogate pairs are refused. -/
def decodeUtf8 (bytes : List UInt8) : Except DecodeError String :=
  (Decoder.utf8 false bytes.length 0 [] bytes).map String.ofList

end Flowplan.Text
