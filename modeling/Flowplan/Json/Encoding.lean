import Flowplan.Json.Reader
import Flowplan.Text.Encoding

namespace Flowplan.Json

open Text (DecodeError Encoding Decoder.utf8 Decoder.utf16 Decoder.utf32)

/-- Why a document in bytes is no JSON value. -/
inductive DocumentError where
  | undecodable (e : DecodeError)
  | unreadable (e : ReadError)

/-- The byte order marks. One that starts with another stands before it. -/
def marks : List (List UInt8 × Encoding) :=
  [([0x00, 0x00, 0xFE, 0xFF], .utf32 true), ([0xFF, 0xFE, 0x00, 0x00], .utf32 false),
    ([0xFE, 0xFF], .utf16 true), ([0xFF, 0xFE], .utf16 false), ([0xEF, 0xBB, 0xBF], .utf8)]

/-- The encoding of a document without a byte order mark, which shows in where the zero bytes of its
first two characters stand. -/
def unmarkedEncoding : List UInt8 → Encoding
  | a :: b :: c :: d :: _ =>
    if a = 0 then if b = 0 then .utf32 true else .utf16 true
    else if b = 0 then if c = 0 ∧ d = 0 then .utf32 false else .utf16 false
    else .utf8
  | [a, b] => if a = 0 then .utf16 true else if b = 0 then .utf16 false else .utf8
  | _ => .utf8

/-- The characters of bytes in an encoding, of which some were skipped before them. -/
def decodeAs (e : Encoding) (skipped : Nat) (bytes : List UInt8) : Except DecodeError (List Char) :=
  match e with
  | .utf8 => Decoder.utf8 true bytes.length 0 [] bytes
  | .utf16 bigEndian => Decoder.utf16 bigEndian skipped [] bytes
  | .utf32 bigEndian => Decoder.utf32 bigEndian skipped [] bytes

/-- The characters of a document, whose encoding shows in its first bytes. -/
def decode (bytes : List UInt8) : Except DecodeError (List Char) :=
  match marks.find? fun m => m.1.isPrefixOf bytes with
  | some (mark, e) => decodeAs e mark.length (bytes.drop mark.length)
  | none => decodeAs (unmarkedEncoding bytes) 0 bytes

def readBytes (bytes : List UInt8) : Except DocumentError Json :=
  match decode bytes with
  | .error e => .error (.undecodable e)
  | .ok cs => (readChars nestingLimit cs).mapError .unreadable

end Flowplan.Json
