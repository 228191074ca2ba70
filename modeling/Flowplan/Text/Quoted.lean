import Flowplan.Text.Basic
import Flowplan.Unicode.Printable

namespace Flowplan.Text

/-- The quote that a text is written in: single, unless it holds single quotes alone. -/
def quoteMark (cs : List Char) : Char :=
  if cs.contains (Char.ofNat 39) && !cs.contains '"' then '"' else Char.ofNat 39

def codePointEscape (n : Nat) : String :=
  if n < 0x100 then "\\x" ++ hexDigits 2 n
  else if n < 0x10000 then "\\u" ++ hexDigits 4 n
  else "\\U" ++ hexDigits 8 n

def quotedChar (mark c : Char) : String :=
  if c == '\\' then "\\\\"
  else if c == mark then "\\" ++ String.singleton c
  else if c == '\n' then "\\n"
  else if c == '\r' then "\\r"
  else if c == '\t' then "\\t"
  else if Unicode.isPrintable c then String.singleton c
  else codePointEscape c.toNat

/-- A text in quotes, with escapes for what is not printable. -/
def quoted (s : String) : String :=
  let cs := s.toList
  let mark := quoteMark cs
  cs.foldl (fun acc c => acc ++ quotedChar mark c) (String.singleton mark) ++ String.singleton mark

end Flowplan.Text
