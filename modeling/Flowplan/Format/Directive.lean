import Flowplan.Text.Basic

namespace Flowplan.Format

/-- A width or a precision: written out, or the next of the values. -/
inductive Size where
  | given (n : Nat)
  | taken
deriving DecidableEq, Repr

inductive Conversion where
  | text
  | quoted
  /-- Quoted, with escapes for all that is not ASCII. -/
  | ascii
  | decimal
  | octal
  | hex (upper : Bool)
  | fixed (upper : Bool)
  | scientific (upper : Bool)
  | general (upper : Bool)
  | character
deriving DecidableEq, Repr

namespace Conversion

def ofChar? : Char → Option Conversion
  | 's' => some .text
  | 'r' => some .quoted
  | 'a' => some .ascii
  | 'd' => some .decimal
  | 'i' => some .decimal
  | 'u' => some .decimal
  | 'o' => some .octal
  | 'x' => some (.hex false)
  | 'X' => some (.hex true)
  | 'f' => some (.fixed false)
  | 'F' => some (.fixed true)
  | 'e' => some (.scientific false)
  | 'E' => some (.scientific true)
  | 'g' => some (.general false)
  | 'G' => some (.general true)
  | 'c' => some .character
  | _ => none

end Conversion

/-- What a directive says about the look of its value. -/
structure Flags where
  left : Bool := false
  sign : Bool := false
  blank : Bool := false
  alternate : Bool := false
  zero : Bool := false
deriving DecidableEq, Repr

namespace Flags

def letters : List Char := ['-', '+', ' ', '#', '0']

def ofLetters (cs : List Char) : Flags where
  left := cs.contains '-'
  sign := cs.contains '+'
  blank := cs.contains ' '
  alternate := cs.contains '#'
  zero := cs.contains '0'

end Flags

/-- A place for a value, which is the one of its key where it has one. -/
structure Directive where
  key : Option String
  flags : Flags
  width : Option Size
  precision : Option Size
  conversion : Conversion
deriving DecidableEq, Repr

namespace Directive

/-- A key up to the bracket that closes it, and what follows; brackets inside it come in pairs. -/
def keyWithin (opened : Nat) : List Char → Option (List Char × List Char)
  | [] => none
  | ')' :: rest =>
    match opened with
    | 0 => some ([], rest)
    | n + 1 => (keyWithin n rest).map fun (key, rest) => (')' :: key, rest)
  | c :: rest =>
    (keyWithin (if c = '(' then opened + 1 else opened) rest).map fun (key, rest) =>
      (c :: key, rest)

def readKey : List Char → Option (Option String × List Char)
  | '(' :: rest => (keyWithin 0 rest).map fun (key, rest) => (some (String.ofList key), rest)
  | cs => some (none, cs)

def number (digits : List Char) : Nat := Nat.ofDigitChars 10 digits 0

def readWidth (cs : List Char) : Option Size × List Char :=
  match cs with
  | '*' :: rest => (some .taken, rest)
  | _ =>
    let digits := cs.takeWhile Char.isDigit
    (if digits.isEmpty then none else some (.given (number digits)), cs.dropWhile Char.isDigit)

/-- A point without a number is a precision of zero. -/
def readPrecision : List Char → Option Size × List Char
  | '.' :: rest =>
    let (size, rest) := readWidth rest
    (some (size.getD (.given 0)), rest)
  | cs => (none, cs)

/-- A letter for the size of the value, which has no meaning. -/
def dropLength : List Char → List Char
  | 'h' :: rest => rest
  | 'l' :: rest => rest
  | 'L' :: rest => rest
  | cs => cs

/-- The directive after a percent sign, and what follows it. -/
def read? (cs : List Char) : Option (Directive × List Char) := do
  let (key, cs) ← readKey cs
  let flags := Flags.ofLetters (cs.takeWhile Flags.letters.contains)
  let (width, cs) := readWidth (cs.dropWhile Flags.letters.contains)
  let (precision, cs) := readPrecision cs
  match dropLength cs with
  | [] => none
  | c :: rest => return (⟨key, flags, width, precision, ← Conversion.ofChar? c⟩, rest)

end Directive

inductive Piece where
  | char (c : Char)
  | directive (d : Directive)
deriving DecidableEq, Repr

namespace Piece

def readWithin : Nat → List Char → Option (List Piece)
  | 0, _ => none
  | _, [] => some []
  | fuel + 1, '%' :: '%' :: rest => do return .char '%' :: (← readWithin fuel rest)
  | fuel + 1, '%' :: rest => do
    let (d, rest) ← Directive.read? rest
    return .directive d :: (← readWithin fuel rest)
  | fuel + 1, c :: rest => do return .char c :: (← readWithin fuel rest)

/-- The pieces of a format, if all of its directives are complete; two percent signs are one
character. -/
def read? (format : String) : Option (List Piece) :=
  readWithin (format.length + 1) format.toList

end Piece
end Flowplan.Format
