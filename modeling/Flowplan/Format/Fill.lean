import Flowplan.Format.Number
import Flowplan.Json.Display

namespace Flowplan.Format

open Flowplan.Json Flowplan.Decimal

/-- The values that directives take: those of their keys, or one after the other. -/
structure Supply where
  members : Option Object
  values : List Json

abbrev Filling (α : Type) := StateT Supply Option α

namespace Filling

def next : Filling Json := do
  match (← get).values with
  | [] => failure
  | v :: rest =>
    modify ({ · with values := rest })
    return v

/-- Goes on with the value of a key. -/
def choose (key : String) : Filling Unit := do
  match (← get).members.bind (Table.get? · key) with
  | none => failure
  | some v => modify ({ · with values := [v] })

end Filling

def integer? : Json → Option Int
  | .int n => some n
  | .bool b => some (if b then 1 else 0)
  | _ => none

/-- A number without what follows its point. -/
def whole? : Json → Option Int
  | .real x => if x.isFinite then some x.truncate else none
  | v => integer? v

def real? : Json → Option Binary64
  | .real x => some x
  | v => do
    let x := Binary64.ofInt (← integer? v)
    if x.isFinite then some x else none

def character? : Json → Option String
  | .str s => if s.length = 1 then some s else none
  | v => do
    let n ← integer? v
    if 0 ≤ n && n.toNat.isValidChar then some (String.singleton (Char.ofNat n.toNat)) else none

def asciiOnly (s : String) : String :=
  String.join (s.toList.map fun c =>
    if c.toNat < 128 then String.singleton c else Text.codePointEscape c.toNat)

/-- A directive whose sizes are known. -/
structure Shape where
  flags : Flags
  width : Nat
  precision : Option Nat

namespace Shape

def text (s : Shape) (value : String) : String :=
  let missing := s.width - value.length
  if s.flags.left then value ++ Text.replicate missing ' '
  else Text.replicate missing ' ' ++ value

def cutText (s : Shape) (value : String) : String :=
  s.text ((s.precision.map (Text.take · value)).getD value)

def number (s : Shape) (upper : Bool) (w : Written) : String :=
  (if upper then w.upper else w).padded s.flags s.width

def mark (s : Shape) (text : String) : String := if s.flags.alternate then text else ""

def places (s : Shape) : Nat := s.precision.getD 6

/-- A value by a conversion that suits it. -/
def value? (s : Shape) (v : Json) : Conversion → Option String
  | .text => some (s.cutText v.plain)
  | .quoted => some (s.cutText v.display)
  | .ascii => some (s.cutText (asciiOnly v.display))
  | .decimal => (whole? v).map fun n => s.number false (integer 10 "" (s.precision.getD 1) n)
  | .octal => (integer? v).map fun n =>
    s.number false (integer 8 (s.mark "0o") (s.precision.getD 1) n)
  | .hex upper => (integer? v).map fun n =>
    s.number upper (integer 16 (s.mark "0x") (s.precision.getD 1) n)
  | .fixed upper => (real? v).map fun x =>
    s.number upper (real (fixed s.places s.flags.alternate) x)
  | .scientific upper => (real? v).map fun x =>
    s.number upper (real (scientific s.places s.flags.alternate) x)
  | .general upper => (real? v).map fun x =>
    s.number upper (real (general (max s.places 1) s.flags.alternate) x)
  | .character => (character? v).map s.text

end Shape

namespace Directive

/-- No width or precision reaches this. -/
def sizeLimit : Nat := twoTo 31

def size? : Size → Filling (Option Int)
  | .given n => return some n
  | .taken => return integer? (← Filling.next)

/-- A size from where it is said, if one is. -/
def size : Option Size → Filling (Option Int)
  | none => return none
  | some s => do
    match ← size? s with
    | some n => if n.natAbs < sizeLimit then return some n else failure
    | none => failure

/-- A negative width is one to the left, and a negative precision none at all. -/
def shape (d : Directive) : Filling Shape := do
  let width := (← size d.width).getD 0
  let precision ← size d.precision
  return ⟨{ d.flags with left := d.flags.left || width < 0 }, width.natAbs, precision.map Int.toNat⟩

def fill (d : Directive) : Filling String := do
  if let some key := d.key then Filling.choose key
  let shape ← d.shape
  match shape.value? (← Filling.next) d.conversion with
  | some s => return s
  | none => failure

end Directive

namespace Piece

def fill : Piece → Filling String
  | .char c => return String.singleton c
  | .directive d => d.fill

end Piece

/-- A format with its values in place; values that have no keys are all to be used. -/
def fill? (format : String) (supply : Supply) : Option String := do
  let pieces ← Piece.read? format
  let (texts, left) ← (pieces.mapM Piece.fill).run supply
  if left.members.isSome || left.values.isEmpty then some (String.join texts) else none

end Flowplan.Format
