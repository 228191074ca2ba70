import Flowplan.Text.Basic
import Flowplan.Unicode.Width

/-!
Texts as lines of a given number of cells.
-/

namespace Flowplan.Console

open Unicode (width charWidth isBlank)

/-- What becomes of a word that is longer than a line: it goes on in the next line, or it is cut
off with an ellipsis. -/
inductive Overflow where
  | fold
  | ellipsis
deriving DecidableEq, Repr

/-- Where a text stands in its lines; a loose text has no blanks added to it. -/
inductive Alignment where
  | loose
  | left
  | center
deriving DecidableEq, Repr

def blanks (n : Nat) : List Char := List.replicate n ' '

/-- The first characters that fit into a number of cells. -/
def takeCells (size : Nat) : List Char → List Char
  | [] => []
  | c :: rest => if charWidth c ≤ size then c :: takeCells (size - charWidth c) rest else []

def padded (size : Nat) (cs : List Char) : List Char := cs ++ blanks (size - width cs)

def truncated (overflow : Overflow) (size : Nat) (cs : List Char) : List Char :=
  if width cs ≤ size then cs
  else match overflow with
    | .fold => padded size (takeCells size cs)
    | .ellipsis => padded (size - 1) (takeCells (size - 1) cs) ++ [Char.ofNat 0x2026]

def aligned (alignment : Alignment) (overflow : Overflow) (size : Nat) (cs : List Char) :
    List Char :=
  match alignment with
  | .loose => truncated overflow size cs
  | .left => padded size (truncated overflow size cs)
  | .center =>
    let cs := truncated overflow size (cs.reverse.dropWhile isBlank).reverse
    padded size (blanks ((size - width cs) / 2) ++ cs)

def tabStop : Nat := 8

/-- A tab moves on to the next stop. -/
def withoutTabs (column : Nat) : List Char → List Char
  | [] => []
  | c :: rest =>
    if c = '\t' then
      let gap := tabStop - column % tabStop
      blanks gap ++ withoutTabs (column + gap) rest
    else c :: withoutTabs (column + charWidth c) rest

/-- The words of a line with the blanks after them; blanks in front belong to the first word. -/
def words (cs : List Char) : List (List Char) :=
  let start := cs.takeWhile isBlank
  let afterStart := cs.dropWhile isBlank
  let word := afterStart.takeWhile (!isBlank ·)
  let afterWord := afterStart.dropWhile (!isBlank ·)
  let rest := afterWord.dropWhile isBlank
  if word.isEmpty then []
  else
    let first := start ++ word ++ afterWord.takeWhile isBlank
    if _h : rest.length < cs.length then first :: words rest else [first]
termination_by cs.length

/-- Pieces of a word that each fit a line. -/
def folded (size : Nat) (used : Nat) (piece : List Char) : List Char → List (List Char)
  | [] => [piece]
  | c :: rest =>
    if size < used + charWidth c then piece :: folded size (charWidth c) [c] rest
    else folded size (used + charWidth c) (piece ++ [c]) rest

/-- Lines that are full, and the one that is being filled. -/
structure Filling where
  full : List (List Char)
  line : List Char
  used : Nat

namespace Filling

def push (f : Filling) (cs : List Char) : Filling := ⟨f.full, f.line ++ cs, f.used + width cs⟩

/-- Starts a new line, unless the last one is empty. -/
def turn (f : Filling) : Filling :=
  if f.line.isEmpty then f else ⟨f.full ++ [f.line], [], 0⟩

def add (overflow : Overflow) (size : Nat) (f : Filling) (word : List Char) : Filling :=
  let needed := width (word.reverse.dropWhile isBlank).reverse
  if f.used + needed ≤ size then f.push word
  else if size < needed ∧ overflow = .fold then
    (folded size 0 [] word).foldl (fun f piece => f.turn.push piece) f
  else f.turn.push word

end Filling

/-- A line divided between words. -/
def divided (overflow : Overflow) (size : Nat) (cs : List Char) : List (List Char) :=
  match words cs with
  | [] => [cs]
  | ws =>
    let f := ws.foldl (Filling.add overflow size) ⟨[], [], 0⟩
    f.full ++ [f.line]

/-- Blanks at the end do not make a line too long. -/
def withoutExcess (size : Nat) (cs : List Char) : List Char :=
  let blank := (cs.reverse.takeWhile isBlank).length
  cs.take (cs.length - min blank (cs.length - size))

/-- The lines of a text, none longer than a number of cells. -/
def lines (alignment : Alignment) (overflow : Overflow) (size : Nat) (text : String) :
    List (List Char) :=
  (Text.pieces '\n' text.toList).flatMap fun line =>
    (divided overflow size (withoutTabs 0 line)).map fun cs =>
      aligned alignment overflow size (withoutExcess size cs)

def endsLine (c : Char) : Bool :=
  let n := c.toNat
  (10 ≤ n && n ≤ 13) || (0x1C ≤ n && n ≤ 0x1E) || n == 0x85 || n == 0x2028 || n == 0x2029

/-- The cells that the longest line of a text takes. -/
def longest (cs : List Char) : Nat :=
  ((Text.pieces '\n' (cs.map fun c => if endsLine c then '\n' else c)).map width).foldl max 0

def consoleWidth : Nat := 1000

/-- A text as a console shows it. -/
def shown (text : String) : String :=
  String.join ((lines .loose .fold consoleWidth text).map fun cs => (String.ofList cs).push '\n')

end Flowplan.Console
