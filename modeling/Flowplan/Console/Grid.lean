import Flowplan.Console.Wrap

/-!
Tables and panels in rounded frames.
-/

namespace Flowplan.Console

structure Column where
  title : String
  alignment : Alignment := .left

/-- A titled table; a row has a cell for each column. -/
structure Grid where
  title : String
  columns : List Column
  rows : List (List String)

/-- A blank on either side of a cell's text. -/
def cellPadding : Nat := 2

/-- A quotient to the nearest whole number, a half to the even one. -/
def nearest (a b : Nat) : Nat :=
  let q := a / b
  let r := a % b
  if 2 * r < b then q else if b < 2 * r then q + 1 else if q % 2 = 0 then q else q + 1

/-- Takes a total from the values that are at their greatest, in equal parts of at most a limit. -/
def shareOut (greatest limit : Nat) : Nat → Nat → List Nat → List Nat
  | _, _, [] => []
  | remaining, count, v :: rest =>
    if v = greatest && 0 < count then
      let part := min limit (nearest remaining count)
      (v - part) :: shareOut greatest limit (remaining - part) (count - 1) rest
    else v :: shareOut greatest limit remaining count rest

/-- The widest columns made narrower until all fit. -/
def narrowed (available : Nat) : Nat → List Nat → List Nat
  | 0, widths => widths
  | fuel + 1, widths =>
    let excess := widths.sum - available
    if excess = 0 then widths
    else
      let greatest := widths.foldl max 0
      let second := (widths.filter (· != greatest)).foldl max 0
      if greatest = second then widths
      else
        narrowed available fuel
          (shareOut greatest (min excess (greatest - second)) excess (widths.count greatest) widths)

namespace Grid

def columnCells (g : Grid) (i : Nat) (c : Column) : List String :=
  c.title :: g.rows.map fun row => (row[i]?).getD ""

def naturalWidth (available : Nat) (cells : List String) : Nat :=
  (cells.map fun s => min available (longest s.toList + cellPadding)).foldl max 0

/-- The cells that frames and dividers take of a line. -/
def frameWidth (g : Grid) : Nat := g.columns.length + 1

def total (widths : List Nat) : Nat := widths.foldr Nat.add 0

def widths (g : Grid) : List Nat :=
  let available := consoleWidth - g.frameWidth
  let natural := g.columns.mapIdx fun i c => naturalWidth available (g.columnCells i c)
  narrowed available (total natural + 1) natural

/-- A line of the frame. -/
def rule (left line divider right : Char) (widths : List Nat) : String :=
  String.singleton left ++
    String.intercalate (String.singleton divider) (widths.map fun n => Text.replicate n line) ++
    String.singleton right

def cellLines (alignment : Alignment) (size : Nat) (text : String) : List (List Char) :=
  (lines alignment .ellipsis (size - cellPadding) text).map fun cs =>
    ' ' :: (padded (size - cellPadding) cs ++ [' '])

/-- Lines of blanks below a cell, or above it in a header, up to the height of its row. -/
def raised (header : Bool) (height size : Nat) (cell : List (List Char)) : List (List Char) :=
  let more := List.replicate (height - cell.length) (blanks size)
  if header then more ++ cell else cell ++ more

def bar : String := "│"

def rowLines (g : Grid) (widths : List Nat) (header : Bool) (row : List String) : List String :=
  let cells := g.columns.mapIdx fun i c =>
    cellLines c.alignment (widths.getD i 0) (row.getD i "")
  let height := (cells.map List.length).foldl max 1
  let cells := cells.mapIdx fun i cell => raised header height (widths.getD i 0) cell
  (List.range height).map fun n =>
    bar ++ String.intercalate bar (cells.map fun cell => String.ofList (cell.getD n [])) ++ bar

def titleLines (g : Grid) (widths : List Nat) : List String :=
  (lines .center .fold (total widths + g.frameWidth) g.title).map String.ofList

def render (g : Grid) : List String :=
  let widths := g.widths
  g.titleLines widths ++ [rule '╭' '─' '┬' '╮' widths] ++
    g.rowLines widths true (g.columns.map Column.title) ++ [rule '├' '─' '┼' '┤' widths] ++
    g.rows.flatMap (g.rowLines widths false) ++ [rule '╰' '─' '┴' '╯' widths]

def shown (g : Grid) : String := String.join (g.render.map (·.push '\n'))

end Grid

/-- A text in a frame that is as wide as its longest line. -/
def panel (text : String) : String :=
  let size := min (consoleWidth - 2) (longest text.toList + cellPadding)
  let inside := (lines .loose .fold (size - cellPadding) text).map fun cs =>
    "│ " ++ String.ofList (padded (size - cellPadding) cs) ++ " │"
  let all := [Grid.rule '╭' '─' '─' '╮' [size]] ++ inside ++ [Grid.rule '╰' '─' '─' '╯' [size]]
  String.join (all.map (·.push '\n'))

end Flowplan.Console
