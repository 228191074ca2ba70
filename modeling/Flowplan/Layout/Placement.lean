import Flowplan.Layout.Levels
import Flowplan.Layout.Options
import Flowplan.Log.Entry

namespace Flowplan.Layout

abbrev Position := Amount × Amount

/-- A node at a position, whole numbers being cut off toward zero. -/
def placeAt (n : Node) (p : Position) : Except AmountFault Node := do
  return n.place (← p.1.truncate, ← p.2.truncate)

def columnCount : Nat := 3

def gridPosition (o : Options) (i : Nat) : Except AmountFault Position := do
  let right ← Amount.mul (.int (i % columnCount : Nat)) o.horizontalSpacing
  let x ← o.startX.add right
  let down ← Amount.mul (.int (i / columnCount : Nat)) o.verticalSpacing
  let y ← o.startY.add down
  return (x, y)

def gridFrom (o : Options) (i : Nat) : List Node → Except AmountFault (List Node)
  | [] => .ok []
  | n :: rest => do
    let placed ← placeAt n (← gridPosition o i)
    return placed :: (← gridFrom o (i + 1) rest)

/-- Rows of three nodes. -/
def grid (o : Options) (nodes : List Node) : Except AmountFault (List Node) := gridFrom o 0 nodes

/-- The nodes of a level, sorted by name. -/
def column (nodes : List Node) (levels : Levels) (level : Nat) : List Node :=
  (nodes.filter fun n => (Table.get? levels n.id).getD 0 = level).mergeSort
    fun a b => decide (a.name ≤ b.name)

/-- The levels that nodes are on, from the lowest. -/
def usedLevels (nodes : List Node) (levels : Levels) : List Nat :=
  (nodes.map fun n => (Table.get? levels n.id).getD 0).eraseDups.mergeSort fun a b => decide (a ≤ b)

/-- Where the first node of a column stands, the column being centred on the start. -/
def columnTop (o : Options) (size : Nat) : Except AmountFault Amount := do
  let nodes ← Amount.mul (.int size) o.nodeHeight
  let gaps ← Amount.mul (.int ((size : Int) - 1)) o.verticalSpacing
  o.startY.sub (← nodes.add gaps).half

def columnPositions (o : Options) (x top : Amount) (i : Nat) :
    List Node → Except AmountFault (List (String × Position))
  | [] => .ok []
  | n :: rest => do
    let pitch ← o.nodeHeight.add o.verticalSpacing
    let y ← top.add (← Amount.mul (.int i) pitch)
    return (n.id, (x, y)) :: (← columnPositions o x top (i + 1) rest)

/-- The positions of a level's nodes by their ids. -/
def levelPositions (o : Options) (nodes : List Node) (levels : Levels) (level : Nat) :
    Except AmountFault (List (String × Position)) := do
  let nodes := column nodes levels level
  let x ← o.startX.add (← Amount.mul (.int level) o.horizontalSpacing)
  columnPositions o x (← columnTop o nodes.length) 0 nodes

def positions (o : Options) (nodes : List Node) (levels : Levels) :
    Except AmountFault (Table String Position) := do
  let found ← (usedLevels nodes levels).mapM (levelPositions o nodes levels)
  return Table.ofPairs found.flatten

/-- Columns by level. -/
def layered (o : Options) (nodes : List Node) (w : Wiring) : Except Fault (List Node) := do
  let g ← Dependencies.ofWiring nodes w
  let levels ← Levels.ofNodes g nodes
  let found ← (positions o nodes levels).mapError .amount
  (nodes.mapM fun n => placeAt n ((Table.get? found n.id).getD (o.startX, o.startY))).mapError .amount

def logger : String := "plan_compiler.compiler.layout"

def fallbackLog (nodes : List Node) (f : Fault) : LogEntry :=
  ⟨logger, .warning, "Auto-layout failed, falling back to grid layout nodes=" ++
    toString nodes.length ++ " error=" ++ f.message⟩

/-- The nodes with positions: the layered layout, or the grid where that is not possible. -/
def auto (o : Options) (nodes : List Node) (w : Wiring) :
    Except AmountFault (List Node) × List LogEntry :=
  match nodes with
  | [] => (.ok [], [])
  | [n] => ((placeAt n (o.startX, o.startY)).map ([·]), [])
  | nodes => match layered o nodes w with
    | .ok placed => (.ok placed, [])
    | .error f => (grid o nodes, [fallbackLog nodes f])

end Flowplan.Layout
