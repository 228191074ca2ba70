import Flowplan.Workflow.Node

namespace Flowplan.Layout

def overlapIssue (p : Int × Int) : String :=
  "Overlapping nodes detected at position " ++ toString p.1 ++ "," ++ toString p.2

/-- One issue for each node at the position of an earlier one. -/
def overlaps (seen : List (Int × Int)) : List Node → List String
  | [] => []
  | n :: rest =>
    let others := overlaps (n.position :: seen) rest
    if seen.contains n.position then overlapIssue n.position :: others else others

def negativeIssue (n : Node) : String :=
  "Node " ++ n.name ++ " has negative position: [" ++ toString n.position.1 ++ ", " ++
    toString n.position.2 ++ "]"

def negatives (nodes : List Node) : List String :=
  (nodes.filter fun n => n.position.1 < 0 || n.position.2 < 0).map negativeIssue

/-- What is wrong with the positions of nodes: those that coincide, then those off the canvas. -/
def review (nodes : List Node) : List String := overlaps [] nodes ++ negatives nodes

structure Bounds where
  minX : Int
  minY : Int
  maxX : Int
  maxY : Int
deriving DecidableEq, Repr

namespace Bounds

/-- The least rectangle that holds the positions of all nodes. -/
def ofNodes : List Node → Bounds
  | [] => ⟨0, 0, 0, 0⟩
  | n :: rest => rest.foldl (fun b m =>
      ⟨min b.minX m.position.1, min b.minY m.position.2, max b.maxX m.position.1,
        max b.maxY m.position.2⟩)
      ⟨n.position.1, n.position.2, n.position.1, n.position.2⟩

def width (b : Bounds) : Int := b.maxX - b.minX

def height (b : Bounds) : Int := b.maxY - b.minY

end Bounds
end Flowplan.Layout
