import Flowplan.Layout.Graph

namespace Flowplan.Layout

/-- Levels by id, in the order in which they were found. -/
abbrev Levels := Table String Nat

namespace Levels

/-- An id to be looked at, or one whose dependencies have all been looked at. -/
inductive Task where
  | enter (id : String)
  | leave (id : String)
deriving DecidableEq, Repr

/-- The ids with a level, those on the path to the one looked at, and what is left to do. -/
structure Search where
  levels : Levels
  path : List String
  tasks : List Task

def levelOf (levels : Levels) (sources : List String) : Nat :=
  match sources with
  | [] => 0
  | sources => 1 + (sources.map fun s => (Table.get? levels s).getD 0).foldl max 0

/-- The tasks for the dependencies that have no level yet, the last dependency first; one on the
path closes a cycle. -/
def enterSources (s : Search) (id : String) : List String → List Task → Except Fault (List Task)
  | [], tasks => .ok tasks
  | source :: rest, tasks =>
    if s.path.contains source then .error (.cycle source id)
    else if Table.has s.levels source then enterSources s id rest tasks
    else enterSources s id rest (.enter source :: tasks)

/-- One task done. -/
def step (g : Dependencies) (s : Search) : Except Fault Search :=
  match s.tasks with
  | [] => .ok s
  | .leave id :: tasks =>
    .ok ⟨Table.set s.levels id (levelOf s.levels (g.sources id)), s.path.erase id, tasks⟩
  | .enter id :: tasks =>
    if Table.has s.levels id then .ok { s with tasks := tasks }
    else if s.path.contains id then .error (.cycleAt id)
    else do
      let s : Search := ⟨s.levels, id :: s.path, tasks⟩
      let tasks ← enterSources s id (g.sources id) (.leave id :: tasks)
      return { s with tasks := tasks }

/-- Tasks done until none is left. -/
def run (g : Dependencies) : Nat → Search → Except Fault Search
  | 0, s => .ok s
  | fuel + 1, s =>
    match s.tasks with
    | [] => .ok s
    | _ => do run g fuel (← step g s)

/-- More tasks than a search can have: each id is entered once for itself and once for each
dependency on it, and left as often at most. -/
def taskBound (g : Dependencies) : Nat :=
  2 * (1 + g.foldr (fun (_, sources) n => sources.length + n) 0) + 1

/-- The levels of an id and of all that it depends on, added to those known. -/
def addFrom (g : Dependencies) (levels : Levels) (id : String) : Except Fault Levels :=
  if Table.has levels id then .ok levels
  else do return (← run g (taskBound g) ⟨levels, [], [.enter id]⟩).levels

/-- Nothing to depend on is level 0; all else is one above its highest dependency. -/
def ofNodes (g : Dependencies) (nodes : List Node) : Except Fault Levels :=
  nodes.foldlM (fun levels n => addFrom g levels n.id) []

end Levels
end Flowplan.Layout
