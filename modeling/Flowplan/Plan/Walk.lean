import Flowplan.Plan.Basic

namespace Flowplan.Step

/-- The steps below a branch: those of each case, then those of its else. -/
def children : Step → List (List Step)
  | .branch cases otherwise => cases.map Case.steps ++ otherwise.toOption.toList
  | _ => []

mutual

/-- A step, then everything below it in document order. -/
def preorder : Step → List Step
  | .branch cases otherwise =>
    .branch cases otherwise :: (preorderCases cases ++ preorderElse otherwise)
  | .trigger path signed => [.trigger path signed]
  | .filter condition => [.filter condition]
  | .slack channel text => [.slack channel text]
  | .request method url headers body => [.request method url headers body]
  | .action slug input => [.action slug input]
  | .bare type => [.bare type]

def preorderCases : List (Case Step) → List Step
  | [] => []
  | ⟨_, steps⟩ :: rest => preorderList steps ++ preorderCases rest

def preorderElse : Member (List Step) → List Step
  | .given steps => preorderList steps
  | .absent => []
  | .null => []

def preorderList : List Step → List Step
  | [] => []
  | s :: rest => preorder s ++ preorderList rest

end

theorem sizeOf_steps_le (cases : List (Case Step)) :
    sizeOf (cases.map Case.steps) ≤ sizeOf cases := by
  induction cases with
  | nil => simp
  | cons c rest ih =>
    obtain ⟨condition, steps⟩ := c
    simp only [List.map_cons, List.cons.sizeOf_spec, Case.mk.sizeOf_spec]
    omega

theorem sizeOf_append (xs ys : List (List Step)) :
    sizeOf (xs ++ ys) + 1 = sizeOf xs + sizeOf ys := by
  induction xs with
  | nil => simp; omega
  | cons x rest ih =>
    simp only [List.cons_append, List.cons.sizeOf_spec]
    omega

theorem sizeOf_children_lt (s : Step) (rest : List (List Step)) :
    sizeOf (s.children ++ rest) < sizeOf s + sizeOf rest := by
  have h := sizeOf_append s.children rest
  have : sizeOf s.children ≤ sizeOf s := by
    cases s with
    | branch cases otherwise =>
      have hc := sizeOf_steps_le cases
      have ha := sizeOf_append (cases.map Case.steps) otherwise.toOption.toList
      cases otherwise with
      | given steps => simp [children, Member.toOption] at ha ⊢; omega
      | absent => simp [children, Member.toOption] at ha ⊢; omega
      | null => simp [children, Member.toOption] at ha ⊢; omega
    | _ => simp [children]; try omega
  omega

/-- The walk with the sequences that are not finished on a stack: the children of a step go on top
of the rest of its own sequence. -/
def walk (stack : List (List Step)) : List Step :=
  match stack with
  | [] => []
  | [] :: rest => walk rest
  | (s :: top) :: rest => s :: walk (s.children ++ top :: rest)
termination_by sizeOf stack
decreasing_by
  · simp
  · have := sizeOf_children_lt s (top :: rest)
    simp only [List.cons.sizeOf_spec] at this ⊢
    omega

/-- Every step at any depth, a branch before its children. -/
def all (steps : List Step) : List Step := walk [steps]

def count (steps : List Step) : Nat := (all steps).length

/-- The types of all steps; a step without a type has none to give. -/
def types? (steps : List Step) : Option (List String) := (all steps).mapM type?

def hasType? (type : String) (steps : List Step) : Option Bool :=
  search (all steps)
where
  /-- Looks no further than the first step of the type. -/
  search : List Step → Option Bool
    | [] => some false
    | s :: rest => do
      let t ← s.type?
      if t == type then return true else search rest

def distinct (types : List String) : List String :=
  types.foldl (fun seen t => if seen.contains t then seen else seen ++ [t]) []

/-- Each type that occurs, once, in the order of first occurrence. -/
def usedTypes? (steps : List Step) : Option (List String) := (types? steps).map distinct

end Flowplan.Step
