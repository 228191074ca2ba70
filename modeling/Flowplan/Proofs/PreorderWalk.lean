import Flowplan.Plan.Walk

namespace Flowplan.Step
set_option autoImplicit true

theorem preorderCases_eq_flatMap (cases : List (Case Step)) :
    preorderCases cases = (cases.map Case.steps).flatMap preorderList := by
  induction cases with
  | nil => rfl
  | cons c rest ih =>
    rw [preorderCases, ih]
    rfl

theorem preorderElse_eq_flatMap (otherwise : Member (List Step)) :
    preorderElse otherwise = otherwise.toOption.toList.flatMap preorderList := by
  cases otherwise with
  | absent => rfl
  | null => rfl
  | given steps => simp [preorderElse, Member.toOption]

/-- A step comes before everything in the sequences below it. -/
theorem preorder_eq_cons (s : Step) : preorder s = s :: s.children.flatMap preorderList := by
  cases s with
  | branch cases otherwise =>
    rw [preorder, preorderCases_eq_flatMap, preorderElse_eq_flatMap, children,
      List.flatMap_append]
  | _ => rfl

/-- Sequences still on the stack are walked one after the other. -/
theorem walk_eq_flatMap (stack : List (List Step)) : walk stack = stack.flatMap preorderList := by
  induction stack using walk.induct with
  | case1 => rw [walk]; rfl
  | case2 rest ih =>
    rw [walk, ih]
    rfl
  | case3 s top rest ih =>
    rw [walk, ih, List.flatMap_append]
    simp only [List.flatMap_cons, preorderList, preorder_eq_cons, List.cons_append,
      List.append_assoc]

theorem all_eq_preorderList (steps : List Step) : all steps = preorderList steps := by
  rw [all, walk_eq_flatMap, List.flatMap_singleton]

end Flowplan.Step
