import Flowplan.Proofs.FlattenOrder
import Flowplan.Proofs.PlanSites
import Flowplan.Proofs.ReadPlan

/-!
How far flattening gets. Main statement: flattening some steps stops at the first of them in document
order that has an obstacle, with the registry asked up to there and no further.
-/

namespace Flowplan
set_option autoImplicit true

open Flowplan.Action (Definition)

/-- What the registry says of an action does not depend on what else it was asked. -/
def Context.Steady (c : Context) (answer : String → Except Outage (Option Definition)) : Prop :=
  ∀ history slug, c.resolve history slug = answer slug

/-- What stands in the way of a comparison. -/
def Operator.obstacle? (s : Step) : Operator → Option Obstacle
  | .other v =>
    some (if v.isKey then .refusal (.unsupportedOperator v s) else .breakdown (.unusableOperator v))
  | _ => none

theorem Operator.obstacle?_of_known {op : Operator} (h : op.Known) (s : Step) :
    op.obstacle? s = none := by
  cases op with
  | other v => exact False.elim h
  | _ => rfl

theorem Operator.known_of_obstacle? {op : Operator} (h : op.obstacle? s = none) : op.Known := by
  cases op with
  | other v => simp [obstacle?] at h
  | _ => trivial

namespace Step

/-- What stands in the way of a step's node. -/
def nodeObstacle? (answer : String → Except Outage (Option Definition)) (s : Step) :
    Option Obstacle :=
  match s with
  | .filter c => c.op.obstacle? s
  | .branch cases _ => cases.findSome? fun c => c.condition.op.obstacle? s
  | .action slug _ => match answer slug with
    | .ok (some _) => none
    | .ok none => some (.refusal (.unknownAction slug s))
    | .error o => some (.breakdown (.outage o))
  | .bare _ => some (.refusal (.unsupportedStep s))
  | _ => none

/-- What stands in the way of a step inside so many branches. -/
def obstacle? (limit : Int) (answer : String → Except Outage (Option Definition)) (depth : Nat)
    (s : Step) : Option Obstacle :=
  if s.kind? = some .branch ∧ limit ≤ depth then some (.refusal (.tooDeep limit s))
  else s.nodeObstacle? answer

/-- The questions to the registry that a step's node takes. -/
def lookups : Step → List Call
  | .action slug _ => [.resolve slug]
  | _ => []

end Step

/-- How far a run gets: what stops it, if anything, and the calls made by then. -/
structure Course where
  obstacle : Option Obstacle
  calls : List Call

namespace Course

/-- The second after the first, if that is not stopped. -/
def andThen (c d : Course) : Course :=
  match c.obstacle with
  | some o => ⟨some o, c.calls⟩
  | none => ⟨d.obstacle, c.calls ++ d.calls⟩

/-- Nothing to do and nothing in the way. -/
def clear : Course := ⟨none, []⟩

theorem andThen_clear (c : Course) : c.andThen clear = c := by
  obtain ⟨o, calls⟩ := c
  cases o with
  | some o => rfl
  | none => simp [andThen, clear]

theorem andThen_assoc (c d e : Course) : (c.andThen d).andThen e = c.andThen (d.andThen e) := by
  obtain ⟨o, calls⟩ := c
  obtain ⟨o', calls'⟩ := d
  cases o with
  | some o => rfl
  | none =>
    cases o' with
    | some o' => rfl
    | none => simp [andThen, List.append_assoc]

/-- Steps one after the other, each with the number of branches around it. -/
def along (limit : Int) (answer : String → Except Outage (Option Definition)) :
    List (Nat × Step) → Course
  | [] => clear
  | (depth, s) :: rest =>
    andThen ⟨s.obstacle? limit answer depth, s.lookups⟩ (along limit answer rest)

theorem along_append (xs ys : List (Nat × Step)) :
    along limit answer (xs ++ ys) = (along limit answer xs).andThen (along limit answer ys) := by
  induction xs with
  | nil => rfl
  | cons x rest ih =>
    rw [List.cons_append, along, ih, along, andThen_assoc]

end Course

/-- Whatever calls were made before, a run gets as far as a course says, and what it comes to has a
property. -/
def Build.Follows {α : Type} (x : Build α) (good : α → Prop) (c : Course) : Prop :=
  ∀ calls, match c.obstacle with
    | some o => x.runFrom calls = (.error o, calls ++ c.calls)
    | none => ∃ a, x.runFrom calls = (.ok a, calls ++ c.calls) ∧ good a

namespace Build.Follows

variable {α β : Type}

theorem pure {good : α → Prop} (h : good a) : Follows (Pure.pure a) good .clear := by
  intro calls
  refine ⟨a, ?_, h⟩
  rw [runFrom_pure]
  exact congrArg (Prod.mk _) (List.append_nil calls).symm

theorem ofOk {r : Except Obstacle α} {good : α → Prop} (h : r = .ok a) (ha : good a) :
    Follows (Build.ofExcept r) good .clear := by
  rw [h]
  exact pure ha

theorem ofError {r : Except Obstacle α} (good : α → Prop) (h : r = .error o) :
    Follows (Build.ofExcept r) good ⟨some o, []⟩ := by
  intro calls
  rw [runFrom_ofExcept, h]
  exact congrArg (Prod.mk _) (List.append_nil calls).symm

theorem throw (good : α → Prop) (o : Obstacle) :
    Follows (MonadExcept.throw o) good ⟨some o, []⟩ :=
  ofError good rfl

/-- One part after the other. -/
theorem bind {x : Build α} {f : α → Build β} {good : α → Prop} {good' : β → Prop} {c d : Course}
    (hx : Follows x good c) (hf : ∀ a, good a → Follows (f a) good' d) :
    Follows (x >>= f) good' (c.andThen d) := by
  obtain ⟨o, made⟩ := c
  intro calls
  cases o with
  | some o => exact runFrom_bind_error (hx calls) f
  | none =>
    obtain ⟨a, hrun, ha⟩ := hx calls
    have hrest := hf a ha (calls ++ made)
    simp only [List.append_assoc] at hrest
    simp only [Course.andThen, runFrom_bind_ok hrun f]
    exact hrest

end Build.Follows

namespace Node

theorem condition_other (field : String) (v value : Json) (s : Step) :
    condition ⟨field, .other v, value⟩ s = .error (if v.isKey then
      .refusal (.unsupportedOperator v s) else .breakdown (.unusableOperator v)) :=
  (apply_ite Except.error ..).symm

theorem condition_of_obstacle (h : c.op.obstacle? s = some o) : condition c s = .error o := by
  obtain ⟨field, op, value⟩ := c
  cases op with
  | other v =>
    obtain rfl := Option.some.inj h
    exact condition_other field v value s
  | _ => simp [Operator.obstacle?] at h

theorem exists_condition (h : c.op.Known) (s : Step) : ∃ v, condition c s = .ok v := by
  obtain ⟨field, op, value⟩ := c
  cases op with
  | other v => exact False.elim h
  | _ => exact ⟨_, rfl⟩

theorem exists_rulesFrom {cases : List (Case Step)} (h : ∀ c ∈ cases, c.condition.op.Known)
    (s : Step) (i : Nat) : ∃ rules, rulesFrom s i cases = .ok rules := by
  induction cases generalizing i with
  | nil => exact ⟨[], rfl⟩
  | cons c rest ih =>
    obtain ⟨here, hc⟩ := exists_condition (h c List.mem_cons_self) s
    obtain ⟨others, ho⟩ := ih (fun d hd => h d (List.mem_cons_of_mem _ hd)) (i + 1)
    refine ⟨.obj [("conditions", conditions here), ("output", .int i)] :: others, ?_⟩
    rw [rulesFrom, hc]
    change (rulesFrom s (i + 1) rest >>= _) = _
    rw [ho]
    rfl

/-- The first case in whose way something stands decides about the rules of a branch. -/
theorem rulesFrom_of_obstacle {cases : List (Case Step)}
    (h : cases.findSome? (fun c => c.condition.op.obstacle? s) = some o) (i : Nat) :
    rulesFrom s i cases = .error o := by
  induction cases generalizing i with
  | nil => simp at h
  | cons c rest ih =>
    rw [List.findSome?_cons] at h
    cases hc : c.condition.op.obstacle? s with
    | some o' =>
      rw [hc] at h
      obtain rfl := Option.some.inj h
      rw [rulesFrom, condition_of_obstacle hc]
      rfl
    | none =>
      rw [hc] at h
      obtain ⟨v, hv⟩ := exists_condition (Operator.known_of_obstacle? hc) s
      rw [rulesFrom, hv]
      change (rulesFrom s (i + 1) rest >>= _) = _
      rw [ih h]
      rfl

open Build (Follows)

theorem condition_follows (c : Condition) (s : Step) :
    Follows (Build.ofExcept (condition c s)) (fun _ => True) ⟨c.op.obstacle? s, []⟩ := by
  cases ho : c.op.obstacle? s with
  | some o => exact .ofError _ (condition_of_obstacle ho)
  | none =>
    obtain ⟨v, hv⟩ := exists_condition (Operator.known_of_obstacle? ho) s
    exact .ofOk hv trivial

theorem rulesFrom_follows (cases : List (Case Step)) (s : Step) :
    Follows (Build.ofExcept (rulesFrom s 0 cases)) (fun _ => True)
      ⟨cases.findSome? fun c => c.condition.op.obstacle? s, []⟩ := by
  cases ho : cases.findSome? fun c => c.condition.op.obstacle? s with
  | some o => exact .ofError _ (rulesFrom_of_obstacle ho 0)
  | none =>
    have hknown : ∀ c ∈ cases, c.condition.op.Known := fun c hc =>
      Operator.known_of_obstacle? (List.findSome?_eq_none_iff.1 ho c hc)
    obtain ⟨rules, hr⟩ := exists_rulesFrom hknown s 0
    exact .ofOk hr trivial

end Node

namespace Builder

open Build (Follows)

variable {answer : String → Except Outage (Option Definition)}

theorem resolve_follows {context : Context} (hc : context.Steady answer) (slug : String) :
    Follows (Build.resolve context slug) (fun d => answer slug = .ok d)
      ⟨match answer slug with
        | .ok _ => none
        | .error o => some (.breakdown (.outage o)), [.resolve slug]⟩ := by
  intro calls
  rw [Build.runFrom_resolve, hc]
  cases answer slug with
  | ok d => exact ⟨d, rfl, rfl⟩
  | error o => rfl

theorem node_follows {b : Builder} (hc : b.context.Steady answer) {id : String}
    (hid : Node.isId id = true) (s : Step) :
    Follows (b.node id s) (fun _ => True) ⟨s.nodeObstacle? answer, s.lookups⟩ := by
  have built {m : Node} (hm : m.id = id) :
      Follows (Build.ofExcept m.checked) (fun _ => True) .clear :=
    .ofOk (Node.checked_eq_ok.2 ⟨hm ▸ hid, rfl⟩) trivial
  cases s with
  | trigger path signed => exact built rfl
  | slack channel text => exact built rfl
  | request method url headers body => exact built rfl
  | bare type => exact .throw _ _
  | filter c =>
    rw [← Course.andThen_clear ⟨_, _⟩]
    exact (Node.condition_follows c (.filter c)).bind fun v _ => built rfl
  | branch cases otherwise =>
    rw [← Course.andThen_clear ⟨_, _⟩]
    exact (Node.rulesFrom_follows cases (.branch cases otherwise)).bind fun rules _ => built rfl
  | action slug input =>
    have hresolve := resolve_follows hc slug
    simp only [Step.nodeObstacle?, Step.lookups]
    cases hd : answer slug with
    | error o =>
      rw [hd] at hresolve
      exact hresolve.bind (d := .clear) fun d h => by simp at h
    | ok found =>
      rw [hd] at hresolve
      cases found with
      | none =>
        apply hresolve.bind (d := ⟨some _, []⟩)
        intro d h
        obtain rfl := Except.ok.inj h
        exact .throw _ _
      | some d =>
        apply hresolve.bind (d := .clear)
        intro d h
        obtain rfl := Except.ok.inj h
        exact built rfl

/-- A step's own node meets the obstacle of the step and asks the questions that the node takes. -/
theorem own_follows {b : Builder} (hc : b.context.Steady answer) {index : Int} (hi : 0 ≤ index)
    (depth : Nat) (s : Step) :
    Follows (b.own depth index s) (fun f => 0 ≤ f.next)
      ⟨s.obstacle? b.settings.maxBranchDepth answer depth, s.lookups⟩ := by
  rw [own_eq, Step.obstacle?]
  split
  · rename_i hdeep
    have hnone : s.lookups = [] := by
      cases s with
      | action slug input => simp [Step.kind?] at hdeep
      | _ => rfl
    rw [hnone]
    exact .throw _ _
  · rw [← Course.andThen_clear ⟨_, _⟩]
    apply (node_follows hc (isId_nodeId hi) s).bind
    intro n _
    apply Build.Follows.pure
    change 0 ≤ index + 1
    omega

theorem append_follows {x : Build Flattened} {y : Flattened → Build Flattened} {c d : Course}
    (hx : Follows x (fun f => 0 ≤ f.next) c)
    (hy : ∀ a, 0 ≤ a.next → Follows (y a) (fun f => 0 ≤ f.next) d) :
    Follows (do let a ← x; let b ← y a; return a.append b) (fun f => 0 ≤ f.next)
      (c.andThen d) := by
  apply hx.bind
  intro a ha
  rw [← Course.andThen_clear d]
  apply (hy a ha).bind
  intro b hb
  exact .pure hb

/-- How far flattening gets along some sites. -/
def course (b : Builder) (answer : String → Except Outage (Option Definition)) (xs : List Site) :
    Course :=
  .along b.settings.maxBranchDepth answer (xs.filterMap Site.nested?)

theorem course_append (b : Builder) (answer : String → Except Outage (Option Definition))
    (xs ys : List Site) :
    b.course answer (xs ++ ys) = (b.course answer xs).andThen (b.course answer ys) := by
  rw [course, List.filterMap_append, Course.along_append]
  rfl

theorem course_step (b : Builder) (answer : String → Except Outage (Option Definition))
    (depth : Nat) (place : Locator) (s : Step) (xs : List Site) :
    b.course answer (.step depth place s :: xs) =
      Course.andThen ⟨s.obstacle? b.settings.maxBranchDepth answer depth, s.lookups⟩
        (b.course answer xs) := rfl

open Step

mutual

/-- Flattening gets as far as the obstacles of the steps, in document order, let it. -/
theorem flattenStep_follows {b : Builder} (hc : b.context.Steady answer) {index : Int}
    (hi : 0 ≤ index) (depth : Nat) (place : Locator) (s : Step) :
    Follows (b.flattenStep depth index s) (fun f => 0 ≤ f.next)
      (b.course answer (sites depth place s)) := by
  have hown := own_follows hc hi depth s
  cases s with
  | branch cases otherwise =>
    -- The sites below a branch that is too deep are in the course too, but it stops before them.
    rw [sites, course_step, course_append]
    apply hown.bind
    intro top htop
    apply (flattenCases_follows hc htop (depth + 1) place 0 cases).bind
    intro below hbelow
    rw [← Course.andThen_clear (b.course answer (sitesElse _ _ _))]
    apply (flattenElse_follows hc hbelow (depth + 1) place otherwise).bind
    intro last hlast
    exact .pure hlast
  | _ =>
    rw [sites, course_step]
    exact (Course.andThen_clear _).symm ▸ hown

theorem flattenCases_follows {b : Builder} (hc : b.context.Steady answer) {index : Int}
    (hi : 0 ≤ index) (depth : Nat) (place : Locator) (i : Nat) (cases : List (Case Step)) :
    Follows (b.flattenCases depth index cases) (fun f => 0 ≤ f.next)
      (b.course answer (sitesCases depth place i cases)) := by
  match cases with
  | [] => exact .pure hi
  | ⟨condition, steps⟩ :: rest =>
    rw [sitesCases, course_append]
    apply append_follows
    · cases steps with
      | nil => exact .pure hi
      | cons s steps => exact flattenList_follows hc hi depth _ 0 (s :: steps)
    · intro first hfirst
      exact flattenCases_follows hc hfirst depth place (i + 1) rest

theorem flattenElse_follows {b : Builder} (hc : b.context.Steady answer) {index : Int}
    (hi : 0 ≤ index) (depth : Nat) (place : Locator) (otherwise : Member (List Step)) :
    Follows (b.flattenElse depth index otherwise) (fun f => 0 ≤ f.next)
      (b.course answer (sitesElse depth place otherwise)) := by
  match otherwise with
  | .absent => exact .pure hi
  | .null => exact .pure hi
  | .given [] => exact .pure hi
  | .given (s :: steps) => exact flattenList_follows hc hi depth _ 0 (s :: steps)

theorem flattenList_follows {b : Builder} (hc : b.context.Steady answer) {index : Int}
    (hi : 0 ≤ index) (depth : Nat) (place : Locator) (i : Nat) (steps : List Step) :
    Follows (b.flattenList depth index steps) (fun f => 0 ≤ f.next)
      (b.course answer (sitesList depth place i steps)) := by
  match steps with
  | [] => exact .pure hi
  | s :: rest =>
    rw [sitesList, course_append]
    apply append_follows
    · exact flattenStep_follows hc hi depth _ s
    · intro first hfirst
      exact flattenList_follows hc hfirst depth place (i + 1) rest

end

end Builder
end Flowplan
