import Flowplan.Compile
import Flowplan.Proofs.FlattenObstacle
import Flowplan.Proofs.LayoutTotal

/-!
How a compilation ends. Main statement: it fails for the first step in document order that cannot be
compiled, and asks the registry nothing after that.
-/

namespace Flowplan
set_option autoImplicit true

open Flowplan.Action (Definition)

namespace Step

def unsupportedSentence (operator : String) : String :=
  "Unsupported filter operation \"" ++ operator ++
    "\". Supported operations: equals, contains, gt, lt, regex"

/-- The error that a step makes a compilation end with, inside so many branches. A branch that is too
deep has no other error, and one that is not has that of its first case with an unknown operator. -/
inductive Fails (limit : Int) (answer : String → Except Outage (Option Definition)) (depth : Nat) :
    Step → CompileError → Prop
  | tooDeep (deep : limit ≤ depth) : Fails limit answer depth (.branch cases otherwise)
      ⟨"MAX_DEPTH_EXCEEDED", Rule.tooDeepSentence limit, some (.branch cases otherwise), none⟩
  | filter (unknown : c.op = .other (.str name)) : Fails limit answer depth (.filter c)
      ⟨"UNSUPPORTED_FILTER_OPERATION", unsupportedSentence name, some (.filter c), none⟩
  | case (shallow : ¬ limit ≤ depth) (split : cases = before ++ c :: after)
      (known : ∀ d ∈ before, d.condition.op.Known) (unknown : c.condition.op = .other (.str name)) :
      Fails limit answer depth (.branch cases otherwise)
        ⟨"UNSUPPORTED_FILTER_OPERATION", unsupportedSentence name, some (.branch cases otherwise),
          none⟩
  | unresolved (absent : answer slug = .ok none) : Fails limit answer depth (.action slug input)
      ⟨"UNKNOWN_CUSTOM_ACTION", Rule.unknownActionSentence slug, some (.action slug input), none⟩
  | outage (failed : answer slug = .error o) : Fails limit answer depth (.action slug input)
      ⟨"COMPILATION_ERROR", "Failed to compile plan: " ++ o.message, none, some (.outage o)⟩
  | unsupported : Fails limit answer depth (.bare type)
      ⟨"UNSUPPORTED_STEP_TYPE", "Unsupported step type \"" ++ type.getD "StepBase" ++
        "\". Use custom.action for unsupported integrations.", some (.bare type), none⟩

variable {limit : Int} {answer : String → Except Outage (Option Definition)} {depth : Nat}

/-- Known operators are passed over. -/
theorem findSome?_obstacle? {before : List (Case Step)} (h : ∀ d ∈ before, d.condition.op.Known)
    (s : Step) (cases : List (Case Step)) :
    (before ++ cases).findSome? (fun d => d.condition.op.obstacle? s) =
      cases.findSome? fun d => d.condition.op.obstacle? s := by
  rw [List.findSome?_append, List.findSome?_eq_none_iff.2, Option.none_or]
  intro d hd
  exact Operator.obstacle?_of_known (h d hd) s

/-- A step fails with what its obstacle comes to. -/
theorem Fails.exists_obstacle (h : Fails limit answer depth s e) :
    ∃ o, s.obstacle? limit answer depth = some o ∧ e = .ofObstacle o := by
  cases h with
  | tooDeep deep => exact ⟨_, if_pos ⟨rfl, deep⟩, rfl⟩
  | filter unknown =>
    refine ⟨.refusal (.unsupportedOperator (.str _) _), ?_, rfl⟩
    rw [obstacle?, if_neg (by simp [kind?]), nodeObstacle?, unknown]
    rfl
  | case shallow split known unknown =>
    refine ⟨.refusal (.unsupportedOperator (.str _) _), ?_, rfl⟩
    rw [obstacle?, if_neg (fun h => shallow h.2), nodeObstacle?, split, findSome?_obstacle? known,
      List.findSome?_cons, unknown]
    rfl
  | unresolved absent =>
    refine ⟨.refusal (.unknownAction _ _), ?_, rfl⟩
    rw [obstacle?, if_neg (by simp [kind?]), nodeObstacle?, absent]
  | outage failed =>
    refine ⟨.breakdown (.outage _), ?_, rfl⟩
    rw [obstacle?, if_neg (by simp [kind?]), nodeObstacle?, failed]
  | unsupported => exact ⟨.refusal (.unsupportedStep _), rfl, rfl⟩

theorem Fails.unique (h : Fails limit answer depth s e) (h' : Fails limit answer depth s e') :
    e' = e := by
  obtain ⟨o, ho, rfl⟩ := h.exists_obstacle
  obtain ⟨o', ho', rfl⟩ := h'.exists_obstacle
  obtain rfl := Option.some.inj (ho.symm.trans ho')
  rfl

end Step

namespace Builder

/-- Flattening steps makes nodes. -/
theorem nodes_ne_nil {b : Builder} (hne : steps ≠ []) (hi : 0 ≤ index)
    (h : (b.flattenList depth index steps).runFrom calls = (.ok f, calls')) : f.nodes ≠ [] := by
  have hids := ids_nodesFrom (flattenList_numbered steps hi h).nodes
  have hlen := congrArg List.length hids
  rw [List.length_map, List.length_map, List.length_range] at hlen
  intro hnil
  cases steps with
  | nil => exact hne rfl
  | cons s rest =>
    rw [hnil, Step.preorderList, Step.preorder_eq_cons] at hlen
    simp at hlen

end Builder

namespace Compilation

/-- How the compilation of a plan ends, and what it asks the registry: all steps pass and there are
some, or one is the first to fail, or there are none. -/
inductive Ends (limit : Int) (answer : String → Except Outage (Option Definition)) (p : Plan)
    (c : Compilation) : Prop
  | compiled (result : CompileResult) (ne : p.steps ≠ [])
      (pass : ∀ x ∈ p.nestedSteps, ∀ e, ¬ x.2.Fails limit answer x.1 e)
      (outcome : c.outcome = .ok result)
      (calls : c.calls = p.nestedSteps.flatMap fun x => x.2.lookups)
  | failed (e : CompileError) (split : p.nestedSteps = before ++ (depth, s) :: after)
      (pass : ∀ x ∈ before, ∀ e, ¬ x.2.Fails limit answer x.1 e)
      (fails : s.Fails limit answer depth e) (unique : ∀ e', s.Fails limit answer depth e' → e' = e)
      (outcome : c.outcome = .error e)
      (calls : c.calls = (before ++ [(depth, s)]).flatMap fun x => x.2.lookups)
  | empty (none : p.steps = [])
      (outcome : c.outcome = .error ⟨"NO_NODES_GENERATED",
        "Plan compilation resulted in no nodes. Ensure the plan has valid steps.", .none, .none⟩)
      (calls : c.calls = [])

variable {settings : Settings} {options : Layout.Options} {context : Context} {p : Plan}

theorem graph_of_ok {f : Flattened}
    (h : Build.runFrom (Builder.flattenList ⟨settings, context, p.name⟩ 0 0 p.steps) [] =
      (.ok f, made)) (hne : f.nodes ≠ []) :
    graph settings context p =
      (.ok (f.nodes, ConnectionMap.ofNodes f.outputs f.nodes), made) := by
  have hrun : Builder.flatten ⟨settings, context, p.name⟩ 0 0 p.steps = (.ok f, made) := h
  rw [graph, hrun]
  simp [hne]

theorem flattenList_along (settings : Settings) (hc : context.Steady answer) (p : Plan) :
    Build.Follows (Builder.flattenList ⟨settings, context, p.name⟩ 0 0 p.steps)
      (fun f => 0 ≤ f.next) (.along settings.maxBranchDepth answer p.nestedSteps) :=
  Builder.flattenList_follows hc (Int.le_refl 0) 0 [.name "steps"] 0 p.steps

/-- A compilation of steps that have no obstacle makes a workflow. -/
theorem ofPlan_of_clear (settings : Settings) (hc : context.Steady answer) (ho : options.Integral)
    (hne : p.steps ≠ [])
    (h : (Course.along settings.maxBranchDepth answer p.nestedSteps).obstacle = none) :
    ∃ result, (ofPlan settings options context p).outcome = .ok result ∧
      (ofPlan settings options context p).calls =
        (Course.along settings.maxBranchDepth answer p.nestedSteps).calls := by
  have hrun := flattenList_along settings hc p []
  simp only [h, List.nil_append] at hrun
  obtain ⟨f, hrun, -⟩ := hrun
  have hnodes := Builder.nodes_ne_nil hne (Int.le_refl 0) hrun
  obtain ⟨placed, log, hauto⟩ := Layout.exists_auto ho f.nodes
    (.typed (ConnectionMap.ofNodes f.outputs f.nodes))
  refine ⟨⟨⟨placed, ConnectionMap.ofNodes f.outputs f.nodes, p.name⟩, p.name⟩, ?_⟩
  simp only [ofPlan, workflow, graph_of_ok hrun hnodes, hauto, and_self]

end Compilation

end Flowplan
