import Flowplan.Proofs.ExceptLaws
import Flowplan.Proofs.NodeOrder

namespace Flowplan
set_option autoImplicit true

theorem Node.checked_eq_ok {n m : Node} :
    n.checked = .ok m ↔ Node.isId n.id = true ∧ n = m := by
  unfold Node.checked
  split <;> simp [*]

/-- The type of the nodes that steps of a kind are compiled to. -/
def StepKind.nodeType : StepKind → String
  | .trigger => "n8n-nodes-base.webhook"
  | .filter => "n8n-nodes-base.if"
  | .branch => "n8n-nodes-base.switch"
  | .slack => "n8n-nodes-base.slack"
  | .request => "n8n-nodes-base.httpRequest"
  | .action => "n8n-nodes-base.httpRequest"

namespace Builder

/-- A node that a step is compiled to: one constructor for each kind of step that has a node. The
registry is asked for the definition of an action. -/
inductive Builds (b : Builder) (id : String) : Step → Node → Prop
  | trigger : Builds b id (.trigger path signed) (Node.webhook b.settings b.planName id path signed)
  | filter (hc : Node.condition c (.filter c) = .ok v) :
      Builds b id (.filter c) (Node.filter b.settings id c.field v)
  | branch (hr : Node.rulesFrom (.branch cases otherwise) 0 cases = .ok rules) :
      Builds b id (.branch cases otherwise)
        (Node.switch b.settings id rules (Node.fallbackOutput cases.length otherwise))
  | slack : Builds b id (.slack channel text) (Node.slack b.settings id channel text)
  | request : Builds b id (.request method url headers body)
      (Node.request b.settings id (Node.hostLabel url) method.name url headers.toOption
        body.toOption)
  | action (hd : b.context.resolve calls slug = .ok (some d)) : Builds b id (.action slug input)
      (Node.request b.settings id ("Custom_" ++ slug) d.method d.url d.headers
        (Node.actionBody d.body input.toOption))

theorem Builds.id_eq {b : Builder} {id : String} (h : b.Builds id s n) : n.id = id := by
  cases h <;> rfl

theorem Builds.type_eq {b : Builder} {id : String} (h : b.Builds id s n) :
    ∃ k, s.kind? = some k ∧ n.type = k.nodeType := by
  cases h <;> exact ⟨_, rfl, rfl⟩

theorem builds_of_node {b : Builder} {id : String}
    (h : (b.node id s).runFrom calls = (.ok n, calls')) : b.Builds id s n := by
  have hchecked {m : Node} (hm : b.Builds id s m)
      (hr : (Build.ofExcept m.checked).runFrom calls = (.ok n, calls')) : b.Builds id s n := by
    obtain ⟨-, rfl⟩ := Node.checked_eq_ok.1 (Build.runFrom_ofExcept_eq_ok.1 hr).1
    exact hm
  cases s with
  | trigger path signed => exact hchecked .trigger h
  | filter c =>
    obtain ⟨condition, middle, hc, h⟩ := Build.runFrom_bind_eq_ok.1 h
    obtain ⟨hcondition, rfl⟩ := Build.runFrom_ofExcept_eq_ok.1 hc
    exact hchecked (.filter hcondition) h
  | branch cases otherwise =>
    obtain ⟨rules, middle, hr, h⟩ := Build.runFrom_bind_eq_ok.1 h
    obtain ⟨hrules, rfl⟩ := Build.runFrom_ofExcept_eq_ok.1 hr
    exact hchecked (.branch hrules) h
  | slack channel text => exact hchecked .slack h
  | request method url headers body => exact hchecked .request h
  | action slug input =>
    obtain ⟨d, middle, hd, h⟩ := Build.runFrom_bind_eq_ok.1 h
    cases d with
    | none => simp at h
    | some d =>
      obtain ⟨-, rfl⟩ := Node.checked_eq_ok.1 (Build.runFrom_ofExcept_eq_ok.1 h).1
      rw [Build.runFrom_resolve] at hd
      exact .action (mapError_eq_ok.1 (Prod.mk.inj hd).1)
  | bare type => simp [node] at h

/-- Steps that are built one after the other have one node each. -/
theorem forall₂_builds {b : Builder}
    (h : (b.nodesFrom index steps).runFrom calls = (.ok nodes, calls')) :
    List.Forall₂ (fun s n => b.Builds n.id s n) steps nodes := by
  induction steps generalizing index calls calls' nodes with
  | nil =>
    obtain ⟨rfl, -⟩ := Build.runFrom_pure_eq_ok.1 h
    exact .nil
  | cons s rest ih =>
    obtain ⟨n, c₁, hn, h⟩ := Build.runFrom_bind_eq_ok.1 h
    obtain ⟨others, c₂, ho, h⟩ := Build.runFrom_bind_eq_ok.1 h
    obtain ⟨rfl, -⟩ := Build.runFrom_pure_eq_ok.1 h
    have hbuilt := builds_of_node hn
    exact .cons (hbuilt.id_eq.symm ▸ hbuilt) (ih ho)

end Builder
end Flowplan
