import Flowplan.Proofs.RuleFindings

namespace Flowplan
set_option autoImplicit true

open Flowplan.Json

/-- A check that finds nothing: a question that is answered with yes at some time. -/
def Check.Passes (context : Context) : Check → Prop
  | .ask call _ => ∃ history, context.answer history call = .ok true
  | .broken _ => False
  | .noType => False

/-- No check finds anything. -/
def AllPass (context : Context) (checks : List Check) : Prop := ∀ c ∈ checks, c.Passes context

namespace AllPass

theorem nil (context : Context) : AllPass context [] := fun _ h => absurd h List.not_mem_nil

theorem cons_iff : AllPass context (c :: rest) ↔ c.Passes context ∧ AllPass context rest :=
  List.forall_mem_cons

theorem append_iff : AllPass context (xs ++ ys) ↔ AllPass context xs ∧ AllPass context ys :=
  List.forall_mem_append

theorem brokenIf_iff : AllPass context (Check.brokenIf bad place rule) ↔ bad = false := by
  cases bad with
  | false => exact ⟨fun _ => rfl, fun _ => nil context⟩
  | true =>
    refine ⟨fun h => ?_, fun h => absurd h Bool.noConfusion⟩
    exact False.elim (h _ (List.mem_singleton_self _))

end AllPass

theorem Inspection.allFindings_found (f : Finding) (r : Inspection) :
    (r.found f).allFindings = f :: r.allFindings := by
  obtain ⟨findings, calls, interruption⟩ := r
  cases interruption <;> rfl

/-- A run that finds nothing has come to its end, and every check has passed. -/
theorem Inspection.allPass_of_run (h : (run context history checks).allFindings = []) :
    AllPass context checks := by
  induction checks generalizing history with
  | nil => exact .nil context
  | cons check rest ih =>
    rw [AllPass.cons_iff]
    cases check with
    | broken f =>
      rw [run, allFindings_found] at h
      exact absurd h (List.cons_ne_nil _ _)
    | noType => exact absurd h (List.cons_ne_nil _ _)
    | ask call otherwise =>
      rw [run] at h
      cases ha : context.answer history call with
      | error o =>
        rw [ha] at h
        exact absurd h (List.cons_ne_nil _ _)
      | ok granted =>
        rw [ha] at h
        cases granted with
        | true => exact ⟨⟨history, ha⟩, ih h⟩
        | false =>
          dsimp only at h
          rw [allFindings_found] at h
          exact absurd h (List.cons_ne_nil _ _)

namespace Check

open Step

mutual

/-- Where no check of a step finds anything, nothing below it was passed over: every site of the
step was checked. -/
theorem allPass_ofStep (s : Step) (h : AllPass context (ofStep limit depth place s)) :
    ∀ x ∈ sites depth place s, AllPass context (x.checks limit) := by
  cases s with
  | branch cases otherwise =>
    rw [ofStep] at h
    split at h
    · exact False.elim (h _ (List.mem_singleton_self _))
    · rename_i hd
      obtain ⟨hcases, helse⟩ := AllPass.append_iff.1 h
      have htop : AllPass context ((Site.step depth place (.branch cases otherwise)).checks limit) := by
        rw [Site.checks, if_neg hd]
        exact .nil context
      exact List.forall_mem_cons.2 ⟨htop, List.forall_mem_append.2
        ⟨allPass_ofCases cases hcases, allPass_ofElse otherwise helse⟩⟩
  | _ =>
    intro x hx
    obtain rfl := List.mem_singleton.1 hx
    exact h

theorem allPass_ofCases (cases : List (Case Step))
    (h : AllPass context (ofCases limit depth place i cases)) :
    ∀ x ∈ sitesCases (depth + 1) place i cases, AllPass context (x.checks limit) := by
  match cases with
  | [] => exact fun _ hx => absurd hx List.not_mem_nil
  | ⟨condition, []⟩ :: rest => exact False.elim (h _ List.mem_cons_self)
  | ⟨condition, s :: steps⟩ :: rest =>
    obtain ⟨hsteps, hrest⟩ := AllPass.append_iff.1 h
    exact List.forall_mem_append.2
      ⟨allPass_ofSteps (s :: steps) hsteps, allPass_ofCases rest hrest⟩

theorem allPass_ofElse (otherwise : Member (List Step))
    (h : AllPass context (ofElse limit depth place otherwise)) :
    ∀ x ∈ sitesElse (depth + 1) place otherwise, AllPass context (x.checks limit) := by
  match otherwise with
  | .absent => exact fun _ hx => absurd hx List.not_mem_nil
  | .null => exact fun _ hx => absurd hx List.not_mem_nil
  | .given [] => exact False.elim (h _ (List.mem_singleton_self _))
  | .given (s :: steps) => exact allPass_ofSteps (s :: steps) h

theorem allPass_ofSteps (steps : List Step)
    (h : AllPass context (ofSteps limit depth place i steps)) :
    ∀ x ∈ sitesList depth place i steps, AllPass context (x.checks limit) := by
  match steps with
  | [] => exact fun _ hx => absurd hx List.not_mem_nil
  | s :: rest =>
    obtain ⟨hs, hrest⟩ := AllPass.append_iff.1 h
    exact List.forall_mem_append.2 ⟨allPass_ofStep s hs, allPass_ofSteps rest hrest⟩

end

end Check

/-- What holds of a plan whose checks find nothing. -/
structure Plan.Accepted (limit : Int) (context : Context) (p : Plan) : Prop where
  start : p.steps.head?.bind Step.kind? = some .trigger
  sites : ∀ x ∈ p.sites, AllPass context (x.checks limit)
  triggers : p.steps.countP (fun s => s.kind? = some .trigger) ≤ 1

/-- A valid plan has passed all checks, whether or not the collaborators answer elsewhere. -/
theorem Plan.accepted_of_valid {p : Plan} (hne : p.steps ≠ []) (hk : Step.AllKnown p.steps)
    (h : (Validation.ofPlan limit context p).valid = true) : p.Accepted limit context := by
  have hrun : (Inspection.run context [] (Check.ofPlan limit p)).allFindings = [] :=
    List.map_eq_nil_iff.1 (List.isEmpty_iff.1 h)
  have hpass := Inspection.allPass_of_run hrun
  obtain ⟨hfirst, htriggers⟩ := AllPass.append_iff.1 hpass
  obtain ⟨hstart, hsteps⟩ := AllPass.append_iff.1 hfirst
  refine ⟨?_, Check.allPass_ofSteps p.steps hsteps, ?_⟩
  · cases hs : p.steps with
    | nil => exact absurd hs hne
    | cons s rest =>
      have hknown : s.Known := hk s (Step.mem_preorderList (hs ▸ List.mem_cons_self))
      rw [hs, Check.ofStart, Step.isTrigger?_of_known hknown] at hstart
      simpa using AllPass.brokenIf_iff.1 hstart
  · have hmap := Step.mapM_isTrigger? fun s hs => hk s (Step.mem_preorderList hs)
    rw [Check.ofTriggers, hmap] at htriggers
    have hfew := AllPass.brokenIf_iff.1 htriggers
    simpa [List.count_eq_countP, List.countP_map, Function.comp_def] using hfew

namespace AllPass

theorem trigger (h : AllPass context ((Site.step depth place (.trigger path signed)).checks limit)) :
    path.toList.head? = some '/' ∧ ' ' ∉ path.toList ∧ '?' ∉ path.toList := by
  obtain ⟨hslash, hplain⟩ := append_iff.1 h
  have hhead : Text.startsWith path "/" = decide (path.toList.head? = some '/') :=
    Text.startsWith_eq_head? path '/'
  refine ⟨?_, ?_⟩
  · simpa [hhead] using brokenIf_iff.1 hslash
  · simpa using brokenIf_iff.1 hplain

theorem slack (h : AllPass context ((Site.step depth place (.slack channel text)).checks limit)) :
    channel.toList.head? = some '#' ∨ channel.toList.head? = some '@' := by
  have hhash : Text.startsWith channel "#" = decide (channel.toList.head? = some '#') :=
    Text.startsWith_eq_head? channel '#'
  have hat : Text.startsWith channel "@" = decide (channel.toList.head? = some '@') :=
    Text.startsWith_eq_head? channel '@'
  have hgood := brokenIf_iff.1 h
  rw [hhash, hat] at hgood
  simpa [-not_or, Decidable.or_iff_not_imp_left] using hgood

theorem request
    (h : AllPass context ((Site.step depth place (.request method url headers body)).checks limit)) :
    ∃ history, context.allows history url = .ok true := h _ (List.mem_singleton_self _)

theorem branch
    (h : AllPass context ((Site.step depth place (.branch cases otherwise)).checks limit)) :
    (depth : Int) < limit := by
  rw [Site.checks] at h
  split at h
  · exact False.elim (h _ (List.mem_singleton_self _))
  · omega

end AllPass

end Flowplan
