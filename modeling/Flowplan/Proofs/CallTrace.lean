import Flowplan.Proofs.FindingPlaces

/-!
A run of checks as the sequence of what happens in it. Where one of its calls is not answered, a run
is the same up to that call, and nothing comes after it.
-/

namespace Flowplan
set_option autoImplicit true

/-- What happens in a run of checks: a collaborator is called, or a broken rule is found. -/
inductive Event where
  | called (call : Call)
  | found (f : Finding)

namespace Event

def call? : Event → Option Call
  | .called call => some call
  | .found _ => none

def finding? : Event → Option Finding
  | .called _ => none
  | .found f => some f

def calls (es : List Event) : List Call := es.filterMap call?

def findings (es : List Event) : List Finding := es.filterMap finding?

@[simp] theorem calls_nil : calls [] = [] := rfl

@[simp] theorem calls_called (call : Call) (es : List Event) :
    calls (.called call :: es) = call :: calls es := rfl

@[simp] theorem calls_found (f : Finding) (es : List Event) :
    calls (.found f :: es) = calls es := rfl

@[simp] theorem findings_nil : findings [] = [] := rfl

@[simp] theorem findings_called (call : Call) (es : List Event) :
    findings (.called call :: es) = findings es := rfl

@[simp] theorem findings_found (f : Finding) (es : List Event) :
    findings (.found f :: es) = f :: findings es := rfl

end Event

/-- Collaborators that answer as others do before the call with a number, counted from zero, and do
not answer that call. -/
structure Context.FailsAt (failing context : Context) (number : Nat) (o : Outage) : Prop where
  before : ∀ history call, history.length < number →
    failing.answer history call = context.answer history call
  fails : ∀ history call, history.length = number → failing.answer history call = .error o

/-- The same collaborators, but for the call with a number. -/
def Context.failingAt (number : Nat) (o : Outage) (c : Context) : Context where
  org := c.org
  allows history url := if history.length = number then .error o else c.allows history url
  resolve history slug := if history.length = number then .error o else c.resolve history slug

theorem Context.failsAt_failingAt (c : Context) (number : Nat) (o : Outage) :
    (c.failingAt number o).FailsAt c number o where
  before history call h := by
    cases call <;> simp only [answer, failingAt, if_neg (Nat.ne_of_lt h)]
  fails history call h := by
    cases call <;> simp only [answer, failingAt, if_pos h]
    all_goals rfl

namespace Inspection

/-- What happens in a run, one thing after the other. -/
def events (context : Context) (history : List Call) : List Check → List Event
  | [] => []
  | .broken f :: rest => .found f :: events context history rest
  | .noType :: _ => []
  | .ask call otherwise :: rest =>
    .called call :: match context.answer history call with
      | .error _ => []
      | .ok true => events context (history ++ [call]) rest
      | .ok false => .found otherwise :: events context (history ++ [call]) rest

/-- The events hold all that a run finds and all calls that it makes. -/
theorem run_eq_events (context : Context) (history : List Call) (checks : List Check) :
    (run context history checks).findings = Event.findings (events context history checks) ∧
      (run context history checks).calls =
        history ++ Event.calls (events context history checks) := by
  induction checks generalizing history with
  | nil => exact ⟨rfl, (List.append_nil _).symm⟩
  | cons check rest ih =>
    cases check with
    | broken f =>
      obtain ⟨hfindings, hcalls⟩ := ih history
      exact ⟨congrArg (f :: ·) hfindings, hcalls⟩
    | noType => exact ⟨rfl, (List.append_nil _).symm⟩
    | ask call otherwise =>
      obtain ⟨hfindings, hcalls⟩ := ih (history ++ [call])
      rw [List.append_assoc] at hcalls
      rw [run, events]
      cases context.answer history call with
      | error o => exact ⟨rfl, rfl⟩
      | ok granted =>
        cases granted with
        | true => exact ⟨hfindings, hcalls⟩
        | false => exact ⟨congrArg (otherwise :: ·) hfindings, hcalls⟩

/-- The events of checks in two parts, of which the first is not interrupted. -/
theorem events_append {context : Context} {xs : List Check} (ys : List Check)
    (h : run context history xs = ⟨fs, middle, none⟩) :
    events context history (xs ++ ys) =
      events context history xs ++ events context middle ys := by
  induction xs generalizing history fs with
  | nil =>
    simp only [run, mk.injEq] at h
    obtain ⟨-, rfl, -⟩ := h
    rfl
  | cons check rest ih =>
    cases check with
    | broken f =>
      simp only [run, found, mk.injEq] at h
      obtain ⟨-, hc, hi⟩ := h
      exact congrArg (.found f :: ·) (ih (by rw [← hc, ← hi]))
    | noType => simp [run] at h
    | ask call otherwise =>
      rw [run] at h
      rw [List.cons_append, events, events]
      cases ha : context.answer history call with
      | error o => simp [ha] at h
      | ok granted =>
        rw [ha] at h
        cases granted with
        | true => exact congrArg (.called call :: ·) (ih h)
        | false =>
          simp only [found, mk.injEq] at h
          obtain ⟨-, hc, hi⟩ := h
          exact congrArg (.called call :: .found otherwise :: ·) (ih (by rw [← hc, ← hi]))

/-- A call that is not answered is the last one, and what was found before it is all that is
found. -/
theorem run_of_failsAt {failing context : Context} {checks : List Check} (past : List Event)
    (hf : failing.FailsAt context (history ++ Event.calls past).length o)
    (h : events context history checks = past ++ .called call :: future) :
    run failing history checks =
      ⟨Event.findings past, history ++ Event.calls past ++ [call], some (.outage o)⟩ := by
  -- The induction is on the checks; the events before the call are taken off one by one.
  induction checks generalizing history past with
  | nil => simp [events] at h
  | cons check rest ih =>
    cases check with
    | broken f =>
      cases past with
      | nil => simp [events] at h
      | cons e past =>
        obtain ⟨rfl, hrest⟩ := List.cons.inj h
        rw [run, ih past hf hrest]
        rfl
    | noType => simp [events] at h
    | ask asked otherwise =>
      rw [events] at h
      cases past with
      | nil =>
        obtain ⟨hcall, -⟩ := List.cons.inj h
        obtain rfl := Event.called.inj hcall
        have hlength : history.length = (history ++ Event.calls []).length := by simp
        rw [run, hf.fails history asked hlength]
        simp
      | cons e past =>
        obtain ⟨rfl, hrest⟩ := List.cons.inj h
        have hcalls : history ++ Event.calls (.called asked :: past) =
            history ++ [asked] ++ Event.calls past := by simp
        rw [hcalls] at hf ⊢
        have hbefore : history.length < (history ++ [asked] ++ Event.calls past).length := by
          simp only [List.length_append, List.length_singleton]
          omega
        rw [run, hf.before history asked hbefore]
        cases ha : context.answer history asked with
        | error o => simp [ha] at hrest
        | ok granted =>
          rw [ha] at hrest
          cases granted with
          | true => exact ih past hf hrest
          | false =>
            cases past with
            | nil => cases (List.cons.inj hrest).1
            | cons e past =>
              obtain ⟨rfl, hlater⟩ := List.cons.inj hrest
              have hfound := ih past hf hlater
              simp only [Event.calls_found, hfound]
              rfl

end Inspection

/-- The question that the rules ask about a step. -/
def Step.call? : Step → Option Call
  | .request _ url _ _ => some (.allows url)
  | .action slug _ => some (.resolve slug)
  | _ => none

/-- The calls that the rules make about a plan: one for each request and each action in document
order, but for those inside of a branch at a depth that is not below the limit. -/
def Plan.questions (limit : Int) (p : Plan) : List Call :=
  (p.nestedSteps.filter fun (e : Nat × Step) => decide (∀ d < e.1, (d : Int) < limit)).filterMap
    fun e => e.2.call?

theorem Site.calls_eq (x : Site) : x.calls = (x.nested?.bind fun e => e.2.call?).toList := by
  cases x with
  | step depth place s => cases s <;> rfl
  | _ => rfl

theorem Plan.calls_sites (limit : Int) (p : Plan) :
    (p.sites.filter (Site.visited limit)).flatMap Site.calls = p.questions limit := by
  rw [Plan.questions, Plan.nestedSteps]
  induction p.sites with
  | nil => rfl
  | cons x rest ih =>
    have hvisited : ∀ e : Nat × Step, x.nested? = some e →
        x.visited limit = decide (∀ d < e.1, (d : Int) < limit) := by
      rintro ⟨depth, s⟩ he
      obtain ⟨place, rfl⟩ := Site.nested?_eq_some.1 he
      rfl
    have hcalls := x.calls_eq
    cases hn : x.nested? with
    | none =>
      rw [hn] at hcalls
      simp only [List.filter_cons, List.filterMap_cons, hn, ← ih]
      split
      · rw [List.flatMap_cons, hcalls]
        rfl
      · rfl
    | some e =>
      rw [hn] at hcalls
      simp only [List.filter_cons, List.filterMap_cons, hn, hvisited e hn]
      split
      · rw [List.flatMap_cons, hcalls, List.filterMap_cons, ih]
        simp only [Option.bind_some]
        cases e.2.call? <;> rfl
      · exact ih

/-- Each call stands at some site; the calls before it are those of the sites before. -/
theorem Site.exists_called (xs : List Site) (k : Nat) (hk : k < (xs.flatMap calls).length) :
    ∃ before x after, xs = before ++ x :: after ∧ x.calls = [(xs.flatMap calls)[k]] ∧
      before.flatMap calls = (xs.flatMap calls).take k := by
  induction xs generalizing k with
  | nil => exact absurd hk (Nat.not_lt_zero k)
  | cons y rest ih =>
    have hlength : y.calls.length ≤ 1 := by
      rw [y.calls_eq]
      cases y.nested?.bind fun e => e.2.call? <;> simp
    match hy : y.calls, hlength with
    | [], _ =>
      simp only [List.flatMap_cons, hy, List.nil_append] at hk ⊢
      obtain ⟨before, x, after, hrest, hx, hbefore⟩ := ih k hk
      refine ⟨y :: before, x, after, congrArg (y :: ·) hrest, hx, ?_⟩
      rw [List.flatMap_cons, hy, List.nil_append, hbefore]
    | [call], _ =>
      simp only [List.flatMap_cons, hy, List.singleton_append] at hk ⊢
      cases k with
      | zero => exact ⟨[], y, rest, rfl, hy, rfl⟩
      | succ k =>
        obtain ⟨before, x, after, hrest, hx, hbefore⟩ := ih k (Nat.lt_of_succ_lt_succ hk)
        refine ⟨y :: before, x, after, congrArg (y :: ·) hrest, hx, ?_⟩
        rw [List.flatMap_cons, hy, List.singleton_append, hbefore, List.take_succ_cons]

theorem Site.checks_of_calls {x : Site} (limit : Int) (h : x.calls = [call]) :
    ∃ otherwise, x.checks limit = [.ask call otherwise] := by
  cases x with
  | step depth place s =>
    cases s with
    | request method url headers body =>
      obtain rfl := List.singleton_inj.1 h
      exact ⟨_, rfl⟩
    | action slug input =>
      obtain rfl := List.singleton_inj.1 h
      exact ⟨_, rfl⟩
    | _ => exact nomatch h
  | _ => exact nomatch h

theorem Site.rule_of_mem_violations {x : Site} (h : f ∈ x.violations limit granted) :
    f.rule ≠ .manyTriggers := by
  cases x with
  | step depth place s =>
    cases s with
    | trigger path signed =>
      rcases List.mem_append.1 h with h | h
      · obtain rfl := List.mem_singleton.1 (List.mem_ite_nil_left.1 h).2
        exact Rule.noConfusion
      · obtain rfl := List.mem_singleton.1 (List.mem_ite_nil_right.1 h).2
        exact Rule.noConfusion
    | branch cases otherwise =>
      obtain rfl := List.mem_singleton.1 (List.mem_ite_nil_right.1 h).2
      exact Rule.noConfusion
    | filter condition => exact absurd h List.not_mem_nil
    | bare type => exact absurd h List.not_mem_nil
    | _ =>
      obtain rfl := List.mem_singleton.1 (List.mem_ite_nil_left.1 h).2
      exact Rule.noConfusion
  | _ =>
    obtain rfl := List.mem_singleton.1 h
    exact Rule.noConfusion

theorem Plan.rule_of_mem_startFindings {p : Plan} (h : f ∈ p.startFindings) :
    f.rule ≠ .manyTriggers := by
  rw [startFindings] at h
  split at h
  · exact absurd h List.not_mem_nil
  · obtain rfl := List.mem_singleton.1 h
    exact Rule.noConfusion

theorem Rule.code_ne_of_ne {rule : Rule} (h : rule ≠ .manyTriggers) :
    rule.code ≠ "MULTIPLE_TRIGGERS" := by
  cases rule with
  | manyTriggers => exact absurd rfl h
  | _ => simp [code]

/-- Nothing that is found before the triggers are counted is about their number. -/
theorem Plan.code_of_mem_early {p : Plan} {before : List Site}
    (h : f ∈ p.startFindings ++ Site.reports limit context history before) :
    f.toIssue.code ≠ "MULTIPLE_TRIGGERS" := by
  apply Rule.code_ne_of_ne
  rcases List.mem_append.1 h with hf | hf
  · exact rule_of_mem_startFindings hf
  · obtain ⟨y, -, granted, hy⟩ := Site.exists_of_mem_reports hf
    exact Site.rule_of_mem_violations hy

/-- What has happened before a call of the rules: the plan's start was checked, and all sites before
the one that the call is about. -/
theorem Inspection.events_before_call (limit : Int) {context : Context} (hc : context.Answers)
    {p : Plan} (hne : p.steps ≠ []) (hknown : Step.AllKnown p.steps) (k : Nat)
    (hk : k < (p.questions limit).length) :
    ∃ before x after past future,
      p.sites.filter (Site.visited limit) = before ++ x :: after ∧
      x.calls = [(p.questions limit)[k]] ∧
      events context [] (Check.ofPlan limit p) = past ++ .called (p.questions limit)[k] :: future ∧
      Event.calls past = (p.questions limit).take k ∧
      Event.findings past = p.startFindings ++ Site.reports limit context [] before := by
  obtain ⟨before, x, after, hsplit, hx, hbefore⟩ :=
    Site.exists_called (p.sites.filter (Site.visited limit)) k (p.calls_sites limit ▸ hk)
  simp only [p.calls_sites limit] at hx hbefore
  obtain ⟨otherwise, hchecks⟩ := Site.checks_of_calls limit hx
  let early := Check.ofStart p.steps ++ before.flatMap (Site.checks limit)
  have hrun : run context [] early =
      ⟨p.startFindings ++ Site.reports limit context [] before,
        before.flatMap Site.calls, none⟩ := by
    rw [run_append _ (run_ofStart context [] hne hknown), run_flatMap_checks hc []]
    rfl
  let late := after.flatMap (Site.checks limit) ++ Check.ofTriggers p.steps
  have hplan : Check.ofPlan limit p =
      early ++ .ask (p.questions limit)[k] otherwise :: late := by
    rw [Check.ofPlan, Check.ofSteps_eq_flatMap _ 0 p.steps (WithinLimit.zero limit)]
    change _ ++ (p.sites.filter (Site.visited limit)).flatMap _ ++ _ = _
    rw [hsplit, List.flatMap_append, List.flatMap_cons, hchecks]
    simp only [early, late, List.append_assoc, List.nil_append, List.cons_append]
  obtain ⟨hfindings, hcalls⟩ := run_eq_events context [] early
  rw [hrun] at hfindings hcalls
  have hevents : ∃ future, events context [] (Check.ofPlan limit p) =
      events context [] early ++ .called (p.questions limit)[k] :: future := by
    rw [hplan, events_append _ hrun, events]
    exact ⟨_, rfl⟩
  obtain ⟨future, hevents⟩ := hevents
  refine ⟨before, x, after, events context [] early, future, hsplit, hx, hevents, ?_,
    hfindings.symm⟩
  rw [← hbefore]
  exact hcalls.symm

/-- Where a call has no answer it is the last one, and what was found before it stands before the
issue of the interruption. -/
theorem Validation.ofPlan_of_failsAt {failing : Context} (past : List Event)
    (hfails : failing.FailsAt context (Event.calls past).length o)
    (hevents : Inspection.events context [] (Check.ofPlan limit p) =
      past ++ .called call :: future) :
    (ofPlan limit failing p).calls = Event.calls past ++ [call] ∧
      (ofPlan limit failing p).issues = (Event.findings past).map Finding.toIssue ++
        [⟨"validation", "VALIDATION_ERROR", Rule.interrupted.message⟩] := by
  have hfailsNow : failing.FailsAt context ([] ++ Event.calls past).length o := hfails
  have hcut := Inspection.run_of_failsAt past hfailsNow hevents
  constructor
  · simp only [ofPlan, hcut, List.nil_append]
  · simp only [ofPlan, hcut, Inspection.allFindings, List.map_append]
    rfl

/-- A run of the rules by collaborators that answer makes a call for every request and every action
that is not inside of a branch that is too deep, in document order. Where the same collaborators do
not answer call number `k`, that call is the last one, and the issues are those that the whole run
had found before it, at the plan's start and at the sites before the call's, and then one for the
interruption; the triggers are not counted any more. -/
theorem Validation.interrupted_at_call (hp : Plan.parse src = .ok (.ok p)) (limit : Int)
    {context : Context} (hc : context.Answers) :
    let whole := ofPlan limit context p
    let events := Inspection.events context [] (Check.ofPlan limit p)
    whole.calls = p.questions limit ∧ p.nestedSteps.map Prod.snd = Step.all p.steps ∧
    whole.calls = Event.calls events ∧
    whole.issues = (Event.findings events).map Finding.toIssue ∧
    ∀ (k : Nat) (hk : k < whole.calls.length) (failing : Context) (o : Outage),
      failing.FailsAt context k o →
      let cut := ofPlan limit failing p
      cut.calls = whole.calls.take (k + 1) ∧ cut.valid = false ∧
      (∀ i ∈ cut.issues, i.code ≠ "MULTIPLE_TRIGGERS") ∧
      ∃ past future before x after,
        events = past ++ .called whole.calls[k] :: future ∧
        Event.calls past = whole.calls.take k ∧
        cut.issues = (Event.findings past).map Finding.toIssue ++
          [⟨"validation", "VALIDATION_ERROR", Rule.interrupted.message⟩] ∧
        p.sites.filter (Site.visited limit) = before ++ x :: after ∧
        x.calls = [whole.calls[k]] ∧
        Event.findings past = p.startFindings ++ Site.reports limit context [] before := by
  intro whole events
  obtain ⟨hne, hknown⟩ := Plan.known_of_parse hp
  have hrun := @Inspection.run_ofPlan limit context hc p hne hknown
  have hwhole : whole.calls = p.questions limit := by
    rw [← p.calls_sites limit]
    exact congrArg Inspection.calls hrun
  obtain ⟨hfindings, hcalls⟩ := Inspection.run_eq_events context [] (Check.ofPlan limit p)
  have hissues : whole.issues = (Event.findings events).map Finding.toIssue := by
    simp only [whole, events, ofPlan, ← hfindings, hrun, Inspection.allFindings]
  refine ⟨hwhole, p.steps_nestedSteps, hcalls, hissues, ?_⟩
  intro k hk failing o hfails cut
  simp only [hwhole] at hk ⊢
  obtain ⟨before, x, after, past, future, hsplit, hx, hevents, hpast, hearly⟩ :=
    Inspection.events_before_call limit hc hne hknown k hk
  have hlength : (Event.calls past).length = k := by
    rw [hpast, List.length_take, Nat.min_eq_left (Nat.le_of_lt hk)]
  obtain ⟨hcutCalls, hcutIssues⟩ := ofPlan_of_failsAt past (hlength ▸ hfails) hevents
  refine ⟨?_, ?_, ?_, past, future, before, x, after, hevents, hpast, hcutIssues, hsplit, hx,
    hearly⟩
  · rw [hpast] at hcutCalls
    exact hcutCalls.trans (List.take_succ_eq_append_getElem hk).symm
  · rw [valid, hcutIssues]
    simp
  · intro i hi
    rw [hcutIssues, hearly, List.mem_append] at hi
    rcases hi with hi | hi
    · obtain ⟨f, hf, rfl⟩ := List.mem_map.1 hi
      exact Plan.code_of_mem_early hf
    · obtain rfl := List.mem_singleton.1 hi
      simp

/-- Collaborators that break down at their second call. -/
def Context.unreachable : Context := Context.once.failingAt 1 ⟨.connection, "unreachable"⟩

theorem Validation.interrupted_at_second_call : ∃ p,
    Plan.parse (.value Plan.brokenDocument) = .ok (.ok p) ∧ Context.once.Answers ∧
    Context.unreachable.FailsAt .once 1 ⟨.connection, "unreachable"⟩ ∧
    (ofPlan 1 .once p).calls = [.allows "https://a", .resolve "missing", .allows "https://b"] ∧
    (ofPlan 1 .unreachable p).calls = [.allows "https://a", .resolve "missing"] ∧
    (ofPlan 1 .unreachable p).valid = false ∧
    (ofPlan 1 .unreachable p).issues.map (fun i => (i.path, i.code)) =
      Plan.brokenRules.take 5 ++ [("validation", "VALIDATION_ERROR")] := by
  have hsome : (Plan.parse? (.value Plan.brokenDocument)).isSome = true := by decide +kernel
  obtain ⟨p, hp⟩ := Option.isSome_iff_exists.1 hsome
  have hparse := Plan.parse?_eq_some hp
  have hc : Context.once.Answers := by
    intro calls call
    cases call <;> exact ⟨_, rfl⟩
  have hfails := Context.once.failsAt_failingAt 1 ⟨.connection, "unreachable"⟩
  have hcomputed : (Plan.parse? (.value Plan.brokenDocument)).map (fun p =>
      ((ofPlan 1 .once p).calls,
        (ofPlan 1 .unreachable p).issues.map fun i => (i.path, i.code))) =
      some ([.allows "https://a", .resolve "missing", .allows "https://b"],
        Plan.brokenRules.take 5 ++ [("validation", "VALIDATION_ERROR")]) := by
    decide +kernel
  rw [hp, Option.map_some, Option.some.injEq, Prod.mk.injEq] at hcomputed
  obtain ⟨hcalls, hissues⟩ := hcomputed
  have hk : 1 < (ofPlan 1 .once p).calls.length := by simp [hcalls]
  obtain ⟨hcut, hvalid, -⟩ :=
    (interrupted_at_call hparse 1 hc).2.2.2.2 1 hk .unreachable _ hfails
  refine ⟨p, hparse, hc, hfails, hcalls, ?_, hvalid, hissues⟩
  rw [hcut, hcalls]
  rfl

end Flowplan
