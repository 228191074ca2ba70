import Flowplan.Plan.Parse
import Flowplan.Plan.Walk
import Flowplan.Proofs.CheckedLaws
import Flowplan.Proofs.PreorderWalk
import Flowplan.Proofs.TableLaws

namespace Flowplan
set_option autoImplicit true

open Flowplan.Json Flowplan.Record

/-- One of the five ways to compare. -/
def Operator.Known : Operator → Prop
  | .other _ => False
  | _ => True

namespace Step

/-- A step of one of the six types that compares in known ways only. -/
def Known : Step → Prop
  | .filter condition => condition.op.Known
  | .branch cases _ => ∀ c ∈ cases, c.condition.op.Known
  | .bare _ => False
  | _ => True

/-- Steps that are known all the way down. -/
def AllKnown (steps : List Step) : Prop := ∀ s ∈ preorderList steps, s.Known

/-- A branch has at least one case. -/
def HasCases : Step → Prop
  | .branch cases _ => cases ≠ []
  | _ => True

/-- Steps as they are read from a document, all the way down. -/
def AllRead (steps : List Step) : Prop := ∀ s ∈ preorderList steps, s.Known ∧ s.HasCases

theorem AllRead.nil : AllRead [] := fun _ h => absurd h List.not_mem_nil

theorem AllRead.cons (hs : ∀ t ∈ preorder s, t.Known ∧ t.HasCases) (hrest : AllRead rest) :
    AllRead (s :: rest) := by
  intro t ht
  rcases List.mem_append.1 ht with ht | ht
  · exact hs t ht
  · exact hrest t ht

end Step

theorem Operator.ofName?_known (h : ofName? s = some op) : op.Known := by
  have hall : ∀ e ∈ Operator.known, e.2.Known := by simp [Operator.known, Known]
  exact hall _ (Table.mem_of_get? h)

theorem Operator.known_of_read (h : read v = .valid op) : op.Known := by
  cases v with
  | str s =>
    rw [read] at h
    split at h
    · rename_i found
      obtain rfl := Checked.valid.inj h
      exact ofName?_known found
    · simp [Checked.refuse] at h
  | _ => simp [read, Checked.refuse] at h

theorem Condition.known_of_read (h : Condition.read v = .valid c) : c.op.Known := by
  obtain ⟨o, rfl, ho, -⟩ := ofObject_eq_valid h
  obtain ⟨withOp, value, hOp, -, rfl⟩ := Checked.seq_eq_valid.1 ho
  obtain ⟨withField, op, hField, hRead, rfl⟩ := Checked.seq_eq_valid.1 hOp
  obtain ⟨field, -, rfl⟩ := Checked.map_eq_valid.1 hField
  obtain ⟨w, hw⟩ := Slot.required_eq_valid hRead
  exact Operator.known_of_read hw

namespace Step

/-- A case with a known comparison and with steps as they are read. -/
def CaseRead (c : Case Step) : Prop := c.condition.op.Known ∧ AllRead c.steps

theorem allRead_branch {cases : List (Case Step)} {otherwise : Member (List Step)}
    (hne : cases ≠ []) (hcases : ∀ c ∈ cases, CaseRead c)
    (helse : ∀ steps, otherwise = .given steps → AllRead steps) :
    ∀ t ∈ preorder (.branch cases otherwise), t.Known ∧ t.HasCases := by
  intro t ht
  rw [preorder_eq_cons, List.mem_cons, List.mem_flatMap] at ht
  rcases ht with rfl | ⟨steps, hsteps, ht⟩
  · exact ⟨fun c hc => (hcases c hc).1, hne⟩
  · rcases List.mem_append.1 hsteps with hsteps | hsteps
    · obtain ⟨c, hc, rfl⟩ := List.mem_map.1 hsteps
      exact (hcases c hc).2 t ht
    · cases otherwise with
      | given below =>
        obtain rfl := List.mem_singleton.1 hsteps
        exact helse _ rfl t ht
      | _ => exact absurd hsteps List.not_mem_nil

theorem allRead_flat {k : StepKind} (hk : k ≠ .branch) (h : flatOfMembers k o = .valid s) :
    ∀ t ∈ preorder s, t.Known ∧ t.HasCases := by
  suffices hs : preorder s = [s] ∧ s.Known ∧ s.HasCases by
    intro t ht
    rw [hs.1, List.mem_singleton] at ht
    exact ht ▸ hs.2
  obtain ⟨h, -⟩ := Checked.also_eq_valid.1 h
  cases k <;> simp only [Checked.seq_eq_valid, Checked.map_eq_valid] at h
  case branch => exact absurd rfl hk
  case trigger =>
    obtain ⟨_, _, ⟨_, _, ⟨_, _, rfl⟩, _, rfl⟩, _, rfl⟩ := h
    exact ⟨rfl, trivial, trivial⟩
  case filter =>
    obtain ⟨_, condition, ⟨_, _, rfl⟩, hwhen, rfl⟩ := h
    obtain ⟨v, hv⟩ := Slot.required_eq_valid hwhen
    exact ⟨rfl, Condition.known_of_read hv, trivial⟩
  case slack =>
    obtain ⟨_, _, ⟨_, _, ⟨_, _, rfl⟩, _, rfl⟩, _, rfl⟩ := h
    exact ⟨rfl, trivial, trivial⟩
  case request =>
    obtain ⟨_, _, ⟨_, _, ⟨_, _, ⟨_, _, ⟨_, _, rfl⟩, _, rfl⟩, _, rfl⟩, _, rfl⟩, _, rfl⟩ := h
    exact ⟨rfl, trivial, trivial⟩
  case action =>
    obtain ⟨_, _, ⟨_, _, ⟨_, _, rfl⟩, _, rfl⟩, _, rfl⟩ := h
    exact ⟨rfl, trivial, trivial⟩

theorem caseOfParts_eq_valid (h : caseOfParts o steps = .valid c) :
    c.condition.op.Known ∧ (steps = none ∧ c.steps = [] ∨ steps = some (.valid c.steps)) := by
  obtain ⟨h, -⟩ := Checked.also_eq_valid.1 h
  obtain ⟨_, below, hc, hsteps, rfl⟩ := Checked.seq_eq_valid.1 h
  obtain ⟨condition, hwhen, rfl⟩ := Checked.map_eq_valid.1 hc
  obtain ⟨v, hv⟩ := Slot.required_eq_valid hwhen
  refine ⟨Condition.known_of_read hv, ?_⟩
  cases steps with
  | none => exact .inl ⟨rfl, (Checked.valid.inj hsteps).symm⟩
  | some ss => exact .inr (congrArg some (Checked.under_valid.1 hsteps))

theorem branchOfParts_eq_valid (h : branchOfParts o cases otherwise = .valid s) :
    ∃ cs other, s = .branch cs other ∧ cs ≠ [] ∧ cases = some (.valid cs) ∧
      (otherwise = none ∧ other = .absent ∨ ∃ key, otherwise = some (key, .valid other)) := by
  obtain ⟨h, -⟩ := Checked.also_eq_valid.1 h
  obtain ⟨_, other, hb, helse, rfl⟩ := Checked.seq_eq_valid.1 h
  obtain ⟨_, cs, hmap, hcases, rfl⟩ := Checked.seq_eq_valid.1 hb
  obtain ⟨_, -, rfl⟩ := Checked.map_eq_valid.1 hmap
  have hread : cs ≠ [] ∧ cases = some (.valid cs) := by
    cases cases with
    | none => simp [Slot.missing] at hcases
    | some read =>
      obtain ⟨xs, rfl, hxs⟩ := Checked.andThen_eq_valid.1 (Checked.under_valid.1 hcases)
      split at hxs
      · simp [Checked.refuse] at hxs
      · rename_i hne
        obtain rfl := Checked.valid.inj hxs
        exact ⟨mt List.isEmpty_iff.2 hne, rfl⟩
  refine ⟨cs, other, rfl, hread.1, hread.2, ?_⟩
  cases otherwise with
  | none => exact .inl ⟨rfl, (Checked.valid.inj helse).symm⟩
  | some read => exact .inr ⟨read.1, by rw [← Checked.under_valid.1 helse]⟩

mutual

theorem allRead_of_read (v : Json) (h : read v = .valid s) :
    ∀ t ∈ preorder s, t.Known ∧ t.HasCases := by
  cases v with
  | obj o =>
    rw [read] at h
    split at h
    · simp at h
    · replace h := Checked.under_valid.1 h
      split at h
      · obtain ⟨cs, other, rfl, hne, hcases, helse⟩ := branchOfParts_eq_valid h
        apply allRead_branch hne
        · exact allRead_of_casesIn o hcases
        · intro steps hsteps
          subst hsteps
          rcases helse with ⟨-, hnone⟩ | ⟨key, hsome⟩
          · simp at hnone
          · rw [Option.or_eq_some_iff] at hsome
            rcases hsome with hsome | ⟨-, hsome⟩ <;>
              obtain ⟨read, hread, he⟩ := Option.map_eq_some_iff.1 hsome <;>
              obtain ⟨-, rfl⟩ := Prod.mk.inj he
            · exact allRead_of_elseIn o hread
            · exact allRead_of_elseIn o hread
      · rename_i hk
        exact allRead_flat hk h
  | _ => simp [read, Checked.refuse] at h

theorem allRead_of_readItems (vs : List Json) (h : readItems i vs = .valid steps) :
    AllRead steps := by
  match vs with
  | [] =>
    obtain rfl := Checked.valid.inj h
    exact AllRead.nil
  | v :: rest =>
    rw [readItems] at h
    obtain ⟨_, others, hmap, hrest, rfl⟩ := Checked.seq_eq_valid.1 h
    obtain ⟨s, hs, rfl⟩ := Checked.map_eq_valid.1 hmap
    exact AllRead.cons (allRead_of_read v (Checked.under_valid.1 hs))
      (allRead_of_readItems rest hrest)

theorem allRead_of_readList (v : Json) (h : readList v = .valid steps) : AllRead steps := by
  cases v with
  | arr vs => exact allRead_of_readItems vs h
  | _ => simp [readList, Checked.refuse] at h

theorem allRead_of_readElse (v : Json) (h : readElse v = .valid (.given steps)) :
    AllRead steps := by
  cases v with
  | arr vs =>
    obtain ⟨below, hbelow, hgiven⟩ := Checked.map_eq_valid.1 (h : Member.given <$> _ = _)
    obtain rfl := Member.given.inj hgiven
    exact allRead_of_readItems vs hbelow
  | null => simp [readElse] at h
  | _ => simp [readElse, Checked.refuse] at h

theorem allRead_of_readCase (v : Json) (h : readCase v = .valid c) : CaseRead c := by
  cases v with
  | obj o =>
    obtain ⟨hop, ⟨-, hnil⟩ | hsteps⟩ := caseOfParts_eq_valid h
    · exact ⟨hop, hnil ▸ AllRead.nil⟩
    · exact ⟨hop, allRead_of_stepsIn o hsteps⟩
  | _ => simp [readCase, Checked.refuse] at h

theorem allRead_of_readCaseItems (vs : List Json) (h : readCaseItems i vs = .valid cases) :
    ∀ c ∈ cases, CaseRead c := by
  match vs with
  | [] =>
    obtain rfl := Checked.valid.inj h
    exact fun _ hc => absurd hc List.not_mem_nil
  | v :: rest =>
    rw [readCaseItems] at h
    obtain ⟨_, others, hmap, hrest, rfl⟩ := Checked.seq_eq_valid.1 h
    obtain ⟨first, hfirst, rfl⟩ := Checked.map_eq_valid.1 hmap
    intro c hc
    rcases List.mem_cons.1 hc with rfl | hc
    · exact allRead_of_readCase v (Checked.under_valid.1 hfirst)
    · exact allRead_of_readCaseItems rest hrest c hc

theorem allRead_of_readCases (v : Json) (h : readCases v = .valid cases) :
    ∀ c ∈ cases, CaseRead c := by
  cases v with
  | arr vs => exact allRead_of_readCaseItems vs h
  | _ => simp [readCases, Checked.refuse] at h

theorem allRead_of_casesIn (ms : List (String × Json)) (h : casesIn ms = some (.valid cases)) :
    ∀ c ∈ cases, CaseRead c := by
  match ms with
  | [] => simp [casesIn] at h
  | (k, v) :: rest =>
    rw [casesIn] at h
    split at h
    · exact allRead_of_readCases v (Option.some.inj h)
    · exact allRead_of_casesIn rest h

theorem allRead_of_stepsIn (ms : List (String × Json)) (h : stepsIn ms = some (.valid steps)) :
    AllRead steps := by
  match ms with
  | [] => simp [stepsIn] at h
  | (k, v) :: rest =>
    rw [stepsIn] at h
    split at h
    · exact allRead_of_readList v (Option.some.inj h)
    · exact allRead_of_stepsIn rest h

theorem allRead_of_elseIn (ms : List (String × Json))
    (h : elseIn key ms = some (.valid (.given steps))) : AllRead steps := by
  match ms with
  | [] => simp [elseIn] at h
  | (k, v) :: rest =>
    rw [elseIn] at h
    split at h
    · exact allRead_of_readElse v (Option.some.inj h)
    · exact allRead_of_elseIn rest h

end

end Step

namespace Plan

theorem allRead_of_read (h : read v = .valid p) : p.steps ≠ [] ∧ Step.AllRead p.steps := by
  obtain ⟨o, rfl, ho, -⟩ := ofObject_eq_valid h
  obtain ⟨_, steps, hnamed, hsteps, rfl⟩ := Checked.seq_eq_valid.1 ho
  obtain ⟨_, name, hversion, -, rfl⟩ := Checked.seq_eq_valid.1 hnamed
  obtain ⟨version, -, rfl⟩ := Checked.map_eq_valid.1 hversion
  obtain ⟨w, hw⟩ := Slot.required_eq_valid hsteps
  cases w with
  | arr vs =>
    rw [readSteps] at hw
    split at hw
    · simp [Checked.refuse] at hw
    · obtain ⟨xs, hread, hxs⟩ := Checked.andThen_eq_valid.1 hw
      split at hxs
      · simp [Checked.refuse] at hxs
      · rename_i hne
        obtain rfl := Checked.valid.inj hxs
        refine ⟨?_, Step.allRead_of_readItems vs hread⟩
        rwa [List.isEmpty_iff] at hne
  | _ => simp [readSteps, Checked.refuse] at hw

theorem read_of_ofJson (h : ofJson v = .ok p) : read v = .valid p := by
  rw [ofJson] at h
  split at h
  · simp at h
  · split at h
    · unfold ofChecked at h
      split at h
      · rename_i hr
        rw [hr, Except.ok.inj h]
      · simp at h
    · simp at h

theorem ofJson_of_ofRead (h : ofRead r = .ok (.ok p)) : ∃ v, ofJson v = .ok p := by
  unfold ofRead at h
  split at h
  · exact ⟨_, Except.ok.inj h⟩
  all_goals simp at h

/-- A parsed plan was read from a value. -/
theorem ofJson_of_parse (h : parse src = .ok (.ok p)) : ∃ v, ofJson v = .ok p := by
  unfold parse at h
  split at h
  · exact ofJson_of_ofRead h
  · exact ofJson_of_ofRead h
  · exact ⟨_, Except.ok.inj h⟩
  · exact ofJson_of_ofRead h
  · split at h
    · exact ⟨_, Except.ok.inj h⟩
    · simp at h
    · exact ofJson_of_ofRead h

theorem allRead_of_parse (h : parse src = .ok (.ok p)) :
    p.steps ≠ [] ∧ Step.AllRead p.steps := by
  obtain ⟨v, hv⟩ := ofJson_of_parse h
  exact allRead_of_read (read_of_ofJson hv)

theorem known_of_parse (h : parse src = .ok (.ok p)) :
    p.steps ≠ [] ∧ Step.AllKnown p.steps := by
  obtain ⟨hne, hread⟩ := allRead_of_parse h
  exact ⟨hne, fun s hs => (hread s hs).1⟩

/-- The plan in a document, where there is one. -/
def parse? (src : Source) : Option Plan :=
  match parse src with
  | .ok (.ok p) => some p
  | _ => none

theorem parse?_eq_some (h : parse? src = some p) : parse src = .ok (.ok p) := by
  unfold parse? at h
  split at h
  · rename_i hp
    rw [hp, Option.some.inj h]
  · simp at h

theorem parse?_of_parse (h : parse src = .ok (.ok p)) : parse? src = some p := by
  rw [parse?, h]

end Plan

end Flowplan
