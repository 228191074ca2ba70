import Flowplan.Proofs.SchemaOutcome
import Flowplan.Proofs.TableLaws

namespace Flowplan.Schema
set_option autoImplicit true

open Flowplan.Json

variable {resolve : String → Option Json} {descend : Descent} {s : Site}

/-- What several keywords of a schema find one after the other. -/
def Kept (resolve : String → Option Json) (descend : Descent) (s : Site) (keywords : Object)
    (P : Prop) : Prop :=
  Settles (collect keywords fun (keyword, rule) => applyKeyword resolve descend s keyword rule) P

namespace Kept

theorem nil : Kept resolve descend s [] True := Settles.nothing

theorem cons (h : Settles (applyKeyword resolve descend s keyword rule) P)
    (hrest : Kept resolve descend s rest Q) :
    Kept resolve descend s ((keyword, rule) :: rest) (P ∧ Q) := Settles.cons h hrest

theorem last (h : Settles (applyKeyword resolve descend s keyword rule) P) :
    Kept resolve descend s [(keyword, rule)] P := (cons h nil).iff (and_iff_left trivial)

theorem iff (h : Kept resolve descend s keywords P) (hPQ : P ↔ Q) :
    Kept resolve descend s keywords Q := Settles.iff h hPQ

end Kept

theorem strings_map (names : List String) : strings (.arr (names.map .str)) = names := by
  induction names with
  | nil => rfl
  | cons name rest ih =>
    change name :: strings (.arr (rest.map .str)) = name :: rest
    rw [ih]

theorem anyOf_eq_ok {names : List String} (h : ∀ t ∈ names, typeNames.contains t = true) :
    applyType.anyOf s names = .ok (names.any (hasType s.subject)) := by
  induction names with
  | nil => rfl
  | cons t rest ih =>
    rw [applyType.anyOf, h t List.mem_cons_self, ih fun u hu => h u (List.mem_cons_of_mem _ hu)]
    cases ht : hasType s.subject t <;> simp [ht]

theorem settles_type {names : List String} (h : ∀ t ∈ names, typeNames.contains t = true) :
    Settles (applyKeyword resolve descend s "type" (.arr (names.map .str)))
      (∃ t ∈ names, hasType s.subject t = true) := by
  change Settles (applyType s (.arr (names.map .str))) _
  simp only [applyType, strings_map, anyOf_eq_ok h]
  apply (Settles.refuseIf ..).iff
  rw [Bool.not_eq_false', List.any_eq_true]

theorem settles_type_one (h : typeNames.contains t = true) :
    Settles (applyKeyword resolve descend s "type" (.str t)) (hasType s.subject t = true) := by
  have hall : ∀ u ∈ [t], typeNames.contains u = true := fun u hu => List.mem_singleton.1 hu ▸ h
  change Settles (applyType s (.str t)) _
  simp only [applyType, anyOf_eq_ok hall]
  apply (Settles.refuseIf ..).iff
  simp

theorem get?_members (h : Table.get? (members v) key = some w) :
    ∃ ms, v = .obj ms ∧ Table.get? ms key = some w := by
  cases v with
  | obj ms => exact ⟨ms, rfl, h⟩
  | _ => simp [members, Table.get?] at h

theorem settles_properties {φ : Type} {fields : List φ} {key : φ → String} {part : φ → Json}
    {P : φ → Json → Prop}
    (h : ∀ f ∈ fields, ∀ w, Table.get? (members s.subject) (key f) = some w →
      Settles (descend (part f) (s.under (key f)) w) (P f w)) :
    Settles (applyKeyword resolve descend s "properties"
        (.obj (fields.map fun f => (key f, part f))))
      (∀ f ∈ fields, ∀ w, Table.get? (members s.subject) (key f) = some w → P f w) := by
  change Settles (collect (fields.map fun f => (key f, part f)) _) _
  rw [collect_map]
  apply Settles.collect
  intro f hf
  have hfield := h f hf
  cases hw : Table.get? (members s.subject) (key f) with
  | none =>
    simp only [Function.comp_apply, hw]
    exact Settles.nothing.iff (by simp)
  | some w =>
    simp only [Function.comp_apply, hw]
    exact (hfield w hw).iff (by simp)

theorem settles_required (names : List String) :
    Settles (applyKeyword resolve descend s "required" (.arr (names.map .str)))
      (∀ ms, s.subject = .obj ms → ∀ name ∈ names, name ∈ Table.keys ms) := by
  change Settles (applyRequired s (.arr (names.map .str))) _
  cases hs : s.subject with
  | obj ms =>
    simp only [applyRequired, hs, strings_map]
    apply Settles.ok
    rw [List.map_eq_nil_iff, List.filter_eq_nil_iff]
    simp [Table.has_iff_mem_keys]
  | _ =>
    simp only [applyRequired, hs]
    exact Settles.nothing.iff (by simp)

theorem settles_additional {properties : Object}
    (hk : Table.get? s.schema "properties" = some (.obj properties)) :
    Settles (applyKeyword resolve descend s "additionalProperties" (.bool false))
      (∀ key ∈ Table.keys (members s.subject), key ∈ Table.keys properties) := by
  change Settles (s.refuseIf "additionalProperties" (.bool false)
    (!Json.truthy (.bool false) && !(extraKeys s).isEmpty) (extrasMessage (extraKeys s))) _
  apply (Settles.refuseIf ..).iff
  have hempty : (extraKeys s).isEmpty = true ↔
      ∀ key ∈ Table.keys (members s.subject), key ∈ Table.keys properties := by
    rw [List.isEmpty_iff, extraKeys, List.filter_eq_nil_iff, hk]
    simp [members]
  rw [← hempty]
  cases (extraKeys s).isEmpty <;> simp [Json.truthy]

theorem settles_additional_open :
    Settles (applyKeyword resolve descend s "additionalProperties" (.bool true)) True :=
  Settles.nothing

theorem forall_indexed {P : Json → Prop} (start : Nat) (vs : List Json) :
    (∀ e ∈ indexed start vs, P e.2) ↔ ∀ v ∈ vs, P v := by
  induction vs generalizing start with
  | nil => simp [indexed]
  | cons v rest ih => rw [indexed, List.forall_mem_cons, ih, List.forall_mem_cons]

theorem settles_items {P : Json → Prop} {ms : Object}
    (hfixed : Table.get? s.schema "prefixItems" = none)
    (h : ∀ v ∈ items s.subject, ∀ place, Settles (descend (.obj ms) place v) (P v)) :
    Settles (applyKeyword resolve descend s "items" (.obj ms)) (∀ v ∈ items s.subject, P v) := by
  change Settles (applyItems s descend (.obj ms)) _
  simp only [applyItems, hfixed, Option.getD_none, items, List.length_nil, List.drop_zero]
  have hall : ∀ e ∈ indexed 0 (items s.subject),
      Settles (descend (.obj ms) (s.child e.1) e.2) (P e.2) := by
    intro e he
    have hmem : e.2 ∈ items s.subject := (forall_indexed 0 _).2 (fun _ hv => hv) e he
    exact h e.2 hmem (s.child e.1)
  exact (Settles.collect hall).iff (forall_indexed 0 (items s.subject))

theorem settles_few (keyword : String) (rule : Json) (size least : Nat) (message : String) :
    Settles (s.refuseIf keyword rule (size < count (.int least)) message) (least ≤ size) := by
  apply (Settles.refuseIf ..).iff
  rw [decide_eq_false_iff_not, Nat.not_lt, count, Int.toNat_natCast]

theorem settles_many (keyword : String) (rule : Json) (size most : Nat) (message : String) :
    Settles (s.refuseIf keyword rule (count (.int most) < size) message) (size ≤ most) := by
  apply (Settles.refuseIf ..).iff
  rw [decide_eq_false_iff_not, Nat.not_lt, count, Int.toNat_natCast]

theorem settles_minItems (n : Nat) :
    Settles (applyKeyword resolve descend s "minItems" (.int n))
      (∀ vs, s.subject = .arr vs → n ≤ vs.length) := by
  change Settles (applyLength s "minItems" (.int n)) _
  cases hs : s.subject with
  | arr vs =>
    simp only [applyLength, hs]
    exact (settles_few ..).iff (by simp)
  | _ =>
    simp only [applyLength, hs]
    exact Settles.nothing.iff (by simp)

theorem settles_maxItems (n : Nat) :
    Settles (applyKeyword resolve descend s "maxItems" (.int n))
      (∀ vs, s.subject = .arr vs → vs.length ≤ n) := by
  change Settles (applyLength s "maxItems" (.int n)) _
  cases hs : s.subject with
  | arr vs =>
    simp only [applyLength, hs]
    exact (settles_many ..).iff (by simp)
  | _ =>
    simp only [applyLength, hs]
    exact Settles.nothing.iff (by simp)

theorem settles_minLength (n : Nat) :
    Settles (applyKeyword resolve descend s "minLength" (.int n))
      (∀ t, s.subject = .str t ∨ s.subject = .unpaired t → n ≤ t.length) := by
  change Settles (applyLength s "minLength" (.int n)) _
  cases hs : s.subject with
  | str t =>
    simp only [applyLength, hs]
    exact (settles_few ..).iff (by simp)
  | unpaired t =>
    simp only [applyLength, hs]
    exact (settles_few ..).iff (by simp)
  | _ =>
    simp only [applyLength, hs]
    exact Settles.nothing.iff (by simp)

theorem settles_maxLength (n : Nat) :
    Settles (applyKeyword resolve descend s "maxLength" (.int n))
      (∀ t, s.subject = .str t ∨ s.subject = .unpaired t → t.length ≤ n) := by
  change Settles (applyLength s "maxLength" (.int n)) _
  cases hs : s.subject with
  | str t =>
    simp only [applyLength, hs]
    exact (settles_many ..).iff (by simp)
  | unpaired t =>
    simp only [applyLength, hs]
    exact (settles_many ..).iff (by simp)
  | _ =>
    simp only [applyLength, hs]
    exact Settles.nothing.iff (by simp)

theorem sameValue_str (a : String) (v : Json) : sameValue (.str a) v = true ↔ v = .str a := by
  cases v with
  | str b => rw [sameValue, beq_iff_eq, Json.str.injEq, eq_comm]
  | _ => simp [sameValue]

theorem settles_const (a : String) :
    Settles (applyKeyword resolve descend s "const" (.str a)) (s.subject = .str a) := by
  apply (Settles.refuseIf s "const" (.str a) _ _).iff
  rw [Bool.not_eq_false', sameValue_str]

theorem settles_enum (names : List String) :
    Settles (applyKeyword resolve descend s "enum" (.arr (names.map .str)))
      (∃ name ∈ names, s.subject = .str name) := by
  apply (Settles.refuseIf s "enum" (.arr (names.map .str)) _ _).iff
  simp [items, sameValue_str]

theorem settles_dialect : Settles (applyKeyword resolve descend s "$schema" rule) True :=
  Settles.nothing

theorem settles_definitions : Settles (applyKeyword resolve descend s "$defs" rule) True :=
  Settles.nothing

theorem settles_ref {P : Prop} (hr : resolve reference = some schema)
    (h : Settles (descend schema s.place s.subject) P) :
    Settles (applyKeyword resolve descend s "$ref" (.str reference)) P := by
  have hstep : applyKeyword resolve descend s "$ref" (.str reference) =
      descend schema s.place s.subject := by
    unfold applyKeyword
    simp only [hr]
  rw [hstep]
  exact h

section

variable {κ : Type} {variant : κ → Json} {P : κ → Prop}

theorem othersValid_map {ks : List κ}
    (h : ∀ k ∈ ks, Settles (descend (variant k) s.place s.subject) (P k)) :
    applyOneOf.othersValid s descend (ks.map variant) = .error .tooDeep ∨
      ∃ others, applyOneOf.othersValid s descend (ks.map variant) = .ok others ∧
        (others = [] ↔ ∀ k ∈ ks, ¬ P k) := by
  induction ks with
  | nil => exact .inr ⟨[], rfl, by simp⟩
  | cons k rest ih =>
    rw [List.map_cons, applyOneOf.othersValid]
    rcases h k List.mem_cons_self with hk | ⟨found, hk, hfound⟩
    · rw [hk]
      exact .inl rfl
    · rcases ih fun j hj => h j (List.mem_cons_of_mem _ hj) with hr | ⟨others, hr, hothers⟩
      · rw [hk, hr]
        exact .inl rfl
      · rw [hk, hr]
        refine .inr ⟨_, rfl, ?_⟩
        rw [List.forall_mem_cons, ← hothers, ← hfound]
        cases found <;> simp

theorem firstValid_map {ks : List κ}
    (h : ∀ k ∈ ks, Settles (descend (variant k) s.place s.subject) (P k))
    (acc : List (List Violation)) :
    applyOneOf.firstValid s descend (ks.map variant) acc = .error .tooDeep ∨
      (∃ alternatives,
        applyOneOf.firstValid s descend (ks.map variant) acc = .ok (.inl alternatives) ∧
          ∀ k ∈ ks, ¬ P k) ∨
      ∃ before k rest, ks = before ++ k :: rest ∧ P k ∧
        applyOneOf.firstValid s descend (ks.map variant) acc =
          .ok (.inr (variant k, rest.map variant)) := by
  induction ks generalizing acc with
  | nil => exact .inr (.inl ⟨_, rfl, by simp⟩)
  | cons k rest ih =>
    rw [List.map_cons]
    rcases h k List.mem_cons_self with hk | ⟨found, hk, hfound⟩
    · rw [applyOneOf.firstValid, hk]
      exact .inl rfl
    · have hstep : applyOneOf.firstValid s descend (variant k :: rest.map variant) acc =
          if found.isEmpty then .ok (.inr (variant k, rest.map variant))
          else applyOneOf.firstValid s descend (rest.map variant) (found :: acc) := by
        rw [applyOneOf.firstValid, hk]
        rfl
      rw [hstep]
      by_cases hnil : found = []
      · rw [if_pos (List.isEmpty_iff.2 hnil)]
        exact .inr (.inr ⟨[], k, rest, rfl, hfound.1 hnil, rfl⟩)
      · rw [if_neg (mt List.isEmpty_iff.1 hnil)]
        rcases ih (fun j hj => h j (List.mem_cons_of_mem _ hj)) (found :: acc) with
          hr | ⟨alternatives, hr, hnone⟩ | ⟨before, j, others, rfl, hj, hr⟩
        · exact .inl hr
        · exact .inr (.inl ⟨alternatives, hr, List.forall_mem_cons.2 ⟨mt hfound.2 hnil, hnone⟩⟩)
        · exact .inr (.inr ⟨k :: before, j, others, rfl, hj, hr⟩)

/-- Of alternatives that exclude each other, one holds or none does. -/
theorem settles_oneOf {ks : List κ} (hnodup : ks.Nodup)
    (hexclusive : ∀ k ∈ ks, ∀ j ∈ ks, P k → P j → k = j)
    (h : ∀ k ∈ ks, Settles (descend (variant k) s.place s.subject) (P k)) :
    Settles (applyKeyword resolve descend s "oneOf" (.arr (ks.map variant))) (∃ k ∈ ks, P k) := by
  change Settles (applyOneOf s descend (.arr (ks.map variant))) _
  rw [applyOneOf, items]
  rcases firstValid_map h [] with hr | ⟨alternatives, hr, hnone⟩ | ⟨before, k, rest, rfl, hk, hr⟩
  · rw [hr]
    exact .tooDeep
  · rw [hr]
    have hnot : ¬ ∃ k ∈ ks, P k := by
      rintro ⟨k, hk, hp⟩
      exact hnone k hk hp
    exact .ok (iff_of_false (List.cons_ne_nil _ _) hnot)
  · have hlater : ∀ j ∈ rest, j ∈ before ++ k :: rest := fun j hj =>
      List.mem_append_right _ (List.mem_cons_of_mem _ hj)
    have hfirst : k ∈ before ++ k :: rest := List.mem_append_right _ List.mem_cons_self
    -- All alternatives after the first that holds are still tried, and have to fail.
    have hnone : ∀ j ∈ rest, ¬ P j := by
      intro j hj hp
      obtain rfl := hexclusive k hfirst j (hlater j hj) hk hp
      exact (List.nodup_cons.1 (List.nodup_append.1 hnodup).2.1).1 hj
    simp only [hr, bind, Except.bind]
    rcases othersValid_map fun j hj => h j (hlater j hj) with ho | ⟨others, ho, hothers⟩
    · rw [ho]
      exact .tooDeep
    · rw [ho, hothers.2 hnone]
      exact .ok (iff_of_true rfl ⟨k, hfirst, hk⟩)

end

end Flowplan.Schema
