import Flowplan.Plan.Document
import Flowplan.Proofs.PlanGrammar
import Flowplan.Proofs.SchemaKeywords

namespace Flowplan.Plan
set_option autoImplicit true

open Flowplan.Json Flowplan.Schema

/-- With some budget, a part of the schema of plan documents finds nothing in just the values that
have a property. -/
def Recognizes (budget : Nat) (part : Json) (P : Json → Prop) : Prop :=
  ∀ place v, v.paired = true → Settles (check schema budget part place v) (P v)

namespace Recognizes

theorem iff (h : Recognizes n part P) (hPQ : ∀ v, v.paired = true → (P v ↔ Q v)) :
    Recognizes n part Q := fun place v hv => (h place v hv).iff (hPQ v hv)

theorem ofKeywords {keywords : Object}
    (h : ∀ m < n, ∀ place v, v.paired = true →
      Kept (resolve schema) (check schema m) ⟨keywords, place, v⟩ keywords (P v)) :
    Recognizes n (.obj keywords) P := by
  intro place v hv
  cases n with
  | zero => exact .tooDeep
  | succ m => exact h m (Nat.lt_succ_self m) place v hv

theorem anything : Recognizes n (.obj []) fun _ => True :=
  ofKeywords fun _ _ _ _ _ => .nil

theorem typed (h : typeNames.contains t = true) :
    Recognizes n (Document.typed t) fun v => hasType v t = true :=
  ofKeywords fun _ _ _ _ _ => .last (settles_type_one h)

end Recognizes

section Types

attribute [local simp] hasType

theorem hasType_string (h : v.paired = true) : hasType v "string" = true ↔ ∃ s, v = .str s := by
  cases v with
  | unpaired s => simp [Json.paired] at h
  | _ => simp

theorem hasType_boolean (v : Json) : hasType v "boolean" = true ↔ ∃ b, v = .bool b := by
  cases v <;> simp

theorem hasType_object (v : Json) : hasType v "object" = true ↔ ∃ o, v = .obj o := by
  cases v <;> simp

theorem hasType_array (v : Json) : hasType v "array" = true ↔ ∃ vs, v = .arr vs := by
  cases v <;> simp

theorem hasType_null (v : Json) : hasType v "null" = true ↔ v = .null := by
  cases v <;> simp

end Types

namespace Recognizes

theorem text : Recognizes n (Document.typed "string") fun v => ∃ s, v = .str s :=
  (typed rfl).iff fun _ => hasType_string

theorem flag : Recognizes n (Document.typed "boolean") fun v => ∃ b, v = .bool b :=
  (typed rfl).iff fun v _ => hasType_boolean v

theorem constant (t : String) :
    Recognizes n (.obj [("type", .str "string"), ("const", .str t)]) fun v => v = .str t := by
  apply ofKeywords
  intro m _ place v hv
  apply (Kept.cons (settles_type_one rfl) (.last (settles_const t))).iff
  rw [hasType_string hv]
  constructor
  · exact fun h => h.2
  · exact fun h => ⟨⟨t, h⟩, h⟩

theorem chosen (ts : List String) :
    Recognizes n (Document.chosen ts) fun v => ∃ t ∈ ts, v = .str t := by
  apply ofKeywords
  intro m _ place v hv
  apply (Kept.cons (settles_type_one rfl) (.last (settles_enum ts))).iff
  rw [hasType_string hv]
  constructor
  · exact fun h => h.2
  · rintro ⟨t, ht, h⟩
    exact ⟨⟨t, h⟩, t, ht, h⟩

theorem openObject : Recognizes n Document.openObject fun v => v = .null ∨ ∃ o, v = .obj o := by
  apply ofKeywords
  intro m _ place v _
  have htypes : ∀ t ∈ ["object", "null"], typeNames.contains t = true := by decide
  apply (Kept.cons (settles_type htypes) (.last settles_additional_open)).iff
  simp [hasType_object, hasType_null, or_comm]

theorem reference {target : String} (ht : resolve schema ("#/$defs/" ++ target) = some part)
    (h : ∀ m < n, Recognizes m part P) : Recognizes n (Document.reference target) P := by
  apply ofKeywords
  intro m hm place v hv
  exact .last (settles_ref ht (h m hm place v hv))

end Recognizes

/-- A member that an object may have: its key, the schema of its value, and what that schema asks
for. -/
structure Field where
  key : String
  part : Json
  Holds : Json → Prop

/-- The members of an object have the values that the fields ask for. -/
def Fits (o : Object) (fields : List Field) : Prop :=
  ∀ f ∈ fields, ∀ w, Table.get? o f.key = some w → f.Holds w

namespace Fits

theorem nil : Fits o [] := fun _ hf => absurd hf List.not_mem_nil

theorem cons (h : ∀ w, Table.get? o f.key = some w → f.Holds w) (hrest : Fits o rest) :
    Fits o (f :: rest) := List.forall_mem_cons.2 ⟨h, hrest⟩

theorem consOf (hv : Table.get? o f.key = some v) (h : f.Holds v) (hrest : Fits o rest) :
    Fits o (f :: rest) := cons (fun _ hw => Option.some.inj (hv.symm.trans hw) ▸ h) hrest

end Fits

/-- An object with all of the needed members, with no others than the fields, and with values that
the fields ask for. -/
def HasFields (fields : List Field) (needed : List String) (v : Json) : Prop :=
  ∃ o, v = .obj o ∧ (∀ key ∈ needed, key ∈ Table.keys o) ∧
    (∀ key ∈ Table.keys o, key ∈ fields.map Field.key) ∧ Fits o fields

theorem hasFields_iff {fields : List Field} {needed : List String} {v : Json} :
    HasFields fields needed v ↔
      hasType v "object" = true ∧
      Fits (members v) fields ∧
      (∀ ms, v = .obj ms → ∀ key ∈ needed, key ∈ Table.keys ms) ∧
      ∀ key ∈ Table.keys (members v), key ∈ fields.map Field.key := by
  constructor
  · rintro ⟨o, rfl, hneeded, honly, hholds⟩
    refine ⟨rfl, hholds, ?_, honly⟩
    intro ms hms
    exact Json.obj.inj hms ▸ hneeded
  · rintro ⟨hobj, hholds, hneeded, honly⟩
    obtain ⟨o, rfl⟩ := (hasType_object v).1 hobj
    exact ⟨o, rfl, hneeded o rfl, honly, hholds⟩

theorem keys_fields (fields : List Field) :
    Table.keys (fields.map fun f => (f.key, f.part)) = fields.map Field.key := List.map_map

namespace Recognizes

theorem settles_fields {fields : List Field} {s : Schema.Site} (hv : s.subject.paired = true)
    (h : ∀ f ∈ fields, Recognizes m f.part f.Holds) :
    Settles (applyKeyword (resolve schema) (check schema m) s "properties"
        (.obj (fields.map fun f => (f.key, f.part))))
      (Fits (members s.subject) fields) := by
  apply settles_properties
  intro f hf w hw
  obtain ⟨ms, hs, hget⟩ := get?_members hw
  rw [hs] at hv
  exact h f hf _ w (Json.paired_of_get? hv hget)

theorem closed (fields : List Field) (needed : List String)
    (h : ∀ f ∈ fields, ∀ m < n, Recognizes m f.part f.Holds) :
    Recognizes n (Document.closed (fields.map fun f => (f.key, f.part)) needed)
      (HasFields fields needed) := by
  apply ofKeywords
  intro m hm place v hv
  apply (Kept.cons (settles_type_one rfl) <|
    Kept.cons (settles_fields hv fun f hf => h f hf m hm) <|
    Kept.cons (settles_required needed) <| Kept.last (settles_additional rfl)).iff
  rw [keys_fields]
  exact hasFields_iff.symm

theorem settles_elements {s : Schema.Site} {ms : Object} {P : Json → Prop}
    (hv : s.subject.paired = true) (hfixed : Table.get? s.schema "prefixItems" = none)
    (h : Recognizes m (.obj ms) P) :
    Settles (applyKeyword (resolve schema) (check schema m) s "items" (.obj ms))
      (∀ w ∈ items s.subject, P w) := by
  apply settles_items hfixed
  intro w hw place
  cases hs : s.subject with
  | arr vs =>
    rw [hs] at hv hw
    exact h place w (Json.paired_of_mem hv hw)
  | _ =>
    rw [hs] at hw
    exact absurd hw List.not_mem_nil

theorem sequence {target : String} {P : Json → Prop}
    (h : ∀ m < n, Recognizes m (Document.reference target) P) :
    Recognizes n (.obj [("type", .str "array"), ("items", Document.reference target)]) fun v =>
      ∃ vs, v = .arr vs ∧ ∀ w ∈ vs, P w := by
  apply ofKeywords
  intro m hm place v hv
  apply (Kept.cons (settles_type_one rfl) <|
    Kept.last (settles_elements hv rfl (h m hm))).iff
  rw [hasType_array]
  cases v <;> simp [items]

theorem sequenceOrNull {target : String} {P : Json → Prop}
    (h : ∀ m < n, Recognizes m (Document.reference target) P) :
    Recognizes n (.obj [("type", Document.strings ["array", "null"]),
      ("items", Document.reference target)]) fun v =>
        v = .null ∨ ∃ vs, v = .arr vs ∧ ∀ w ∈ vs, P w := by
  apply ofKeywords
  intro m hm place v hv
  have htypes : ∀ t ∈ ["array", "null"], typeNames.contains t = true := by decide
  apply (Kept.cons (settles_type htypes) <|
    Kept.last (settles_elements hv rfl (h m hm))).iff
  cases v <;> simp [items, hasType]

theorem nonempty {target : String} {P : Json → Prop}
    (h : ∀ m < n, Recognizes m (Document.reference target) P) :
    Recognizes n (.obj [("type", .str "array"), ("items", Document.reference target),
      ("minItems", .int 1)]) fun v =>
        ∃ vs, v = .arr vs ∧ (∀ w ∈ vs, P w) ∧ vs ≠ [] := by
  apply ofKeywords
  intro m hm place v hv
  apply (Kept.cons (settles_type_one rfl) <|
    Kept.cons (settles_elements hv rfl (h m hm)) <| Kept.last (settles_minItems 1)).iff
  rw [hasType_array]
  cases v <;> simp [items, Nat.succ_le_iff, List.length_pos_iff]

theorem bounded {target : String} {P : Json → Prop} (most : Nat)
    (h : ∀ m < n, Recognizes m (Document.reference target) P) :
    Recognizes n (.obj [("type", .str "array"), ("items", Document.reference target),
      ("minItems", .int 1), ("maxItems", .int most)]) fun v =>
        ∃ vs, v = .arr vs ∧ (∀ w ∈ vs, P w) ∧ 1 ≤ vs.length ∧ vs.length ≤ most := by
  apply ofKeywords
  intro m hm place v hv
  apply (Kept.cons (settles_type_one rfl) <|
    Kept.cons (settles_elements hv rfl (h m hm)) <|
    Kept.cons (settles_minItems 1) <| Kept.last (settles_maxItems most)).iff
  rw [hasType_array]
  cases v <;> simp [items]

theorem name (least most : Nat) :
    Recognizes n (.obj [("type", .str "string"), ("minLength", .int least),
      ("maxLength", .int most)]) fun v =>
        ∃ s, v = .str s ∧ least ≤ s.length ∧ s.length ≤ most := by
  apply ofKeywords
  intro m hm place v hv
  apply (Kept.cons (settles_type_one rfl) <|
    Kept.cons (settles_minLength least) <| Kept.last (settles_maxLength most)).iff
  rw [hasType_string hv]
  cases v <;> simp

end Recognizes

end Flowplan.Plan
