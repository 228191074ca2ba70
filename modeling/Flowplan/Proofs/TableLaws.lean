import Flowplan.Table

namespace Flowplan.Table
set_option autoImplicit true

variable {κ α : Type} [DecidableEq κ]

theorem set_of_notMem {t : Table κ α} (h : key ∉ t.keys) (value : α) :
    t.set key value = t ++ [(key, value)] := by
  induction t with
  | nil => rfl
  | cons e rest ih =>
    obtain ⟨hk, hr⟩ := not_or.1 (mt List.mem_cons.2 h)
    rw [set, if_neg (Ne.symm hk), ih hr]
    rfl

/-- Merging in entries that are all new puts them at the end. -/
theorem merge_eq_append {t u : Table κ α} (hu : u.keys.Nodup)
    (h : ∀ key ∈ u.keys, key ∉ t.keys) : t.merge u = t ++ u := by
  induction u generalizing t with
  | nil => exact (List.append_nil t).symm
  | cons e rest ih =>
    obtain ⟨he, hrest⟩ := List.nodup_cons.1 hu
    have hnew : e.1 ∉ t.keys := h _ List.mem_cons_self
    have hrest' : ∀ key ∈ keys rest, key ∉ keys (t.set e.1 e.2) := by
      intro key hkey hmem
      rw [keys_set, if_neg hnew, List.mem_append, List.mem_singleton] at hmem
      rcases hmem with hmem | rfl
      · exact h key (List.mem_cons_of_mem _ hkey) hmem
      · exact he hkey
    calc
      merge t (e :: rest) = merge (t.set e.1 e.2) rest := rfl
      _ = t.set e.1 e.2 ++ rest := ih hrest hrest'
      _ = t ++ e :: rest := by rw [set_of_notMem hnew, List.append_assoc]; rfl

/-- Entries with different keys stay as they are. -/
theorem ofPairs_eq_self {pairs : List (κ × α)} (h : (keys pairs).Nodup) : ofPairs pairs = pairs := by
  rw [ofPairs, merge_eq_append h fun _ _ => List.not_mem_nil, List.nil_append]

theorem mem_of_mem_set {t : Table κ α} (h : e ∈ t.set key value) : e ∈ t ∨ e = (key, value) := by
  induction t with
  | nil => exact .inr (List.mem_singleton.1 h)
  | cons first rest ih =>
    obtain ⟨k, v⟩ := first
    rw [set] at h
    split at h
    · rename_i hk
      rcases List.mem_cons.1 h with rfl | h
      · exact .inr (by rw [hk])
      · exact .inl (List.mem_cons_of_mem _ h)
    · rcases List.mem_cons.1 h with rfl | h
      · exact .inl List.mem_cons_self
      · exact (ih h).imp_left (List.mem_cons_of_mem _)

theorem mem_of_mem_merge {t u : Table κ α} (h : e ∈ t.merge u) : e ∈ t ∨ e ∈ u := by
  induction u generalizing t with
  | nil => exact .inl h
  | cons first rest ih =>
    rcases ih h with h | h
    · rcases mem_of_mem_set h with h | rfl
      · exact .inl h
      · exact .inr List.mem_cons_self
    · exact .inr (List.mem_cons_of_mem _ h)

theorem mem_of_mem_ofPairs {pairs : List (κ × α)} (h : e ∈ ofPairs pairs) : e ∈ pairs :=
  (mem_of_mem_merge h).resolve_left List.not_mem_nil

theorem get?_append (t u : Table κ α) (key : κ) :
    get? (t ++ u) key = (t.get? key).or (u.get? key) := by
  induction t with
  | nil => rfl
  | cons e rest ih =>
    rw [List.cons_append, get?, get?, ih]
    split <;> rfl

theorem get?_map_same (keys : List κ) (value : α) (key : κ) :
    get? (keys.map (·, value)) key = if key ∈ keys then some value else none := by
  induction keys with
  | nil => rfl
  | cons first rest ih =>
    rw [List.map_cons, get?, ih]
    by_cases h : first = key
    · simp [h]
    · simp [h, Ne.symm h]

/-- An entry is found where no other has its key. -/
theorem get?_of_mem {t : Table κ α} (h : t.keys.Nodup) (hm : (key, value) ∈ t) :
    t.get? key = some value := by
  induction t with
  | nil => exact absurd hm List.not_mem_nil
  | cons e rest ih =>
    obtain ⟨he, hrest⟩ := List.nodup_cons.1 h
    rcases List.mem_cons.1 hm with rfl | hm
    · exact if_pos rfl
    · have hne : e.1 ≠ key := by
        rintro rfl
        exact he (List.mem_map.2 ⟨_, hm, rfl⟩)
      exact (if_neg hne).trans (ih hrest hm)

theorem mem_keys_iff_get? {t : Table κ α} : key ∈ t.keys ↔ ∃ value, t.get? key = some value := by
  induction t with
  | nil => simp [keys, get?]
  | cons e rest ih =>
    obtain ⟨k, v⟩ := e
    by_cases hk : k = key
    · simp [keys, get?, hk]
    · have hk' : ¬ key = k := fun he => hk he.symm
      simpa [keys, get?, hk, hk'] using ih

theorem get?_of_notMem {t : Table κ α} (h : key ∉ t.keys) : t.get? key = none :=
  Option.eq_none_iff_forall_ne_some.2 fun value hv => h (mem_keys_iff_get?.2 ⟨value, hv⟩)

theorem get?_eq_none_iff {t : Table κ α} : t.get? key = none ↔ key ∉ t.keys := by
  rw [mem_keys_iff_get?, not_exists, Option.eq_none_iff_forall_ne_some]

theorem mem_keys_merge {t u : Table κ α} (h : key ∈ t.keys ∨ key ∈ u.keys) :
    key ∈ (t.merge u).keys := by
  induction u generalizing t with
  | nil => exact h.resolve_right List.not_mem_nil
  | cons e rest ih =>
    apply ih
    rw [keys_set]
    split
    · rename_i he
      rcases h with h | h
      · exact .inl h
      · rcases List.mem_cons.1 h with rfl | h
        · exact .inl he
        · exact .inr h
    · rcases h with h | h
      · exact .inl (List.mem_append_left _ h)
      · rcases List.mem_cons.1 h with rfl | h
        · exact .inl (List.mem_append_right _ (List.mem_singleton_self _))
        · exact .inr h

/-- A key is found with its value where all pairs give it the same. -/
theorem get?_ofPairs_of_unique {pairs : List (κ × α)} (h : (key, value) ∈ pairs)
    (hunique : ∀ v, (key, v) ∈ pairs → v = value) : get? (ofPairs pairs) key = some value := by
  have hkey : key ∈ keys (ofPairs pairs) :=
    mem_keys_merge (.inr (List.mem_map.2 ⟨_, h, rfl⟩))
  obtain ⟨v, hv⟩ := mem_keys_iff_get?.1 hkey
  rw [hv, hunique v (mem_of_mem_ofPairs (mem_of_get? hv))]

theorem has_iff_mem_keys {t : Table κ α} : t.has key = true ↔ key ∈ t.keys := by
  rw [has, Option.isSome_iff_exists, mem_keys_iff_get?]

end Flowplan.Table
