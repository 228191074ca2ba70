namespace Flowplan

/-- Entries in the order in which their keys first came. -/
abbrev Table (κ α : Type) := List (κ × α)

namespace Table

variable {κ α : Type} [DecidableEq κ]

def get? (t : Table κ α) (key : κ) : Option α :=
  match t with
  | [] => none
  | (k, v) :: rest => if k = key then some v else get? rest key

def keys (t : Table κ α) : List κ := t.map (·.1)

def has (t : Table κ α) (key : κ) : Bool := (get? t key).isSome

/-- A new entry goes to the end; a known key keeps its place and takes the new value. -/
def set (t : Table κ α) (key : κ) (value : α) : Table κ α :=
  match t with
  | [] => [(key, value)]
  | (k, v) :: rest => if k = key then (k, value) :: rest else (k, v) :: set rest key value

/-- The entries of the first in their order, with the values of the second, then what the second
adds. -/
def merge (t u : Table κ α) : Table κ α := u.foldl (fun acc e => set acc e.1 e.2) t

/-- A repeated key stands at its first place with its last value. -/
def ofPairs (pairs : List (κ × α)) : Table κ α := merge [] pairs

theorem keys_set (t : Table κ α) (key : κ) (value : α) :
    (t.set key value).keys = if key ∈ t.keys then t.keys else t.keys ++ [key] := by
  induction t with
  | nil => simp [set, keys]
  | cons e rest ih =>
    obtain ⟨k, v⟩ := e
    by_cases h : k = key
    · simp [set, keys, h]
    · have h' : ¬ key = k := fun e => h e.symm
      simp only [keys] at ih
      by_cases hk : key ∈ List.map (·.1) rest <;> simp [set, keys, h, h', hk, ih]

theorem get?_set (t : Table κ α) (key other : κ) (value : α) :
    (t.set key value).get? other = if other = key then some value else t.get? other := by
  induction t with
  | nil => simp [set, get?, eq_comm]
  | cons e rest ih =>
    obtain ⟨k, v⟩ := e
    by_cases h : k = key
    · subst h
      by_cases ho : other = k <;> simp [set, get?, ho, eq_comm]
    · by_cases ho : k = other
      · subst ho; simp [set, get?, h]
      · simp [set, get?, h, ho, ih]

theorem nodup_keys_set {t : Table κ α} (h : t.keys.Nodup) (key : κ) (value : α) :
    (t.set key value).keys.Nodup := by
  rw [keys_set]
  split
  · exact h
  · rename_i hk
    refine List.nodup_append.2 ⟨h, by simp, ?_⟩
    intro a ha b hb
    rw [List.mem_singleton] at hb
    exact fun e => hk (hb ▸ e ▸ ha)

theorem nodup_keys_merge {t : Table κ α} (h : t.keys.Nodup) (u : Table κ α) :
    (t.merge u).keys.Nodup := by
  unfold merge
  induction u generalizing t with
  | nil => exact h
  | cons e rest ih => exact ih (nodup_keys_set h e.1 e.2)

theorem mem_of_get? {t : Table κ α} {key : κ} {value : α} (h : t.get? key = some value) :
    (key, value) ∈ t := by
  induction t with
  | nil => simp [get?] at h
  | cons e rest ih =>
    obtain ⟨k, v⟩ := e
    unfold get? at h
    split at h
    · rename_i hk; cases h; simp [hk]
    · exact List.mem_cons_of_mem _ (ih h)

end Table
end Flowplan
