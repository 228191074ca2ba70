import Flowplan.Json.Printer
import Flowplan.Schema.Check

namespace Flowplan.Schema

open Flowplan.Json

/-- Schemas by the key they were first asked for with. -/
abbrev Cache := Table String Json

/-- A schema's name if it has one, else one text for all orders of its members. -/
def cacheKey (schema : Json) (name : Option String) : String :=
  match name with
  | some n => if n.isEmpty then unnamed else n
  | none => unnamed
where
  unnamed : String := schema.sorted.print .compactAscii

namespace Cache

/-- The schema kept under a key, which is the given one where none was kept. -/
def lookUp (cache : Cache) (schema : Json) (name : Option String) : Json × Cache :=
  let key := cacheKey schema name
  match Table.get? cache key with
  | some kept => (kept, cache)
  | none => (schema, Table.set cache key schema)

/-- Every violation of the schema kept for a key. -/
def violations (cache : Cache) (schema : Json) (name : Option String) (v : Json) :
    Outcome × Cache :=
  let (kept, cache) := cache.lookUp schema name
  (Schema.violations kept v, cache)

end Cache
end Flowplan.Schema
