import Flowplan.Proofs.FlawPositions
import Flowplan.Proofs.FlawReports

/-!
What is reported of a document is what the direct way through it finds: at a step, what is wrong
with it as a step of the type that it states.
-/

namespace Flowplan.Plan
set_option autoImplicit true

open Flowplan.Json Flowplan.Schema

end Flowplan.Plan
