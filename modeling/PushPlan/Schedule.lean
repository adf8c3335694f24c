import PushPlan.Request.Matching
import PushPlan.TaskGraph

/-!
# PushPlan.Schedule

What a request runs of a task graph: the tasks that it picks, in ascending
order of their labels, with the number of their runs.
-/

namespace PushPlan

/-- A task that is to run, and how often. -/
structure Scheduled where
  label : String
  runs : UInt32
deriving DecidableEq

/-- What a request runs of a task graph. -/
def Request.schedule (r : Request) (g : TaskGraph) : List Scheduled :=
  (g.inOrder.filter r.picks).map fun t => ⟨t.label, r.runs t⟩

/-- A scheduled task as a value. -/
def Scheduled.toValue (s : Scheduled) : Value :=
  .record [("label", .text s.label), ("runs", .int s.runs.toNat)]

end PushPlan
