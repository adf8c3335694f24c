import PushPlan.Parameters
import PushPlan.Request.Matching
import PushPlan.TaskGraph

/-!
# PushPlan.Strategy

Ways to select the tasks of a push.

1. By project: a task names the projects that it runs on; `all` stands for
   any project, `integration` and `release` for themselves and for the
   projects of their class, any other name for itself.
2. By request: the push message is read, and the request decides task by
   task.

Both look at one task at a time, and give labels in ascending order.  A strategy
of one's own may do otherwise, and fail in its own way.
-/

namespace PushPlan

/-! ## Projects -/

namespace ProjectClasses

/-- Whether a name in a task's list of projects stands for a project. -/
def standsFor (p : ProjectClasses) (name project : String) : Bool :=
  match name with
  | "all" => true
  | "integration" => project == "integration" || p.integration.contains project
  | "release" => project == "release" || p.release.contains project
  | name => name == project

/-- Whether a list of projects covers a project. -/
def covers (p : ProjectClasses) (names : List String) (project : String) : Bool :=
  names.any fun name => p.standsFor name project

/-- Whether a task runs on a project; a task without a list of projects runs on none. -/
def picks (p : ProjectClasses) (project : String) (t : Task) : Bool :=
  (t.list? "run_on_projects").any fun names => p.covers names project

end ProjectClasses

/-! ## Strategies -/

/-- A way to select tasks: the labels of those that are to run. -/
abbrev Strategy (ε : Type := Empty) :=
  TaskGraph → Parameters → Except (SelectionError ε) (List String)

namespace Strategy

variable {ε : Type}

/-- Selects the tasks that run on the project of the push. -/
def byProject (classes : ProjectClasses) : Strategy ε := fun g p => do
  let project ← p.project
  return g.labelsWhere (classes.picks project)

/-- Selects the tasks that pass a test with the request in the push message. -/
def byRequestWith (c : Conventions) (test : Request → Task → Bool) : Strategy ε := fun g p => do
  let message ← p.message
  return g.labelsWhere (test (Request.read c message).1)

/-- Selects the tasks that the request in the push message picks. -/
def byRequest (c : Conventions) : Strategy ε := byRequestWith c Request.picks

/-- Selects the same labels every time. -/
def constant (labels : List String) : Strategy ε := fun _ _ => .ok labels

/-- Selects one task of every `n`, from the first on. -/
def everyNth (n : Nat) : Strategy ε := fun g _ =>
  .ok ((g.inOrder.zipIdx.filter fun (_, i) => i % n = 0).map fun (t, _) => t.label)

/-- Selects the label that a parameter names. -/
def labelIn (name : String) : Strategy ε := fun _ p => do
  return [← p.text name]

end Strategy

end PushPlan
