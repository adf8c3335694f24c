import PushPlan.Format
import PushPlan.Task.Document
import PushPlan.TaskGraph

/-!
# PushPlan.TaskGraph.Document

Task graphs as document values:

1. a task graph is a record that maps labels to entries, an entry being the
   record of a task with one more field, `dependencies`, which may be left
   out;
2. the dependencies map names to labels; each leads to an edge from the task
   to that label, and the names count for nothing;
3. writing names every dependency after its label.

In an entry the dependencies are read before the rest.
-/

namespace PushPlan

open Shape

/-! ## Failures -/

/-- Why a task graph cannot be read. -/
inductive GraphReadError where
  /-- The file cannot be read. -/
  | unreadable (e : FileError)
  /-- The text is not JSON. -/
  | malformed
  /-- The document has another shape. -/
  | misshapen (e : ShapeError)
  /-- The tasks and edges make no task graph. -/
  | faulty (e : GraphError)
deriving DecidableEq

/-- The wording of a failure. -/
def GraphReadError.message : GraphReadError → String
  | .unreadable e => "IO error: " ++ e.message
  | .malformed => "JSON parsing error"
  | .misshapen e => "JSON parsing error: " ++ e.message
  | .faulty e => e.message

namespace TaskGraph

/-! ## Entries -/

/-- A task with what it depends on, by name. -/
structure Entry where
  task : Task
  dependencies : SortedMap String String
deriving DecidableEq

/-- Reads the dependencies of an entry with the given fields. -/
def readDependencies (fields : List (String × Value)) :
    Except ShapeError (SortedMap String String) :=
  match fields.lookup "dependencies" with
  | none => .ok .empty
  | some v => map .json (Shape.text .json) v

/-- Reads an entry. -/
def Entry.read : Reader Entry
  | .record fields => do
    let dependencies ← readDependencies fields
    let draft ← assign Task.Draft.set {} fields
    return ⟨← draft.finish (.missingField "label"), dependencies⟩
  | v => .error (.wrongSort v "struct TaskEntry")

/-- The entry as a value, its fields in ascending order. -/
def Entry.toValue (e : Entry) : Value :=
  .record
    [("attributes", e.task.attributesValue),
      ("dependencies", .record (e.dependencies.mapValues .text).toList),
      ("kind", .ofOption .text e.task.kind), ("label", .text e.task.label),
      ("task", e.task.payload)]

/-! ## Reading -/

/-- The edges that entries by label stand for. -/
def entryEdges (entries : SortedMap String Entry) : SortedSet Edge :=
  .ofList (entries.toList.flatMap fun (label, e) => e.dependencies.values.map (Edge.mk label))

/-- The task graph of entries by label. -/
def ofDocument (entries : SortedMap String Entry) : Except GraphError TaskGraph :=
  ofKeyed (entries.mapValues Entry.task) (entryEdges entries)

/-- The task graph that a value spells. -/
def ofValue (v : Value) : Except GraphReadError TaskGraph :=
  match map .json Entry.read v with
  | .error e => .error (.misshapen e)
  | .ok entries => (ofDocument entries).mapError .faulty

/-- Reads the task graph in the file that a path leads to. -/
def load [Formats] (tree : FileTree) (folder : Place) (path : String) :
    Except GraphReadError TaskGraph :=
  match tree.read folder path with
  | .error e => .error (.unreadable e)
  | .ok text =>
    match Formats.entries? .json text with
    | none => .error .malformed
    | some v => ofValue v.canonical

/-! ## Writing -/

/-- A task of the graph with what it depends on. -/
def entryOf (g : TaskGraph) (t : Task) : Entry :=
  ⟨t, .ofList ((g.graph.neighbours .outgoing t.label).map fun label => (label, label))⟩

/-- The task graph as a value, its entries in ascending order. -/
def toValue (g : TaskGraph) : Value :=
  .record (g.inOrder.map fun t => (t.label, (g.entryOf t).toValue))

end TaskGraph

end PushPlan
