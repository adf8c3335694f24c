import PushPlan.Graph
import PushPlan.Task

/-!
# PushPlan.TaskGraph

All the tasks of a push with the edges between them.

1. There is exactly one task to a node, stored under its own label, and no
   label is empty.
2. A task graph is made from tasks by key and a graph, or from a list of tasks
   and edges between their labels.
3. Of several faults, one is reported: of tasks by key, the one at the first
   key, and a node without a task only if no key is at fault; of a list, a
   label used twice before an edge to nowhere before an empty label.
-/

namespace PushPlan

/-- A graph with a task at every node. -/
structure TaskGraph where
  /-- The tasks by label. -/
  tasks : SortedMap String Task
  /-- The labels and the edges between them. -/
  graph : Graph
  /-- The keys are the nodes. -/
  keys_eq : tasks.keys = graph.nodes.toList
  /-- Every task stands under its own label, which is not empty. -/
  labelled : ∀ entry ∈ tasks.toList, entry.2.label = entry.1 ∧ entry.1 ≠ ""
deriving DecidableEq

namespace TaskGraph

/-! ## From tasks by key -/

/-- What is wrong with a task under a key, given the nodes. -/
def entryFault? (nodes : SortedSet String) (entry : String × Task) : Option GraphError :=
  if entry.2.label = "" then some .emptyLabel
  else if entry.1 ≠ entry.2.label then some (.labelMismatch entry.1 entry.2.label)
  else if entry.1 ∉ nodes.toList then some (.orphanTask entry.1)
  else none

/-- An entry without a fault stands under its own label, which is not empty and is a node. -/
theorem entryFault?_eq_none {nodes : SortedSet String} {entry : String × Task}
    (h : entryFault? nodes entry = none) :
    (entry.2.label = entry.1 ∧ entry.1 ≠ "") ∧ entry.1 ∈ nodes.toList := by
  unfold entryFault? at h
  grind

/-- The first node without a task. -/
def bareNode? (tasks : SortedMap String Task) (nodes : SortedSet String) : Option String :=
  nodes.toList.find? fun n => !tasks.contains n

/-- Where every entry is good and every node has a task, the keys are the nodes. -/
theorem keys_eq_of_faultless {tasks : SortedMap String Task} {nodes : SortedSet String}
    (h : tasks.toList.findSome? (entryFault? nodes) = none) (hn : bareNode? tasks nodes = none) :
    tasks.keys = nodes.toList := by
  refine Sorted.eq_of_mem_iff Sorted.pairwise_keys nodes.ascending fun k => ⟨fun hk => ?_, ?_⟩
  · obtain ⟨entry, he, rfl⟩ := List.mem_map.1 hk
    exact (entryFault?_eq_none (List.findSome?_eq_none_iff.1 h entry he)).2
  · intro hk
    have := List.find?_eq_none.1 hn k hk
    simpa [Sorted.contains_iff] using this

/-- Where every entry is good, every task stands under its own label. -/
theorem labelled_of_faultless {tasks : SortedMap String Task} {nodes : SortedSet String}
    (h : tasks.toList.findSome? (entryFault? nodes) = none) :
    ∀ entry ∈ tasks.toList, entry.2.label = entry.1 ∧ entry.1 ≠ "" :=
  fun entry he => (entryFault?_eq_none (List.findSome?_eq_none_iff.1 h entry he)).1

/-- The task graph of tasks by key over a graph, or what is wrong with it. -/
def ofEntries (tasks : SortedMap String Task) (graph : Graph) : Except GraphError TaskGraph :=
  match h : tasks.toList.findSome? (entryFault? graph.nodes) with
  | some fault => .error fault
  | none =>
    match hn : bareNode? tasks graph.nodes with
    | some node => .error (.missingTask node)
    | none =>
      .ok ⟨tasks, graph, keys_eq_of_faultless h hn, labelled_of_faultless h⟩

/-! ## From a list of tasks -/

/-- Stores tasks by label, up to the first label that is there already. -/
def collect (tasks : SortedMap String Task) : List Task → Except GraphError (SortedMap String Task)
  | [] => .ok tasks
  | t :: ts =>
    if tasks.contains t.label then .error (.duplicateLabel t.label)
    else collect (tasks.put t.label t) ts

/-- The set of a map's keys. -/
def keySet {α : Type} (m : SortedMap String α) : SortedSet String :=
  ⟨m.keys, Sorted.pairwise_keys⟩

/-- The task graph of tasks by key and edges between the keys. -/
def ofKeyed (tasks : SortedMap String Task) (edges : SortedSet Edge) :
    Except GraphError TaskGraph := do
  let graph ← Graph.ofEdges (keySet tasks) edges
  ofEntries tasks graph

/-- The task graph of a list of tasks and edges between their labels. -/
def ofTasks (tasks : List Task) (edges : SortedSet Edge) : Except GraphError TaskGraph := do
  let keyed ← collect .empty tasks
  ofKeyed keyed edges

/-! ## Access -/

/-- The task of a label. -/
def get? (g : TaskGraph) (label : String) : Option Task := g.tasks.get? label

/-- The tasks in the order of the nodes. -/
def inOrder (g : TaskGraph) : List Task := g.graph.nodes.toList.filterMap g.get?

/-- The number of tasks. -/
def size (g : TaskGraph) : Nat := g.tasks.size

/-- Whether there are no tasks. -/
def isEmpty (g : TaskGraph) : Bool := g.size == 0

/-- The labels of the tasks that satisfy a test, in order. -/
def labelsWhere (g : TaskGraph) (p : Task → Bool) : List String :=
  (g.inOrder.filter p).map (·.label)

end TaskGraph

end PushPlan
