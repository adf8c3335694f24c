import PushPlan.Sorted

/-!
# PushPlan.Graph

Directed graphs over labels.

1. Both ends of every edge are nodes; cycles and loops are allowed.
2. What an edge means is the caller's convention.
3. A node is reached from a start when a path of one or more edges leads to
   it, so the start is reached only along a cycle, and a label that is no node
   reaches nothing.

Nodes, edges and all answers are in ascending order.
-/

namespace PushPlan

/-! ## Edges -/

/-- An ordered pair of labels. -/
structure Edge where
  source : String
  target : String
deriving DecidableEq

namespace Edge

/-- Edges ascend by source, then by target. -/
instance : Ord Edge := ⟨compareLex (compareOn source) (compareOn target)⟩

instance : Std.TransOrd Edge :=
  inferInstanceAs (Std.TransCmp (compareLex (compareOn source) (compareOn target)))

instance : Std.LawfulEqOrd Edge where
  compare_self := Std.ReflCmp.compare_self
  eq_of_compare {a b} h := by
    obtain ⟨hs, ht⟩ : compare a.source b.source = .eq ∧ compare a.target b.target = .eq :=
      compareLex_eq_eq.1 h
    obtain ⟨s, t⟩ := a
    obtain ⟨s', t'⟩ := b
    rw [Std.LawfulEqCmp.compare_eq_iff_eq] at hs ht
    exact congr (congrArg Edge.mk hs) ht

end Edge

/-- Which way edges are followed. -/
inductive Direction where
  /-- From source to target. -/
  | outgoing
  /-- From target to source. -/
  | incoming
deriving DecidableEq

/-- Where an edge starts when it is followed in a direction. -/
def Edge.tail (d : Direction) (e : Edge) : String :=
  match d with
  | .outgoing => e.source
  | .incoming => e.target

/-- Where an edge leads when it is followed in a direction. -/
def Edge.head (d : Direction) (e : Edge) : String :=
  match d with
  | .outgoing => e.target
  | .incoming => e.source

/-! ## Graphs -/

/-- What can be wrong with a graph of tasks. -/
inductive GraphError where
  /-- An end of an edge is no node. -/
  | unknownNode (edge : Edge) (missing : String)
  /-- A node has no task. -/
  | missingTask (node : String)
  /-- A task is no node. -/
  | orphanTask (key : String)
  /-- A task is stored under a key that is not its label. -/
  | labelMismatch (key label : String)
  /-- A label is empty. -/
  | emptyLabel
  /-- Two tasks share a label. -/
  | duplicateLabel (label : String)
deriving DecidableEq

/-- The wording of a fault. -/
def GraphError.message : GraphError → String
  | .unknownNode edge missing =>
    "Invalid graph: edge " ++ edge.source ++ " -> " ++ edge.target ++
      " references unknown node '" ++ missing ++ "'"
  | .missingTask node => "Invalid task graph: node '" ++ node ++ "' has no task"
  | .orphanTask key => "Invalid task graph: task '" ++ key ++ "' is not a node of the graph"
  | .labelMismatch key label =>
    "Invalid task graph: task labelled '" ++ label ++ "' stored under '" ++ key ++ "'"
  | .emptyLabel => "Invalid task graph: task labels must not be empty"
  | .duplicateLabel label =>
    "Invalid task graph: label '" ++ label ++ "' is used by more than one task"

/-- A set of nodes and a set of edges between them. -/
structure Graph where
  nodes : SortedSet String
  edges : SortedSet Edge
  /-- Both ends of every edge are nodes. -/
  closed : ∀ e ∈ edges.toList, e.source ∈ nodes.toList ∧ e.target ∈ nodes.toList
deriving DecidableEq

namespace Graph

/-- The end of an edge that is no node, the source before the target. -/
def danglingEnd? (nodes : SortedSet String) (e : Edge) : Option String :=
  if e.source ∉ nodes.toList then some e.source
  else if e.target ∉ nodes.toList then some e.target
  else none

/-- What is wrong with an edge over some nodes. -/
def edgeFault? (nodes : SortedSet String) (e : Edge) : Option GraphError :=
  (danglingEnd? nodes e).map (.unknownNode e)

theorem ends_mem_of_edgeFault?_eq_none {nodes : SortedSet String} {e : Edge}
    (h : edgeFault? nodes e = none) : e.source ∈ nodes.toList ∧ e.target ∈ nodes.toList := by
  unfold edgeFault? danglingEnd? at h
  grind

/-- The graph of some nodes and edges, or what is wrong with the first edge that has a fault. -/
def ofEdges (nodes : SortedSet String) (edges : SortedSet Edge) : Except GraphError Graph :=
  match h : edges.toList.findSome? (edgeFault? nodes) with
  | some fault => .error fault
  | none =>
    .ok ⟨nodes, edges, fun e he =>
      ends_mem_of_edgeFault?_eq_none (List.findSome?_eq_none_iff.1 h e he)⟩

/-- The graph of some nodes without edges. -/
def ofNodes (nodes : SortedSet String) : Graph := ⟨nodes, .empty, fun _ he => nomatch he⟩

/-! ## Neighbours -/

/-- The nodes that one edge leads to, in ascending order. -/
def neighbours (g : Graph) (d : Direction) (n : String) : List String :=
  (g.edges.toList.filter fun e => e.tail d = n).map (·.head d)

/-- Every node with its neighbours. -/
def links (g : Graph) (d : Direction) : List (String × List String) :=
  g.nodes.toList.map fun n => (n, g.neighbours d n)

/-! ## Reach -/

/-- The labels of a list that are among others. -/
def among (others l : List String) : List String := l.filter (· ∈ others)

/-- The labels of a list that are not among others. -/
def apart (others l : List String) : List String := l.filter (· ∉ others)

theorem length_among_add_length_apart (others l : List String) :
    (among others l).length + (apart others l).length = l.length := by
  induction l with
  | nil => rfl
  | cons a l ih => by_cases h : a ∈ others <;> simp [among, apart, h] at ih ⊢ <;> omega

/-- The labels of `unseen` that a walk meets which has the labels of `frontier` still to leave. -/
def explore (next : String → List String) : (frontier unseen : List String) → List String
  | [], _ => []
  | n :: frontier, unseen =>
    among (next n) unseen ++
      explore next (frontier ++ among (next n) unseen) (apart (next n) unseen)
termination_by frontier unseen => 2 * unseen.length + frontier.length
decreasing_by
  have h := length_among_add_length_apart (next n) unseen
  simp only [List.length_append, List.length_cons]
  omega

/-- The nodes that are reached from a start. -/
def reach (g : Graph) (d : Direction) (start : String) : SortedSet String :=
  let met := explore (g.neighbours d) [start] g.nodes.toList
  g.nodes.filter fun n => n ∈ met

/-- Paths of one or more edges, followed in one direction. -/
inductive Path (g : Graph) (d : Direction) : String → String → Prop
  /-- One edge is a path. -/
  | edge {e : Edge} : e ∈ g.edges.toList → Path g d (e.tail d) (e.head d)
  /-- A path may be followed by one more edge. -/
  | snoc {a : String} {e : Edge} : Path g d a (e.tail d) → e ∈ g.edges.toList →
      Path g d a (e.head d)

end Graph

end PushPlan
