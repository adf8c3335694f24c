import PushPlan.Proofs.Graph.Reach
import PushPlan.Proofs.TaskGraph.Access
import PushPlan.TaskGraph.Document

/-!
# PushPlan.Proofs.TaskGraph.Invariant

What holds of every task graph that is made, whichever way it is made.

1. Tasks by key and a graph are taken as they are; from a list, every task is
   kept once; from a document, the tasks are those of its entries and the edges
   those of their dependencies.  No task is dropped on the way.
2. The keys are the nodes, every task stands under its own label, which is not
   empty, and edges join nodes (`TaskGraph.Invariant`).
3. Hence going through the nodes meets every task once, in ascending order, and
   walking along edges never leaves the keys.
-/

namespace PushPlan

open Shape Failure

namespace TaskGraph

/-! ## The invariant -/

/-- The tasks and the graph of a task graph fit together, and so does all that is read off them. -/
structure Invariant (g : TaskGraph) : Prop where
  /-- The keys are the nodes. -/
  keys_eq : g.tasks.keys = g.graph.nodes.toList
  /-- Every task stands under its own label, which is not empty. -/
  labelled : ∀ entry ∈ g.tasks.toList, entry.2.label = entry.1 ∧ entry.1 ≠ ""
  /-- Both ends of every edge are nodes. -/
  closed : ∀ e ∈ g.graph.edges.toList,
    e.source ∈ g.graph.nodes.toList ∧ e.target ∈ g.graph.nodes.toList
  /-- Going through the nodes meets the tasks by key, one by one. -/
  inOrder_eq : g.inOrder = g.tasks.values
  /-- They are met in strictly ascending order of their labels. -/
  ascending : Ascending (g.inOrder.map (·.label))
  /-- There are as many tasks as nodes. -/
  size_eq : g.size = g.graph.nodes.size
  /-- A task is found under the nodes and under no other label. -/
  found_iff : ∀ label, (g.get? label).isSome = true ↔ label ∈ g.graph.nodes.toList
  /-- What is reached has a task. -/
  reach : ∀ d start label, label ∈ (g.graph.reach d start).toList → label ∈ g.tasks.keys
  /-- So has the end of every path. -/
  path : ∀ d start label, g.graph.Path d start label → label ∈ g.tasks.keys

/-- Fitting keys, labels and edges give the rest of the invariant. -/
theorem invariant (g : TaskGraph) : g.Invariant where
  keys_eq := g.keys_eq
  labelled := g.labelled
  closed := g.graph.closed
  inOrder_eq := g.inOrder_eq_values
  ascending := g.ascending_labels
  size_eq := g.size_eq
  found_iff := fun _ => isSome_get?_iff
  reach := by
    intro d start label h
    rw [g.keys_eq]
    exact (Graph.path_of_mem_reach h).mem_nodes
  path := by
    intro d start label h
    rw [g.keys_eq]
    exact h.mem_nodes

/-! ## Tasks from a list -/

/-- A task stored under a new label is added to the others. -/
theorem perm_values_put {tasks : SortedMap String Task} {t : Task}
    (h : tasks.contains t.label = false) :
    (tasks.put t.label t).values.Perm (t :: tasks.values) := by
  have hnew : ∀ entry ∈ tasks.toList, compare t.label entry.1 ≠ .eq := by
    intro entry hentry heq
    have hlabel : t.label = entry.1 := Std.LawfulEqCmp.eq_of_compare heq
    have hkey : tasks.contains t.label = true := by
      rw [Sorted.contains_iff, hlabel]
      exact List.mem_map_of_mem hentry
    rw [h] at hkey
    contradiction
  exact (Sorted.perm_place hnew).map Prod.snd

/-- Collecting keeps every task of the list, beside those that were there. -/
theorem perm_values_collect {tasks : List Task} {start keyed : SortedMap String Task}
    (h : collect start tasks = .ok keyed) : keyed.values.Perm (tasks ++ start.values) := by
  induction tasks generalizing start with
  | nil =>
      cases h
      exact .refl _
  | cons t tasks ih =>
      unfold collect at h
      split at h
      · contradiction
      · next hnew =>
          have hput := perm_values_put (Bool.eq_false_iff.2 hnew)
          exact (ih h).trans ((hput.append_left tasks).trans List.perm_middle)

/-! ## Constructors -/

/-- **Invariant**: whatever a constructor returns has the tasks and the edges that it was given,
and tasks, labels and edges fit together. -/
theorem invariant_of_constructors :
    (∀ tasks graph g, ofEntries tasks graph = .ok g →
      g.tasks = tasks ∧ g.graph = graph ∧ g.Invariant) ∧
    (∀ tasks edges g, ofTasks tasks edges = .ok g →
      g.inOrder.Perm tasks ∧ g.graph.edges = edges ∧ g.Invariant) ∧
    ∀ v g, ofValue v = .ok g →
      ∃ entries, map .json Entry.read v = .ok entries ∧ g.tasks = entries.mapValues Entry.task ∧
        g.graph.edges = entryEdges entries ∧ g.Invariant := by
  refine ⟨?_, ?_, ?_⟩
  · intro tasks graph g h
    obtain ⟨htasks, hgraph⟩ := ofEntries_eq_ok_iff.1 h
    exact ⟨htasks, hgraph, g.invariant⟩
  · intro tasks edges g h
    obtain ⟨keyed, hkeyed, hg⟩ := bind_eq_ok_iff.1 h
    obtain ⟨htasks, hedges⟩ := ofKeyed_eq_ok_iff.1 hg
    have hperm : g.inOrder.Perm tasks := by
      rw [inOrder_eq_values, htasks]
      simpa [SortedMap.values, Sorted.empty] using perm_values_collect hkeyed
    exact ⟨hperm, hedges, g.invariant⟩
  · intro v g h
    unfold ofValue at h
    split at h
    · contradiction
    · next entries hentries =>
        obtain ⟨htasks, hedges⟩ := ofKeyed_eq_ok_iff.1 (mapError_eq_ok_iff.1 h)
        exact ⟨entries, hentries, htasks, hedges, g.invariant⟩

/-- The invariant of two tasks on a cycle: from a list that is out of order, from its tasks by
key, and from a document in which one of them depends on itself by two names. -/
theorem invariant_of_constructors_cycle :
    ∃ g h,
      ofTasks [⟨"b", none, .empty, .null⟩, ⟨"a", none, .empty, .null⟩]
        (.ofList [⟨"b", "a"⟩, ⟨"a", "b"⟩]) = .ok g ∧
      ofEntries g.tasks g.graph = .ok g ∧
      ofValue (.record [("a", .record [("label", .text "a"),
        ("dependencies", .record [("x", .text "a"), ("y", .text "a")])])]) = .ok h ∧
      g.inOrder.map (·.label) = ["a", "b"] ∧ g.Invariant ∧ h.Invariant ∧
      g.inOrder.Perm [⟨"b", none, .empty, .null⟩, ⟨"a", none, .empty, .null⟩] := by
  obtain ⟨hkeyed, hlist, hdocument⟩ := invariant_of_constructors
  have hg : ∃ g, ofTasks [⟨"b", none, .empty, .null⟩, ⟨"a", none, .empty, .null⟩]
      (.ofList [⟨"b", "a"⟩, ⟨"a", "b"⟩]) = .ok g ∧ g.inOrder.map (·.label) = ["a", "b"] :=
    ⟨_, rfl, by decide⟩
  have hh : ∃ h, ofValue (.record [("a", .record [("label", .text "a"),
      ("dependencies", .record [("x", .text "a"), ("y", .text "a")])])]) = .ok h := ⟨_, rfl⟩
  obtain ⟨g, hg, hlabels⟩ := hg
  obtain ⟨h, hh⟩ := hh
  have hentries : ofEntries g.tasks g.graph = .ok g := ofEntries_eq_ok_iff.2 ⟨rfl, rfl⟩
  obtain ⟨_, _, _, _, hinvariant⟩ := hdocument _ h hh
  exact ⟨g, h, hg, hentries, hh, hlabels, (hkeyed _ _ g hentries).2.2, hinvariant,
    (hlist _ _ g hg).1⟩

end TaskGraph

end PushPlan
