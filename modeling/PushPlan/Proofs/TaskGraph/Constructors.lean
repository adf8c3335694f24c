import PushPlan.Proofs.Failure
import PushPlan.Proofs.Graph.Reach
import PushPlan.Proofs.Sorted
import PushPlan.TaskGraph

/-!
# PushPlan.Proofs.TaskGraph.Constructors

What the constructors of graphs and task graphs return.

A graph and a task graph carry the proof of their own consistency, so a
constructor that is given the parts of one has nothing to object to: it returns
a graph exactly when that graph has the given parts.
-/

namespace PushPlan

open Failure

/-! ## Graphs -/

namespace Graph

theorem edgeFault?_eq_none {nodes : SortedSet String} {e : Edge}
    (h : e.source ∈ nodes.toList ∧ e.target ∈ nodes.toList) : edgeFault? nodes e = none := by
  simp [edgeFault?, danglingEnd?, h.1, h.2]

/-- **Graphs**: nodes and edges make the graph that has them, if there is one. -/
theorem ofEdges_eq_ok_iff {nodes : SortedSet String} {edges : SortedSet Edge} {g : Graph} :
    ofEdges nodes edges = .ok g ↔ g.nodes = nodes ∧ g.edges = edges := by
  unfold ofEdges
  split
  · next fault hfault =>
      constructor
      · intro h
        contradiction
      · intro h
        obtain ⟨rfl, rfl⟩ := h
        obtain ⟨e, he, hfound⟩ := List.exists_of_findSome?_eq_some hfault
        rw [edgeFault?_eq_none (g.closed e he)] at hfound
        contradiction
  · constructor
    · intro h
      cases h
      exact ⟨rfl, rfl⟩
    · intro h
      obtain ⟨rfl, rfl⟩ := h
      rfl

end Graph

namespace TaskGraph

/-! ## Task graphs -/

theorem entryFault?_eq_none_of_mem {g : TaskGraph} {entry : String × Task}
    (h : entry ∈ g.tasks.toList) : entryFault? g.graph.nodes entry = none := by
  have hlabel := g.labelled entry h
  have hnode : entry.1 ∈ g.graph.nodes.toList := by
    rw [← g.keys_eq]
    exact List.mem_map_of_mem h
  simp [entryFault?, hlabel.1, hlabel.2, hnode]

theorem bareNode?_eq_none (g : TaskGraph) : bareNode? g.tasks g.graph.nodes = none := by
  refine List.find?_eq_none.2 fun n hn => ?_
  have hkey : g.tasks.contains n = true := by
    rw [Sorted.contains_iff, g.keys_eq]
    exact hn
  simp [hkey]

/-- Tasks by key and a graph make the task graph that has them, if there is one. -/
theorem ofEntries_eq_ok_iff {tasks : SortedMap String Task} {graph : Graph} {g : TaskGraph} :
    ofEntries tasks graph = .ok g ↔ g.tasks = tasks ∧ g.graph = graph := by
  unfold ofEntries
  split
  · next fault hfault =>
      constructor
      · intro h
        contradiction
      · intro h
        obtain ⟨rfl, rfl⟩ := h
        obtain ⟨entry, hentry, hfound⟩ := List.exists_of_findSome?_eq_some hfault
        rw [entryFault?_eq_none_of_mem hentry] at hfound
        contradiction
  · split
    · next node hnode =>
        constructor
        · intro h
          contradiction
        · intro h
          obtain ⟨rfl, rfl⟩ := h
          rw [bareNode?_eq_none] at hnode
          contradiction
    · constructor
      · intro h
        cases h
        exact ⟨rfl, rfl⟩
      · intro h
        obtain ⟨rfl, rfl⟩ := h
        rfl

/-- **Task graphs**: tasks by key and edges between the keys make the task graph that has them,
if there is one. -/
theorem ofKeyed_eq_ok_iff {tasks : SortedMap String Task} {edges : SortedSet Edge}
    {g : TaskGraph} : ofKeyed tasks edges = .ok g ↔ g.tasks = tasks ∧ g.graph.edges = edges := by
  rw [ofKeyed, bind_eq_ok_iff]
  constructor
  · intro h
    obtain ⟨graph, hgraph, hentries⟩ := h
    obtain ⟨htasks, rfl⟩ := ofEntries_eq_ok_iff.1 hentries
    exact ⟨htasks, (Graph.ofEdges_eq_ok_iff.1 hgraph).2⟩
  · intro h
    obtain ⟨rfl, rfl⟩ := h
    have hnodes : g.graph.nodes = keySet g.tasks := Sorted.ext g.keys_eq.symm
    exact ⟨g.graph, Graph.ofEdges_eq_ok_iff.2 ⟨hnodes, rfl⟩, ofEntries_eq_ok_iff.2 ⟨rfl, rfl⟩⟩

/-! ## Tasks in order -/

/-- The tasks in the order of the nodes are the tasks by label. -/
theorem inOrder_eq_values (g : TaskGraph) : g.inOrder = g.tasks.values := by
  have hfound : ∀ entry ∈ g.tasks.toList, g.get? entry.1 = some entry.2 := by
    intro entry hentry
    have hfind : g.tasks.find? entry.1 = some entry := Sorted.find?_eq_some_iff.2 ⟨hentry, rfl⟩
    rw [get?, SortedMap.get?, hfind, Option.map_some]
  rw [inOrder, ← g.keys_eq, Sorted.keys, SortedMap.values]
  generalize g.tasks.toList = entries at hfound
  induction entries with
  | nil => rfl
  | cons entry entries ih =>
      rw [List.map_cons, List.map_cons,
        List.filterMap_cons_some (hfound entry List.mem_cons_self),
        ih fun e he => hfound e (List.mem_cons_of_mem entry he)]

end TaskGraph

end PushPlan
