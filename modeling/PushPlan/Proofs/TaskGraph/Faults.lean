import PushPlan.Proofs.TaskGraph.Constructors

/-!
# PushPlan.Proofs.TaskGraph.Faults

What is accepted as a graph and as tasks by key, and which fault is reported.

1. Edges are at fault when an end is no node; the least such edge is reported, with
   its source if that is no node and its target otherwise (`EdgeFault`).
2. Of tasks by key, the least key at fault is reported; a node without a task is
   reported only where no key is at fault (`EntriesFault`).
3. Where the nodes are the keys, no task is without a node and no node without a
   task: after the edges, only labels are left to be at fault (`KeyedFault`).
-/

namespace PushPlan

open Failure

/-! ## Edges -/

/-- Both ends of an edge are nodes. -/
def Edge.Within (e : Edge) (nodes : List String) : Prop := e.source ∈ nodes ∧ e.target ∈ nodes

/-- A label is the end of an edge that is reported as no node: the target only if the source is
one. -/
def Edge.MissingEnd (e : Edge) (nodes : List String) (label : String) : Prop :=
  label ∉ nodes ∧ (label = e.source ∨ e.source ∈ nodes ∧ label = e.target)

/-- Only which nodes there are matters. -/
theorem Edge.within_congr {e : Edge} {nodes others : List String}
    (h : ∀ {label}, label ∈ nodes ↔ label ∈ others) : e.Within nodes ↔ e.Within others := by
  rw [Edge.Within, Edge.Within, h, h]

/-- What is wrong with edges over nodes. -/
inductive EdgeFault (nodes : List String) (edges : SortedSet Edge) : GraphError → Prop where
  | unknownNode {e : Edge} {label : String} (hleast : edges.Least (fun e => ¬ e.Within nodes) e)
      (hend : e.MissingEnd nodes label) : EdgeFault nodes edges (.unknownNode e label)

theorem EdgeFault.congr {nodes others : List String} {edges : SortedSet Edge} {err : GraphError}
    (h : ∀ {label}, label ∈ nodes ↔ label ∈ others) :
    EdgeFault nodes edges err ↔ EdgeFault others edges err := by
  have hleast : ∀ e, edges.Least (fun e => ¬ e.Within nodes) e ↔
      edges.Least (fun e => ¬ e.Within others) e :=
    fun e => Sorted.Least.congr fun b _ => not_congr (Edge.within_congr h)
  have hend : ∀ (e : Edge) label, e.MissingEnd nodes label ↔ e.MissingEnd others label := by
    intro e label
    rw [Edge.MissingEnd, Edge.MissingEnd, h, h]
  constructor
  · rintro ⟨hl, he⟩
    exact .unknownNode ((hleast _).1 hl) ((hend _ _).1 he)
  · rintro ⟨hl, he⟩
    exact .unknownNode ((hleast _).2 hl) ((hend _ _).2 he)

namespace Graph

theorem danglingEnd?_eq_some_iff {nodes : SortedSet String} {e : Edge} {label : String} :
    danglingEnd? nodes e = some label ↔ e.MissingEnd nodes.toList label := by
  unfold danglingEnd?
  constructor
  · intro h
    split at h
    · next hsource =>
        cases h
        exact ⟨hsource, .inl rfl⟩
    · next hsource =>
        split at h
        · next htarget =>
            cases h
            exact ⟨htarget, .inr ⟨Classical.not_not.1 hsource, rfl⟩⟩
        · contradiction
  · rintro ⟨hmissing, rfl | ⟨hsource, rfl⟩⟩
    · rw [if_pos hmissing]
    · rw [if_neg (Classical.not_not.2 hsource), if_pos hmissing]

theorem edgeFault?_eq_none_iff {nodes : SortedSet String} {e : Edge} :
    edgeFault? nodes e = none ↔ e.Within nodes.toList :=
  ⟨ends_mem_of_edgeFault?_eq_none, edgeFault?_eq_none⟩

/-- Edges over nodes are refused for the least edge at fault. -/
theorem ofEdges_eq_error_iff {nodes : SortedSet String} {edges : SortedSet Edge}
    {err : GraphError} : ofEdges nodes edges = .error err ↔ EdgeFault nodes.toList edges err := by
  have hfault : edges.toList.findSome? (edgeFault? nodes) = some err ↔
      EdgeFault nodes.toList edges err := by
    rw [Sorted.findSome?_toList_eq_some_iff]
    constructor
    · rintro ⟨e, hleast, he⟩
      obtain ⟨label, hlabel, rfl⟩ := Option.map_eq_some_iff.1 he
      refine .unknownNode ((Sorted.Least.congr fun b _ => ?_).1 hleast)
        (danglingEnd?_eq_some_iff.1 hlabel)
      rw [Option.isSome_iff_ne_none, Ne, edgeFault?_eq_none_iff]
    · rintro ⟨hleast, hend⟩
      refine ⟨_, (Sorted.Least.congr fun b _ => ?_).2 hleast,
        Option.map_eq_some_iff.2 ⟨_, danglingEnd?_eq_some_iff.2 hend, rfl⟩⟩
      rw [Option.isSome_iff_ne_none, Ne, edgeFault?_eq_none_iff]
  rw [← hfault]
  unfold ofEdges
  split
  · next fault h => rw [h, Except.error.injEq, Option.some.injEq]
  · next h => simp [h]

end Graph

namespace TaskGraph

/-! ## Tasks by key -/

/-- What is wrong with a label under a key. -/
inductive KeyFault (key label : String) : GraphError → Prop where
  | emptyLabel (h : label = "") : KeyFault key label .emptyLabel
  | labelMismatch (hlabel : label ≠ "") (hkey : key ≠ label) :
      KeyFault key label (.labelMismatch key label)

/-- What is wrong with a task under a key, given the nodes. -/
inductive EntryFault (nodes : List String) (entry : String × Task) : GraphError → Prop where
  | key {err : GraphError} (h : KeyFault entry.1 entry.2.label err) : EntryFault nodes entry err
  | orphanTask (hkey : entry.1 = entry.2.label) (hlabel : entry.2.label ≠ "")
      (hnode : entry.1 ∉ nodes) : EntryFault nodes entry (.orphanTask entry.1)

/-- A task under its own label, which is not empty. -/
def Labelled (entry : String × Task) : Prop := entry.1 = entry.2.label ∧ entry.2.label ≠ ""

/-- What is wrong with tasks by key, given the nodes. -/
inductive EntriesFault (nodes : SortedSet String) (tasks : SortedMap String Task) :
    GraphError → Prop where
  /-- The least key at fault. -/
  | entry {entry : String × Task} {err : GraphError}
      (hleast : tasks.Least (fun x => ¬ (Labelled x ∧ x.1 ∈ nodes.toList)) entry)
      (h : EntryFault nodes.toList entry err) : EntriesFault nodes tasks err
  /-- The least node without a task, where no key is at fault. -/
  | missingTask {node : String} (hentries : ∀ x ∈ tasks.toList, Labelled x ∧ x.1 ∈ nodes.toList)
      (hleast : nodes.Least (· ∉ tasks.keys) node) :
      EntriesFault nodes tasks (.missingTask node)

theorem entryFault?_eq_some_iff {nodes : SortedSet String} {entry : String × Task}
    {err : GraphError} :
    entryFault? nodes entry = some err ↔ EntryFault nodes.toList entry err := by
  unfold entryFault?
  constructor
  · intro h
    split at h
    · next hempty =>
        cases h
        exact .key (.emptyLabel hempty)
    · next hlabel =>
        split at h
        · next hkey =>
            cases h
            exact .key (.labelMismatch hlabel hkey)
        · next hkey =>
            split at h
            · next hnode =>
                cases h
                exact .orphanTask (Classical.not_not.1 hkey) hlabel hnode
            · contradiction
  · rintro (⟨hempty | ⟨hlabel, hkey⟩⟩ | ⟨hkey, hlabel, hnode⟩)
    · rw [if_pos hempty]
    · rw [if_neg hlabel, if_pos hkey]
    · rw [if_neg hlabel, if_neg (Classical.not_not.2 hkey), if_pos hnode]

theorem entryFault?_eq_none_iff {nodes : SortedSet String} {entry : String × Task} :
    entryFault? nodes entry = none ↔ Labelled entry ∧ entry.1 ∈ nodes.toList := by
  constructor
  · intro h
    obtain ⟨⟨hlabel, hkey⟩, hnode⟩ := entryFault?_eq_none h
    exact ⟨⟨hlabel.symm, hlabel ▸ hkey⟩, hnode⟩
  · rintro ⟨⟨hkey, hlabel⟩, hnode⟩
    rw [entryFault?, if_neg hlabel, if_neg (Classical.not_not.2 hkey),
      if_neg (Classical.not_not.2 hnode)]

/-- The entries are scanned before the nodes. -/
theorem ofEntries_eq_error_iff_scan {tasks : SortedMap String Task} {graph : Graph}
    {err : GraphError} :
    ofEntries tasks graph = .error err ↔
      tasks.toList.findSome? (entryFault? graph.nodes) = some err ∨
        tasks.toList.findSome? (entryFault? graph.nodes) = none ∧
          ∃ node, bareNode? tasks graph.nodes = some node ∧ err = .missingTask node := by
  unfold ofEntries
  split
  · next fault hfault => simp [hfault]
  · next hnone =>
      split
      · next node hnode => simp [hnone, hnode, eq_comm]
      · next hfull => simp [hnone, hfull]

/-- Tasks by key over a graph are refused for the least key at fault, else for the least node
without a task. -/
theorem ofEntries_eq_error_iff {tasks : SortedMap String Task} {graph : Graph}
    {err : GraphError} :
    ofEntries tasks graph = .error err ↔ EntriesFault graph.nodes tasks err := by
  have hentry : tasks.toList.findSome? (entryFault? graph.nodes) = some err ↔
      ∃ entry, tasks.Least (fun x => ¬ (Labelled x ∧ x.1 ∈ graph.nodes.toList)) entry ∧
        EntryFault graph.nodes.toList entry err := by
    rw [Sorted.findSome?_toList_eq_some_iff]
    refine exists_congr fun entry => and_congr (Sorted.Least.congr fun x _ => ?_)
      entryFault?_eq_some_iff
    rw [Option.isSome_iff_ne_none, Ne, entryFault?_eq_none_iff]
  have hsound : tasks.toList.findSome? (entryFault? graph.nodes) = none ↔
      ∀ x ∈ tasks.toList, Labelled x ∧ x.1 ∈ graph.nodes.toList := by
    rw [List.findSome?_eq_none_iff]
    exact forall₂_congr fun x _ => entryFault?_eq_none_iff
  have hbare : ∀ node, bareNode? tasks graph.nodes = some node ↔
      graph.nodes.Least (· ∉ tasks.keys) node := by
    intro node
    rw [bareNode?, Sorted.find?_toList_eq_some_iff]
    exact Sorted.Least.congr fun n _ => by simp [← Sorted.contains_iff]
  simp only [ofEntries_eq_error_iff_scan, hentry, hsound, hbare]
  constructor
  · rintro (⟨entry, hleast, h⟩ | ⟨hentries, node, hleast, rfl⟩)
    · exact .entry hleast h
    · exact .missingTask hentries hleast
  · rintro (⟨hleast, h⟩ | ⟨hentries, hleast⟩)
    · exact .inl ⟨_, hleast, h⟩
    · exact .inr ⟨hentries, _, hleast, rfl⟩

/-- Tasks by key over a graph are accepted when the keys are the nodes and every task stands
under its own label. -/
theorem exists_ofEntries_iff {tasks : SortedMap String Task} {graph : Graph} :
    (∃ g, ofEntries tasks graph = .ok g) ↔
      tasks.keys = graph.nodes.toList ∧ ∀ entry ∈ tasks.toList, Labelled entry := by
  constructor
  · rintro ⟨g, hg⟩
    obtain ⟨rfl, rfl⟩ := ofEntries_eq_ok_iff.1 hg
    refine ⟨g.keys_eq, fun entry hentry => ?_⟩
    obtain ⟨hlabel, hkey⟩ := g.labelled entry hentry
    exact ⟨hlabel.symm, hlabel ▸ hkey⟩
  · rintro ⟨hkeys, hlabelled⟩
    refine ⟨⟨tasks, graph, hkeys, fun entry hentry => ?_⟩, ofEntries_eq_ok_iff.2 ⟨rfl, rfl⟩⟩
    obtain ⟨hkey, hlabel⟩ := hlabelled entry hentry
    exact ⟨hkey.symm, hkey ▸ hlabel⟩

/-! ## Tasks by key with edges between the keys -/

/-- What is wrong with tasks by key and edges between the keys. -/
inductive KeyedFault (tasks : SortedMap String Task) (edges : SortedSet Edge) :
    GraphError → Prop where
  /-- The least edge at fault. -/
  | edge {err : GraphError} (h : EdgeFault tasks.keys edges err) : KeyedFault tasks edges err
  /-- The least key at fault, where no edge is. -/
  | key {entry : String × Task} {err : GraphError}
      (hedges : ∀ e ∈ edges.toList, e.Within tasks.keys)
      (hleast : tasks.Least (fun x => ¬ Labelled x) entry)
      (h : KeyFault entry.1 entry.2.label err) : KeyedFault tasks edges err

/-- Where the nodes are the keys, only labels can be at fault. -/
theorem entriesFault_keySet_iff {tasks : SortedMap String Task} {err : GraphError} :
    EntriesFault (keySet tasks) tasks err ↔
      ∃ entry, tasks.Least (fun x => ¬ Labelled x) entry ∧ KeyFault entry.1 entry.2.label err := by
  have hnode : ∀ x ∈ tasks.toList, x.1 ∈ (keySet tasks).toList := fun x hx => List.mem_map_of_mem hx
  have hleast : ∀ entry,
      tasks.Least (fun x => ¬ (Labelled x ∧ x.1 ∈ (keySet tasks).toList)) entry ↔
        tasks.Least (fun x => ¬ Labelled x) entry := fun entry =>
    Sorted.Least.congr fun x hx => by rw [and_iff_left (hnode x hx)]
  constructor
  · rintro (⟨h, hkey | ⟨_, _, habsent⟩⟩ | ⟨_, h⟩)
    · exact ⟨_, (hleast _).1 h, hkey⟩
    · exact absurd (hnode _ h.mem) habsent
    · exact absurd h.mem h.holds
  · rintro ⟨entry, h, hkey⟩
    exact .entry ((hleast entry).2 h) (.key hkey)

theorem ofKeyed_eq_error_iff {tasks : SortedMap String Task} {edges : SortedSet Edge}
    {err : GraphError} : ofKeyed tasks edges = .error err ↔ KeyedFault tasks edges err := by
  rw [ofKeyed, bind_eq_error_iff, Graph.ofEdges_eq_error_iff]
  constructor
  · rintro (h | ⟨graph, hgraph, h⟩)
    · exact .edge h
    · obtain ⟨hnodes, rfl⟩ := Graph.ofEdges_eq_ok_iff.1 hgraph
      rw [ofEntries_eq_error_iff, hnodes, entriesFault_keySet_iff] at h
      obtain ⟨entry, hleast, hkey⟩ := h
      have hclosed := graph.closed
      rw [hnodes] at hclosed
      exact .key hclosed hleast hkey
  · rintro (h | ⟨hedges, hleast, hkey⟩)
    · exact .inl h
    · let graph : Graph := ⟨keySet tasks, edges, hedges⟩
      refine .inr ⟨graph, Graph.ofEdges_eq_ok_iff.2 ⟨rfl, rfl⟩, ?_⟩
      exact ofEntries_eq_error_iff.2 (entriesFault_keySet_iff.2 ⟨_, hleast, hkey⟩)

theorem exists_ofKeyed_iff {tasks : SortedMap String Task} {edges : SortedSet Edge} :
    (∃ g, ofKeyed tasks edges = .ok g) ↔
      (∀ e ∈ edges.toList, e.Within tasks.keys) ∧ ∀ entry ∈ tasks.toList, Labelled entry := by
  constructor
  · rintro ⟨g, hg⟩
    obtain ⟨graph, hgraph, hentries⟩ := bind_eq_ok_iff.1 hg
    obtain ⟨hkeys, hlabelled⟩ := exists_ofEntries_iff.1 ⟨g, hentries⟩
    obtain ⟨_, rfl⟩ := Graph.ofEdges_eq_ok_iff.1 hgraph
    have hclosed := graph.closed
    rw [← hkeys] at hclosed
    exact ⟨hclosed, hlabelled⟩
  · rintro ⟨hedges, hlabelled⟩
    let graph : Graph := ⟨keySet tasks, edges, hedges⟩
    have hkeys : tasks.keys = graph.nodes.toList := rfl
    obtain ⟨g, hg⟩ := exists_ofEntries_iff.2 ⟨hkeys, hlabelled⟩
    exact ⟨g, bind_eq_ok_iff.2 ⟨graph, Graph.ofEdges_eq_ok_iff.2 ⟨rfl, rfl⟩, hg⟩⟩

end TaskGraph

end PushPlan
