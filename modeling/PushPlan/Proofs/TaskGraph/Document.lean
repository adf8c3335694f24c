import PushPlan.Proofs.Task.Document
import PushPlan.Proofs.TaskGraph.Constructors
import PushPlan.TaskGraph.Document

/-!
# PushPlan.Proofs.TaskGraph.Document

Task graphs written to document values and read back.

1. Of the names of dependencies nothing is kept: an entry is written *plain*,
   each dependency under the name of its label, and a graph is made from entries
   exactly when its own entries are these, made plain (`ofDocument_eq_ok_iff`).
2. The entries of a graph are plain already.  Hence reading undoes writing.
-/

namespace PushPlan

open Shape Failure

/-! ## Maps of labels to themselves -/

namespace TaskGraph

/-- The labels of a list, each under its own name. -/
def identityOn (labels : List String) : SortedMap String String :=
  .ofList (labels.map fun label => (label, label))

theorem mem_identityOn {labels : List String} {entry : String × String} :
    entry ∈ (identityOn labels).toList ↔ ∃ label ∈ labels, (label, label) = entry := by
  rw [identityOn, Sorted.mem_ofList_of_inj, List.mem_map]
  intro a ha b hb hkey
  obtain ⟨x, _, rfl⟩ := List.mem_map.1 ha
  obtain ⟨y, _, rfl⟩ := List.mem_map.1 hb
  cases hkey
  rfl

theorem mem_values_identityOn {labels : List String} {label : String} :
    label ∈ (identityOn labels).values ↔ label ∈ labels := by
  rw [SortedMap.values, List.mem_map]
  constructor
  · intro h
    obtain ⟨entry, hentry, rfl⟩ := h
    obtain ⟨l, hl, rfl⟩ := mem_identityOn.1 hentry
    exact hl
  · intro h
    exact ⟨(label, label), mem_identityOn.2 ⟨label, h, rfl⟩, rfl⟩

/-- Only which labels a list holds matters. -/
theorem identityOn_congr {l m : List String} (h : ∀ label, label ∈ l ↔ label ∈ m) :
    identityOn l = identityOn m := by
  refine Sorted.ext_mem fun entry => ?_
  simp only [mem_identityOn, h]

/-! ## Entries -/

namespace Entry

/-- The entry with every dependency named after its label. -/
def plain (e : Entry) : Entry := ⟨e.task, identityOn e.dependencies.values⟩

/-- An entry is read from fields without repetitions that spell its task and hold its
dependencies. -/
theorem read_record_iff {fs : List (String × Value)} (hn : (fs.map Prod.fst).Nodup) {e : Entry} :
    read (.record fs) = .ok e ↔
      Task.Spelled fs e.task ∧
        map .json (text .json) ((fs.lookup "dependencies").getD (.record [])) =
          .ok e.dependencies := by
  have hdependencies : readDependencies fs =
      map .json (text .json) ((fs.lookup "dependencies").getD (.record [])) := by
    unfold readDependencies
    cases fs.lookup "dependencies" <;> rfl
  constructor
  · intro h
    obtain ⟨deps, hdeps, hrest⟩ := bind_eq_ok_iff.1 h
    obtain ⟨draft, hdraft, hlast⟩ := bind_eq_ok_iff.1 hrest
    obtain ⟨t, ht, he⟩ := bind_eq_ok_iff.1 hlast
    cases he
    exact ⟨(Task.Draft.finish_assign_iff hn).1 (bind_eq_ok_iff.2 ⟨draft, hdraft, ht⟩),
      hdependencies ▸ hdeps⟩
  · intro h
    obtain ⟨draft, hdraft, ht⟩ := bind_eq_ok_iff.1
      ((Task.Draft.finish_assign_iff hn (e := .missingField "label")).2 h.1)
    refine bind_eq_ok_iff.2 ⟨e.dependencies, hdependencies ▸ h.2, ?_⟩
    refine bind_eq_ok_iff.2 ⟨draft, hdraft, ?_⟩
    exact bind_eq_ok_iff.2 ⟨e.task, ht, rfl⟩

theorem read_toValue (e : Entry) : read e.toValue = .ok e := by
  refine (read_record_iff (by simp)).2 ⟨?_, ?_⟩
  · exact
      { label := rfl
        kind := rfl
        attributes := map_record .json (fun a => (Attribute.read_eq_ok_iff _ a).2 rfl) _
        payload := rfl }
  · exact map_record .json (fun s => text_eq_ok_iff.2 rfl) e.dependencies

end Entry

/-! ## The entries of a graph -/

/-- Each task of the graph with what it depends on. -/
def entries (g : TaskGraph) : SortedMap String Entry := g.tasks.mapValues g.entryOf

/-- A task graph is written as its entries. -/
theorem toValue_eq (g : TaskGraph) :
    g.toValue = .record (g.entries.mapValues Entry.toValue).toList := by
  rw [toValue, inOrder_eq_values, SortedMap.values, List.map_map, entries,
    SortedMap.toList_mapValues, SortedMap.toList_mapValues, List.map_map]
  congr 1
  refine List.map_congr_left fun entry hentry => ?_
  simp [(g.labelled entry hentry).1]

/-- An edge comes from an entry that has its target as a dependency. -/
theorem mem_entryEdges {entries : SortedMap String Entry} {edge : Edge} :
    edge ∈ (entryEdges entries).toList ↔
      ∃ entry ∈ entries.toList, entry.1 = edge.source ∧
        edge.target ∈ entry.2.dependencies.values := by
  rw [entryEdges, SortedSet.mem_ofList, List.mem_flatMap]
  constructor
  · intro h
    obtain ⟨entry, hentry, hedge⟩ := h
    obtain ⟨target, htarget, rfl⟩ := List.mem_map.1 hedge
    exact ⟨entry, hentry, rfl, htarget⟩
  · intro h
    obtain ⟨entry, hentry, hsource, htarget⟩ := h
    exact ⟨entry, hentry, List.mem_map.2 ⟨edge.target, htarget, by rw [hsource]⟩⟩

/-- An entry of a graph has the neighbours of its node as dependencies. -/
theorem mem_dependencies_entryOf {g : TaskGraph} {t : Task} {label : String} :
    label ∈ (g.entryOf t).dependencies.values ↔ Edge.mk t.label label ∈ g.graph.edges.toList := by
  rw [← Graph.mem_neighbours_outgoing]
  exact mem_values_identityOn

theorem entryEdges_plain (entries : SortedMap String Entry) :
    entryEdges (entries.mapValues Entry.plain) = entryEdges entries := by
  refine Sorted.ext_mem fun edge => ?_
  rw [mem_entryEdges, mem_entryEdges, SortedMap.toList_mapValues]
  simp only [List.mem_map, Entry.plain]
  constructor
  · intro h
    obtain ⟨_, ⟨entry, hentry, rfl⟩, hsource, htarget⟩ := h
    exact ⟨entry, hentry, hsource, mem_values_identityOn.1 htarget⟩
  · intro h
    obtain ⟨entry, hentry, hsource, htarget⟩ := h
    exact ⟨_, ⟨entry, hentry, rfl⟩, hsource, mem_values_identityOn.2 htarget⟩

/-- The entries of a graph have its edges. -/
theorem entryEdges_entries (g : TaskGraph) : entryEdges g.entries = g.graph.edges := by
  refine Sorted.ext_mem fun edge => ?_
  rw [mem_entryEdges, entries, SortedMap.toList_mapValues]
  simp only [List.mem_map]
  constructor
  · intro h
    obtain ⟨_, ⟨entry, hentry, rfl⟩, hsource, htarget⟩ := h
    have hlabel : entry.2.label = edge.source := (g.labelled entry hentry).1.trans hsource
    rw [mem_dependencies_entryOf, hlabel] at htarget
    exact htarget
  · intro h
    have hkey : edge.source ∈ g.tasks.keys := by
      rw [g.keys_eq]
      exact (g.graph.closed edge h).1
    obtain ⟨entry, hentry, hsource⟩ := List.mem_map.1 hkey
    have hlabel : entry.2.label = edge.source := (g.labelled entry hentry).1.trans hsource
    refine ⟨_, ⟨entry, hentry, rfl⟩, hsource, ?_⟩
    rw [mem_dependencies_entryOf, hlabel]
    exact h

/-- **Entries**: they make the graph whose own entries they are, once made plain. -/
theorem ofDocument_eq_ok_iff {entries : SortedMap String Entry} {g : TaskGraph} :
    ofDocument entries = .ok g ↔ entries.mapValues Entry.plain = g.entries := by
  rw [ofDocument, ofKeyed_eq_ok_iff]
  constructor
  · intro h
    obtain ⟨htasks, hedges⟩ := h
    apply Sorted.ext
    rw [TaskGraph.entries, htasks]
    simp only [SortedMap.toList_mapValues, List.map_map]
    refine List.map_congr_left fun entry hentry => ?_
    have hmem : (entry.1, entry.2.task) ∈ g.tasks.toList := by
      rw [htasks, SortedMap.toList_mapValues]
      exact List.mem_map.2 ⟨entry, hentry, rfl⟩
    have hlabel : entry.2.task.label = entry.1 := (g.labelled _ hmem).1
    refine congrArg (fun deps => (entry.1, Entry.mk entry.2.task deps)) (identityOn_congr ?_)
    intro label
    rw [Graph.mem_neighbours_outgoing, hedges, mem_entryEdges, hlabel]
    -- An edge from this label can only come from this entry: there is no other of its key.
    constructor
    · intro h
      exact ⟨entry, hentry, rfl, h⟩
    · intro h
      obtain ⟨other, hother, hkey, h⟩ := h
      rw [Sorted.eq_of_mem_of_key_eq hother hentry hkey] at h
      exact h
  · intro h
    have htasks : (entries.mapValues Entry.plain).mapValues Entry.task =
        g.entries.mapValues Entry.task := by rw [h]
    rw [SortedMap.mapValues_mapValues, TaskGraph.entries, SortedMap.mapValues_mapValues] at htasks
    constructor
    · exact (SortedMap.mapValues_self g.tasks).symm.trans htasks.symm
    · rw [← entryEdges_entries, ← h, entryEdges_plain]

theorem plain_entries (g : TaskGraph) : g.entries.mapValues Entry.plain = g.entries := by
  rw [entries, SortedMap.mapValues_mapValues]
  apply Sorted.ext
  rw [SortedMap.toList_mapValues, SortedMap.toList_mapValues]
  refine List.map_congr_left fun entry _ => ?_
  refine congrArg (fun deps => (entry.1, Entry.mk entry.2 deps)) (identityOn_congr ?_)
  exact fun label => mem_values_identityOn

/-- **Round trip**: reading undoes writing. -/
theorem ofValue_toValue (g : TaskGraph) : ofValue g.toValue = .ok g := by
  have hread : map .json Entry.read g.toValue = .ok g.entries := by
    rw [toValue_eq]
    exact map_record .json Entry.read_toValue g.entries
  have hgraph : ofDocument g.entries = .ok g := ofDocument_eq_ok_iff.2 (plain_entries g)
  rw [ofValue, hread]
  exact mapError_eq_ok_iff.2 hgraph

end TaskGraph

end PushPlan
