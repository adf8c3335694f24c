import PushPlan.Proofs.TaskGraph.Collect
import PushPlan.Proofs.TaskGraph.Document

/-!
# PushPlan.Proofs.TaskGraph.Refusal

What the constructors of task graphs accept, and which of several faults they report.

1. A document is refused for its shape, else for the least edge to a dependency that
   is no key, else for the least key at fault (`DocumentFault`).  The source of an edge
   is a key by itself, so only a dependency can be missing.
2. Tasks by key over a graph, tasks from a list and documents each have a law that says
   when they are accepted, which fault is reported otherwise, and which faults they
   never have (`EntriesLaw`, `ListLaw`, `DocumentLaw`).
-/

namespace PushPlan

open Shape Failure

namespace TaskGraph

/-! ## Documents -/

/-- Every dependency is a key. -/
def DependenciesWithin (entries : SortedMap String Entry) : Prop :=
  ∀ entry ∈ entries.toList, ∀ label ∈ entry.2.dependencies.values, label ∈ entries.keys

/-- What is wrong with a document. -/
inductive DocumentFault (v : Value) : GraphReadError → Prop where
  /-- Its shape. -/
  | misshapen {e : ShapeError} (hread : map .json Entry.read v = .error e) :
      DocumentFault v (.misshapen e)
  /-- The least edge to a dependency that is no key. -/
  | unknownNode {entries : SortedMap String Entry} {e : Edge}
      (hread : map .json Entry.read v = .ok entries)
      (hleast : (entryEdges entries).Least (fun e => e.target ∉ entries.keys) e) :
      DocumentFault v (.faulty (.unknownNode e e.target))
  /-- The least key at fault, where every dependency is a key. -/
  | key {entries : SortedMap String Entry} {entry : String × Entry} {err : GraphError}
      (hread : map .json Entry.read v = .ok entries)
      (hdependencies : DependenciesWithin entries)
      (hleast : entries.Least (fun x => ¬ Labelled (x.1, x.2.task)) entry)
      (h : KeyFault entry.1 entry.2.task.label err) : DocumentFault v (.faulty err)

/-- The source of an edge is the key of the entry that it comes from. -/
theorem source_mem_keys {entries : SortedMap String Entry} {e : Edge}
    (he : e ∈ (entryEdges entries).toList) : e.source ∈ entries.keys := by
  obtain ⟨entry, hentry, hsource, _⟩ := mem_entryEdges.1 he
  rw [← hsource]
  exact List.mem_map_of_mem hentry

theorem within_entryEdges_iff {entries : SortedMap String Entry} {e : Edge}
    (he : e ∈ (entryEdges entries).toList) : e.Within entries.keys ↔ e.target ∈ entries.keys :=
  and_iff_right (source_mem_keys he)

theorem dependenciesWithin_iff {entries : SortedMap String Entry} :
    DependenciesWithin entries ↔ ∀ e ∈ (entryEdges entries).toList, e.Within entries.keys := by
  constructor
  · intro h e he
    obtain ⟨entry, hentry, _, htarget⟩ := mem_entryEdges.1 he
    exact (within_entryEdges_iff he).2 (h entry hentry _ htarget)
  · intro h entry hentry label hlabel
    exact (h ⟨entry.1, label⟩ (mem_entryEdges.2 ⟨entry, hentry, rfl, hlabel⟩)).2

/-- The edges of entries are refused for the least one to a dependency that is no key. -/
theorem edgeFault_entryEdges_iff {entries : SortedMap String Entry} {err : GraphError} :
    EdgeFault entries.keys (entryEdges entries) err ↔
      ∃ e, (entryEdges entries).Least (fun e => e.target ∉ entries.keys) e ∧
        err = .unknownNode e e.target := by
  have hleast : ∀ e, (entryEdges entries).Least (fun e => ¬ e.Within entries.keys) e ↔
      (entryEdges entries).Least (fun e => e.target ∉ entries.keys) e :=
    fun e => Sorted.Least.congr fun b hb => not_congr (within_entryEdges_iff hb)
  constructor
  · rintro ⟨h, hmissing, rfl | ⟨_, rfl⟩⟩
    · exact absurd (source_mem_keys h.mem) hmissing
    · exact ⟨_, (hleast _).1 h, rfl⟩
  · rintro ⟨e, h, rfl⟩
    exact .unknownNode ((hleast e).2 h) ⟨h.holds, .inr ⟨source_mem_keys h.mem, rfl⟩⟩

theorem labelled_mapValues_iff {entries : SortedMap String Entry} :
    (∀ entry ∈ (entries.mapValues Entry.task).toList, Labelled entry) ↔
      ∀ entry ∈ entries.toList, Labelled (entry.1, entry.2.task) := by
  rw [SortedMap.toList_mapValues]
  exact List.forall_mem_map

/-- A document is accepted when it has the shape of entries, every dependency is a key and every
task stands under its own label. -/
theorem exists_ofValue_iff {v : Value} :
    (∃ g, ofValue v = .ok g) ↔
      ∃ entries, map .json Entry.read v = .ok entries ∧ DependenciesWithin entries ∧
        ∀ entry ∈ entries.toList, Labelled (entry.1, entry.2.task) := by
  rw [ofValue]
  cases map .json Entry.read v with
  | error e => simp
  | ok entries =>
      simp only [mapError_eq_ok_iff, ofDocument, exists_ofKeyed_iff, SortedMap.keys_mapValues,
        labelled_mapValues_iff, ← dependenciesWithin_iff, Except.ok.injEq, exists_eq_left']

/-- A document is refused for its shape, else for the least edge to a dependency that is no key,
else for the least key at fault. -/
theorem ofValue_eq_error_iff {v : Value} {err : GraphReadError} :
    ofValue v = .error err ↔ DocumentFault v err := by
  rw [ofValue]
  constructor
  · intro h
    split at h
    · next e hread =>
        cases h
        exact .misshapen hread
    · next entries hread =>
        obtain ⟨fault, hfault, rfl⟩ := mapError_eq_error_iff.1 h
        rw [ofDocument, ofKeyed_eq_error_iff] at hfault
        rcases hfault with hedge | ⟨hedges, hleast, hkey⟩
        · rw [SortedMap.keys_mapValues, edgeFault_entryEdges_iff] at hedge
          obtain ⟨e, hleast, rfl⟩ := hedge
          exact .unknownNode hread hleast
        · rw [SortedMap.keys_mapValues, ← dependenciesWithin_iff] at hedges
          obtain ⟨entry, hleast, hentry⟩ := SortedMap.least_mapValues_iff.1 hleast
          rw [← hentry] at hkey
          exact .key hread hedges hleast hkey
  · rintro (hread | ⟨hread, hleast⟩ | @⟨entries, entry, _, hread, hdependencies, hleast, hkey⟩)
    · rw [hread]
    · rw [hread]
      refine mapError_eq_error_iff.2 ⟨_, ofKeyed_eq_error_iff.2 (.edge ?_), rfl⟩
      rw [SortedMap.keys_mapValues]
      exact edgeFault_entryEdges_iff.2 ⟨_, hleast, rfl⟩
    · rw [hread]
      have htask : (entries.mapValues Entry.task).Least (fun x => ¬ Labelled x)
          (entry.1, entry.2.task) := SortedMap.least_mapValues_iff.2 ⟨_, hleast, rfl⟩
      refine mapError_eq_error_iff.2 ⟨_, ofKeyed_eq_error_iff.2 (.key ?_ htask hkey), rfl⟩
      rw [SortedMap.keys_mapValues]
      exact dependenciesWithin_iff.1 hdependencies

/-- A dependency has to be a key; that it is the label of a task does not count. -/
example : ofValue (.record [("a", .record [("label", .text "b"),
    ("dependencies", .record [("x", .text "b")])])]) =
      .error (.faulty (.unknownNode ⟨"a", "b"⟩ "b")) := rfl

/-! ## Laws -/

/-- What tasks by key over a graph come to. -/
structure EntriesLaw (tasks : SortedMap String Task) (graph : Graph) : Prop where
  /-- They are accepted when the keys are the nodes and every task stands under its own label,
  which is not empty. -/
  accepted : (∃ g, ofEntries tasks graph = .ok g) ↔
    tasks.keys = graph.nodes.toList ∧ ∀ entry ∈ tasks.toList, Labelled entry
  /-- They are refused for the least key at fault, else for the least node without a task. -/
  refused : ∀ err, ofEntries tasks graph = .error err ↔ EntriesFault graph.nodes tasks err

/-- What a list of tasks and edges between their labels come to. -/
structure ListLaw (tasks : List Task) (edges : SortedSet Edge) : Prop where
  /-- They are accepted when the labels are distinct and not empty and both ends of every edge are
  labels. -/
  accepted : (∃ g, ofTasks tasks edges = .ok g) ↔
    (tasks.map Task.label).Nodup ∧ "" ∉ tasks.map Task.label ∧
      ∀ e ∈ edges.toList, e.Within (tasks.map Task.label)
  /-- In another order, the tasks make the same graph. -/
  reordered : ∀ others : List Task, others.Perm tasks → ∀ g,
    ofTasks others edges = .ok g ↔ ofTasks tasks edges = .ok g
  /-- They are refused for the first label that comes twice, else for the least edge at fault, else
  for an empty label. -/
  refused : ∀ err, ofTasks tasks edges = .error err ↔ ListFault tasks edges err
  no_missingTask : ∀ node, ofTasks tasks edges ≠ .error (.missingTask node)
  no_orphanTask : ∀ key, ofTasks tasks edges ≠ .error (.orphanTask key)
  no_labelMismatch : ∀ key label, ofTasks tasks edges ≠ .error (.labelMismatch key label)

/-- What a document comes to. -/
structure DocumentLaw (v : Value) : Prop where
  /-- It is accepted when it has the shape of entries, every dependency is a key and every key is
  the label of its task and not empty. -/
  accepted : (∃ g, ofValue v = .ok g) ↔
    ∃ entries, map .json Entry.read v = .ok entries ∧ DependenciesWithin entries ∧
      ∀ entry ∈ entries.toList, Labelled (entry.1, entry.2.task)
  /-- It is refused for its shape, else for the least edge to a dependency that is no key, else for
  the least key at fault. -/
  refused : ∀ err, ofValue v = .error err ↔ DocumentFault v err
  /-- What is missing is a dependency of an entry and not the key of that entry. -/
  missing : ∀ e label, ofValue v = .error (.faulty (.unknownNode e label)) →
    label = e.target ∧ label ≠ e.source ∧
      ∃ entries, map .json Entry.read v = .ok entries ∧
        ∃ entry ∈ entries.toList, entry.1 = e.source ∧ label ∈ entry.2.dependencies.values
  no_missingTask : ∀ node, ofValue v ≠ .error (.faulty (.missingTask node))
  no_orphanTask : ∀ key, ofValue v ≠ .error (.faulty (.orphanTask key))

theorem entriesLaw (tasks : SortedMap String Task) (graph : Graph) : EntriesLaw tasks graph where
  accepted := exists_ofEntries_iff
  refused := fun _ => ofEntries_eq_error_iff

theorem listLaw (tasks : List Task) (edges : SortedSet Edge) : ListLaw tasks edges where
  accepted := exists_ofTasks_iff
  reordered := fun _ h _ => ofTasks_eq_ok_congr h
  refused := fun _ => ofTasks_eq_error_iff
  no_missingTask := by
    intro node h
    obtain _ | ⟨_, ⟨⟩⟩ := ofTasks_eq_error_iff.1 h
  no_orphanTask := by
    intro key h
    obtain _ | ⟨_, ⟨⟩⟩ := ofTasks_eq_error_iff.1 h
  no_labelMismatch := by
    intro key label h
    obtain _ | ⟨_, ⟨⟩⟩ := ofTasks_eq_error_iff.1 h

theorem documentLaw (v : Value) : DocumentLaw v where
  accepted := exists_ofValue_iff
  refused := fun _ => ofValue_eq_error_iff
  missing := by
    intro e label h
    obtain _ | ⟨hread, hleast⟩ | ⟨_, _, _, ⟨⟩⟩ := ofValue_eq_error_iff.1 h
    obtain ⟨entry, hentry, hsource, htarget⟩ := mem_entryEdges.1 hleast.mem
    refine ⟨rfl, fun heq => hleast.holds ?_, _, hread, entry, hentry, hsource, htarget⟩
    rw [heq]
    exact source_mem_keys hleast.mem
  no_missingTask := by
    intro node h
    obtain _ | _ | ⟨_, _, _, ⟨⟩⟩ := ofValue_eq_error_iff.1 h
  no_orphanTask := by
    intro key h
    obtain _ | _ | ⟨_, _, _, ⟨⟩⟩ := ofValue_eq_error_iff.1 h

/-- **Constructors**: what each of them accepts, and for which fault it refuses the rest. -/
theorem laws_of_constructors :
    (∀ tasks graph, EntriesLaw tasks graph) ∧ (∀ tasks edges, ListLaw tasks edges) ∧
      ∀ v, DocumentLaw v :=
  ⟨entriesLaw, listLaw, documentLaw⟩

end TaskGraph

end PushPlan
