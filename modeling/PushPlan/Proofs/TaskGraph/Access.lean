import PushPlan.Proofs.TaskGraph.Constructors

/-!
# PushPlan.Proofs.TaskGraph.Access

What is found in a task graph.

* `get?_eq_some_iff`: a task is found under a label exactly when it is a task of
  the graph and the label is its own.
* `ascending_labels`: the tasks come in ascending order of their labels, hence
  each of them once.
* `mem_labelsWhere_iff`: the labels of the tasks that pass a test are those of
  the tasks found in the graph that pass it; they ascend as well, and none is lost
  when the test lets more tasks pass.
-/

namespace PushPlan.TaskGraph

variable {g : TaskGraph}

/-! ## Tasks by label -/

theorem isSome_get?_iff {label : String} :
    (g.get? label).isSome = true ↔ label ∈ g.graph.nodes.toList := by
  rw [get?, SortedMap.isSome_get?_iff, g.keys_eq]

/-- A task is found under its own label only. -/
theorem label_of_get? {label : String} {t : Task} (h : g.get? label = some t) : t.label = label :=
  (g.labelled (label, t) (SortedMap.get?_eq_some_iff.1 h)).1

/-- A task with a label makes a graph by itself. -/
theorem exists_get?_label {t : Task} (h : t.label ≠ "") :
    ∃ g : TaskGraph, g.get? t.label = some t := by
  let tasks : SortedMap String Task := ⟨[(t.label, t)], List.pairwise_singleton _ _⟩
  refine ⟨⟨tasks, .ofNodes ⟨[t.label], List.pairwise_singleton _ _⟩, rfl, ?_⟩, ?_⟩
  · simpa [tasks] using h
  · exact SortedMap.get?_eq_some_iff.2 (List.mem_singleton.2 rfl)

/-! ## Tasks in order -/

theorem mem_inOrder_iff {t : Task} : t ∈ g.inOrder ↔ g.get? t.label = some t := by
  rw [inOrder_eq_values, SortedMap.values, List.mem_map]
  constructor
  · intro h
    obtain ⟨entry, hentry, rfl⟩ := h
    have hlabel : entry.2.label = entry.1 := (g.labelled entry hentry).1
    rw [hlabel]
    exact SortedMap.get?_eq_some_iff.2 hentry
  · intro h
    exact ⟨(t.label, t), SortedMap.get?_eq_some_iff.1 h, rfl⟩

/-- The labels of the tasks, in order, are the nodes. -/
theorem map_label_inOrder (g : TaskGraph) : g.inOrder.map (·.label) = g.graph.nodes.toList := by
  rw [inOrder_eq_values, SortedMap.values, List.map_map, ← g.keys_eq, Sorted.keys]
  exact List.map_congr_left fun entry hentry => (g.labelled entry hentry).1

theorem ascending_labels (g : TaskGraph) : Ascending (g.inOrder.map (·.label)) := by
  rw [map_label_inOrder]
  exact g.graph.nodes.ascending

/-- The number of tasks is the number of nodes. -/
theorem size_eq (g : TaskGraph) : g.size = g.graph.nodes.size := by
  have hkeys : g.tasks.keys.length = g.graph.nodes.toList.length := by rw [g.keys_eq]
  rw [Sorted.keys, List.length_map] at hkeys
  exact hkeys

/-! ## Tasks that pass a test -/

theorem mem_labelsWhere_iff {p : Task → Bool} {label : String} :
    label ∈ g.labelsWhere p ↔ ∃ t, g.get? label = some t ∧ p t = true := by
  rw [labelsWhere, List.mem_map]
  constructor
  · intro h
    obtain ⟨t, ht, rfl⟩ := h
    obtain ⟨hmem, hp⟩ := List.mem_filter.1 ht
    exact ⟨t, mem_inOrder_iff.1 hmem, hp⟩
  · intro h
    obtain ⟨t, ht, hp⟩ := h
    have hlabel : t.label = label := label_of_get? ht
    rw [← hlabel] at ht
    exact ⟨t, List.mem_filter.2 ⟨mem_inOrder_iff.2 ht, hp⟩, hlabel⟩

theorem ascending_labelsWhere (g : TaskGraph) (p : Task → Bool) : Ascending (g.labelsWhere p) :=
  (g.ascending_labels).sublist (List.filter_sublist.map _)

/-- A test that lets more tasks pass gives more labels, in the same order. -/
theorem labelsWhere_sublist (g : TaskGraph) {p q : Task → Bool}
    (h : ∀ t, p t = true → q t = true) : (g.labelsWhere p).Sublist (g.labelsWhere q) := by
  have hfilter : (g.inOrder.filter q).filter p = g.inOrder.filter p := by
    rw [List.filter_filter]
    refine List.filter_congr fun t _ => ?_
    cases hp : p t with
    | false => rfl
    | true => rw [h t hp, Bool.true_and]
  rw [labelsWhere, labelsWhere, ← hfilter]
  exact List.filter_sublist.map _

end PushPlan.TaskGraph
