import PushPlan.Proofs.TaskGraph.Faults
import PushPlan.Proofs.TaskGraph.Invariant

/-!
# PushPlan.Proofs.TaskGraph.Collect

Task graphs from lists of tasks.

1. Tasks are collected by label, up to the first label that is there already; so
   collecting succeeds when no label comes twice (`exists_collect_iff`).
2. What is collected is every task under its own label.  It depends on which tasks
   there are and not on their order (`ofTasks_eq_ok_iff`).
3. Of several faults the first is a label that comes twice, the next an edge to
   nowhere and the last an empty label (`ListFault`).  No task is without a node, no
   node without a task and no task under another key than its label.
-/

namespace PushPlan

open Failure

namespace TaskGraph

/-! ## Collecting -/

theorem collect_append {start : SortedMap String Task} {tasks others : List Task} :
    collect start (tasks ++ others) =
      collect start tasks >>= fun keyed => collect keyed others := by
  induction tasks generalizing start with
  | nil => rfl
  | cons t tasks ih =>
      rw [List.cons_append, collect, collect]
      split
      · rfl
      · exact ih

/-- Tasks are collected when their labels are distinct and new. -/
theorem exists_collect_iff {start : SortedMap String Task} {tasks : List Task} :
    (∃ keyed, collect start tasks = .ok keyed) ↔
      (tasks.map Task.label).Nodup ∧ ∀ t ∈ tasks, t.label ∉ start.keys := by
  induction tasks generalizing start with
  | nil => simp [collect]
  | cons t tasks ih =>
      rw [collect]
      split
      · next hold =>
          simp [Sorted.contains_iff.1 hold]
      · next hnew =>
          rw [Sorted.contains_iff] at hnew
          rw [ih]
          simp only [SortedMap.mem_keys_put, List.map_cons, List.nodup_cons, List.mem_map,
            List.forall_mem_cons]
          grind

/-- Collecting fails at the first task with a label that is there already. -/
theorem collect_eq_error_iff {start : SortedMap String Task} {tasks : List Task}
    {err : GraphError} :
    collect start tasks = .error err ↔
      ∃ before t after keyed, tasks = before ++ t :: after ∧ collect start before = .ok keyed ∧
        t.label ∈ keyed.keys ∧ err = .duplicateLabel t.label := by
  constructor
  · intro h
    induction tasks generalizing start with
    | nil => contradiction
    | cons t tasks ih =>
        rw [collect] at h
        split at h
        · next hold =>
            cases h
            exact ⟨[], t, tasks, start, rfl, rfl, Sorted.contains_iff.1 hold, rfl⟩
        · next hnew =>
            obtain ⟨before, u, after, keyed, rfl, hbefore, hold, rfl⟩ := ih h
            refine ⟨t :: before, u, after, keyed, rfl, ?_, hold, rfl⟩
            rw [collect, if_neg hnew, hbefore]
  · rintro ⟨before, t, after, keyed, rfl, hbefore, hold, rfl⟩
    rw [collect_append, bind_eq_error_iff]
    refine .inr ⟨keyed, hbefore, ?_⟩
    rw [collect, if_pos (Sorted.contains_iff.2 hold)]

/-- Every task stands under its own label. -/
def StoredByLabel (tasks : SortedMap String Task) : Prop :=
  ∀ entry ∈ tasks.toList, entry.1 = entry.2.label

theorem storedByLabel_of_collect {start keyed : SortedMap String Task} {tasks : List Task}
    (hstart : StoredByLabel start) (h : collect start tasks = .ok keyed) :
    StoredByLabel keyed := by
  induction tasks generalizing start with
  | nil =>
      cases h
      exact hstart
  | cons t tasks ih =>
      rw [collect] at h
      split at h
      · contradiction
      · refine ih (fun entry hentry => ?_) h
        rcases Sorted.mem_of_mem_place hentry with rfl | hold
        · rfl
        · exact hstart entry hold

theorem StoredByLabel.mem_iff {tasks : SortedMap String Task} (h : StoredByLabel tasks)
    {entry : String × Task} :
    entry ∈ tasks.toList ↔ entry.1 = entry.2.label ∧ entry.2 ∈ tasks.values := by
  constructor
  · intro hentry
    exact ⟨h entry hentry, List.mem_map_of_mem hentry⟩
  · rintro ⟨hkey, hvalue⟩
    obtain ⟨other, hother, htask⟩ := List.mem_map.1 hvalue
    have hsame : other = entry := by
      refine Prod.ext ?_ htask
      rw [h other hother, htask, hkey]
    exact hsame ▸ hother

theorem StoredByLabel.keys_eq {tasks : SortedMap String Task} (h : StoredByLabel tasks) :
    tasks.keys = tasks.values.map Task.label := by
  rw [Sorted.keys, SortedMap.values, List.map_map]
  exact List.map_congr_left h

/-- The tasks of a list in whatever order, each under its own label. -/
structure Collected (tasks : List Task) (keyed : SortedMap String Task) : Prop where
  stored : StoredByLabel keyed
  values : keyed.values.Perm tasks

theorem collected_of_collect {tasks : List Task} {keyed : SortedMap String Task}
    (h : collect .empty tasks = .ok keyed) : Collected tasks keyed where
  stored := storedByLabel_of_collect (fun entry hentry => absurd hentry List.not_mem_nil) h
  values := by simpa [SortedMap.values, Sorted.empty] using perm_values_collect h

theorem exists_collect_empty_iff {tasks : List Task} :
    (∃ keyed, collect .empty tasks = .ok keyed) ↔ (tasks.map Task.label).Nodup := by
  rw [exists_collect_iff, and_iff_left]
  exact fun t _ => List.not_mem_nil

/-- **Collecting**: what is collected are the tasks of the list, each under its own label. -/
theorem collect_empty_eq_ok_iff {tasks : List Task} {keyed : SortedMap String Task} :
    collect .empty tasks = .ok keyed ↔ Collected tasks keyed := by
  refine ⟨collected_of_collect, fun h => ?_⟩
  have hnodup : (tasks.map Task.label).Nodup := by
    rw [← (h.values.map Task.label).nodup_iff, ← h.stored.keys_eq]
    exact Sorted.nodup_of_ascending Sorted.pairwise_keys
  obtain ⟨m, hm⟩ := exists_collect_empty_iff.2 hnodup
  have hcollected := collected_of_collect hm
  have hsame : m = keyed := by
    refine Sorted.ext_mem fun entry => ?_
    rw [hcollected.stored.mem_iff, h.stored.mem_iff,
      (hcollected.values.trans h.values.symm).mem_iff]
  exact hsame ▸ hm

/-! ## What is collected -/

namespace Collected

variable {tasks : List Task} {keyed : SortedMap String Task}

/-- The keys are the labels of the list. -/
theorem mem_keys_iff (h : Collected tasks keyed) {label : String} :
    label ∈ keyed.keys ↔ label ∈ tasks.map Task.label := by
  rw [h.stored.keys_eq]
  exact (h.values.map Task.label).mem_iff

theorem within_iff (h : Collected tasks keyed) {edges : SortedSet Edge} :
    (∀ e ∈ edges.toList, e.Within keyed.keys) ↔
      ∀ e ∈ edges.toList, e.Within (tasks.map Task.label) :=
  forall₂_congr fun _ _ => Edge.within_congr h.mem_keys_iff

/-- Only an empty label is at fault. -/
theorem not_labelled_iff (h : Collected tasks keyed) {entry : String × Task}
    (hentry : entry ∈ keyed.toList) : ¬ Labelled entry ↔ entry.1 = "" := by
  rw [Labelled, ← h.stored entry hentry]
  simp

theorem labelled_iff (h : Collected tasks keyed) :
    (∀ entry ∈ keyed.toList, Labelled entry) ↔ "" ∉ tasks.map Task.label := by
  rw [← h.mem_keys_iff, Sorted.keys, List.mem_map]
  constructor
  · rintro hlabelled ⟨entry, hentry, hempty⟩
    exact (h.not_labelled_iff hentry).2 hempty (hlabelled entry hentry)
  · intro hempty entry hentry
    refine Classical.not_not.1 fun hfault => hempty ⟨entry, hentry, ?_⟩
    exact (h.not_labelled_iff hentry).1 hfault

/-- There is only one task under the empty label, so it is the least one at fault. -/
theorem keyFault_iff (h : Collected tasks keyed) {err : GraphError} :
    (∃ entry, keyed.Least (fun x => ¬ Labelled x) entry ∧ KeyFault entry.1 entry.2.label err) ↔
      "" ∈ tasks.map Task.label ∧ err = .emptyLabel := by
  rw [← h.mem_keys_iff]
  constructor
  · rintro ⟨entry, hleast, ⟨hempty⟩ | ⟨_, hkey⟩⟩
    · rw [← hempty, ← h.stored entry hleast.mem]
      exact ⟨List.mem_map_of_mem hleast.mem, rfl⟩
    · exact absurd (h.stored entry hleast.mem) hkey
  · rintro ⟨hkey, rfl⟩
    obtain ⟨entry, hentry, hempty⟩ := List.mem_map.1 hkey
    refine ⟨entry, ⟨hentry, (h.not_labelled_iff hentry).2 hempty, fun b hb hfault => ?_⟩,
      .emptyLabel ((h.stored entry hentry).symm.trans hempty)⟩
    have hsame : b.1 = entry.1 := ((h.not_labelled_iff hb).1 hfault).trans hempty.symm
    exact .inl (Sorted.eq_of_mem_of_key_eq hb hentry hsame)

end Collected

/-! ## Task graphs -/

/-- **Lists**: tasks and edges make the task graph that has them, if there is one, in whatever
order the tasks come. -/
theorem ofTasks_eq_ok_iff {tasks : List Task} {edges : SortedSet Edge} {g : TaskGraph} :
    ofTasks tasks edges = .ok g ↔ g.inOrder.Perm tasks ∧ g.graph.edges = edges := by
  rw [ofTasks, bind_eq_ok_iff, inOrder_eq_values]
  simp only [collect_empty_eq_ok_iff, ofKeyed_eq_ok_iff]
  constructor
  · rintro ⟨_, hcollected, rfl, hedges⟩
    exact ⟨hcollected.values, hedges⟩
  · rintro ⟨hvalues, hedges⟩
    have hstored : StoredByLabel g.tasks := fun entry hentry => (g.labelled entry hentry).1.symm
    exact ⟨g.tasks, ⟨hstored, hvalues⟩, rfl, hedges⟩

/-- The order of the list counts for nothing. -/
theorem ofTasks_eq_ok_congr {tasks others : List Task} (h : others.Perm tasks)
    {edges : SortedSet Edge} {g : TaskGraph} :
    ofTasks others edges = .ok g ↔ ofTasks tasks edges = .ok g := by
  rw [ofTasks_eq_ok_iff, ofTasks_eq_ok_iff]
  exact and_congr_left fun _ => ⟨fun hg => hg.trans h, fun hg => hg.trans h.symm⟩

/-- A list is accepted when its labels are distinct and not empty and the edges lie within them. -/
theorem exists_ofTasks_iff {tasks : List Task} {edges : SortedSet Edge} :
    (∃ g, ofTasks tasks edges = .ok g) ↔
      (tasks.map Task.label).Nodup ∧ "" ∉ tasks.map Task.label ∧
        ∀ e ∈ edges.toList, e.Within (tasks.map Task.label) := by
  constructor
  · rintro ⟨g, hg⟩
    obtain ⟨keyed, hkeyed, hg⟩ := bind_eq_ok_iff.1 hg
    have hcollected := collected_of_collect hkeyed
    obtain ⟨hedges, hlabelled⟩ := exists_ofKeyed_iff.1 ⟨g, hg⟩
    exact ⟨exists_collect_empty_iff.1 ⟨keyed, hkeyed⟩, hcollected.labelled_iff.1 hlabelled,
      hcollected.within_iff.1 hedges⟩
  · rintro ⟨hnodup, hempty, hedges⟩
    obtain ⟨keyed, hkeyed⟩ := exists_collect_empty_iff.2 hnodup
    have hcollected := collected_of_collect hkeyed
    obtain ⟨g, hg⟩ := exists_ofKeyed_iff.2
      ⟨hcollected.within_iff.2 hedges, hcollected.labelled_iff.2 hempty⟩
    exact ⟨g, bind_eq_ok_iff.2 ⟨keyed, hkeyed, hg⟩⟩

/-! ## Faults -/

/-- What is wrong with a list of tasks and edges between their labels. -/
inductive ListFault (tasks : List Task) (edges : SortedSet Edge) : GraphError → Prop where
  /-- The first label that comes a second time. -/
  | duplicateLabel {before after : List Task} {t : Task} (htasks : tasks = before ++ t :: after)
      (hnodup : (before.map Task.label).Nodup) (hlabel : t.label ∈ before.map Task.label) :
      ListFault tasks edges (.duplicateLabel t.label)
  /-- The least edge at fault, where no label comes twice. -/
  | edge {err : GraphError} (hnodup : (tasks.map Task.label).Nodup)
      (h : EdgeFault (tasks.map Task.label) edges err) : ListFault tasks edges err
  /-- An empty label, where no label comes twice and no edge is at fault. -/
  | emptyLabel (hnodup : (tasks.map Task.label).Nodup)
      (hedges : ∀ e ∈ edges.toList, e.Within (tasks.map Task.label))
      (hempty : "" ∈ tasks.map Task.label) : ListFault tasks edges .emptyLabel

/-- Collecting a list fails at the first label that comes a second time. -/
theorem collect_empty_eq_error_iff {tasks : List Task} {err : GraphError} :
    collect .empty tasks = .error err ↔
      ∃ before t after, tasks = before ++ t :: after ∧ (before.map Task.label).Nodup ∧
        t.label ∈ before.map Task.label ∧ err = .duplicateLabel t.label := by
  rw [collect_eq_error_iff]
  refine exists_congr fun before => exists_congr fun t => exists_congr fun after => ?_
  rw [← exists_collect_empty_iff]
  constructor
  · rintro ⟨keyed, htasks, hkeyed, hlabel, herr⟩
    rw [(collected_of_collect hkeyed).mem_keys_iff] at hlabel
    exact ⟨htasks, ⟨keyed, hkeyed⟩, hlabel, herr⟩
  · rintro ⟨htasks, ⟨keyed, hkeyed⟩, hlabel, herr⟩
    rw [← (collected_of_collect hkeyed).mem_keys_iff] at hlabel
    exact ⟨keyed, htasks, hkeyed, hlabel, herr⟩

/-- **Faults**: a list is refused for the first label that comes twice, else for the least edge at
fault, else for an empty label. -/
theorem ofTasks_eq_error_iff {tasks : List Task} {edges : SortedSet Edge} {err : GraphError} :
    ofTasks tasks edges = .error err ↔ ListFault tasks edges err := by
  rw [ofTasks, bind_eq_error_iff, collect_empty_eq_error_iff]
  simp only [ofKeyed_eq_error_iff]
  constructor
  · rintro (⟨before, t, after, htasks, hnodup, hlabel, rfl⟩ | ⟨keyed, hkeyed, hfault⟩)
    · exact .duplicateLabel htasks hnodup hlabel
    · have hcollected := collected_of_collect hkeyed
      have hnodup := exists_collect_empty_iff.1 ⟨keyed, hkeyed⟩
      rcases hfault with hedge | ⟨hedges, hleast, hkey⟩
      · exact .edge hnodup ((EdgeFault.congr hcollected.mem_keys_iff).1 hedge)
      · obtain ⟨hempty, rfl⟩ := hcollected.keyFault_iff.1 ⟨_, hleast, hkey⟩
        exact .emptyLabel hnodup (hcollected.within_iff.1 hedges) hempty
  · rintro (⟨htasks, hnodup, hlabel⟩ | ⟨hnodup, hedge⟩ | ⟨hnodup, hedges, hempty⟩)
    · exact .inl ⟨_, _, _, htasks, hnodup, hlabel, rfl⟩
    · obtain ⟨keyed, hkeyed⟩ := exists_collect_empty_iff.2 hnodup
      have hcollected := collected_of_collect hkeyed
      exact .inr ⟨keyed, hkeyed, .edge ((EdgeFault.congr hcollected.mem_keys_iff).2 hedge)⟩
    · obtain ⟨keyed, hkeyed⟩ := exists_collect_empty_iff.2 hnodup
      have hcollected := collected_of_collect hkeyed
      obtain ⟨entry, hleast, hkey⟩ := hcollected.keyFault_iff.2 ⟨hempty, rfl⟩
      exact .inr ⟨keyed, hkeyed, .key (hcollected.within_iff.2 hedges) hleast hkey⟩

end TaskGraph

end PushPlan
