import PushPlan.Graph

/-!
# PushPlan.Proofs.Graph.Reach

What a walk through a graph meets.

Every label that is met is the end of a path of edges from the start, since each
is a neighbour of the start or of a label that was met before.  A path ends at an
end of an edge, which is a node: no walk leaves the nodes.
-/

namespace PushPlan.Graph

/-! ## Exploring -/

theorem mem_among_iff {a : String} {others l : List String} :
    a ∈ among others l ↔ a ∈ l ∧ a ∈ others := by
  simp [among]

theorem mem_apart_iff {a : String} {others l : List String} :
    a ∈ apart others l ↔ a ∈ l ∧ a ∉ others := by
  simp [apart]

/-- What holds of the neighbours of the frontier and is handed on to neighbours holds of all that
is met. -/
theorem forall_mem_explore {next : String → List String} {P : String → Prop}
    (hnext : ∀ n, P n → ∀ m ∈ next n, P m) {frontier unseen : List String}
    (hfrontier : ∀ n ∈ frontier, ∀ m ∈ next n, P m) :
    ∀ m ∈ explore next frontier unseen, P m := by
  fun_induction explore next frontier unseen with
  | case1 => simp
  | case2 n frontier unseen ih =>
      have hmet : ∀ m ∈ among (next n) unseen, P m := fun m hm =>
        hfrontier n List.mem_cons_self m (mem_among_iff.1 hm).2
      have hlater : ∀ m ∈ frontier ++ among (next n) unseen, ∀ k ∈ next m, P k := by
        intro m hm
        rcases List.mem_append.1 hm with hm | hm
        · exact hfrontier m (List.mem_cons_of_mem n hm)
        · exact hnext m (hmet m hm)
      intro m hm
      rcases List.mem_append.1 hm with hm | hm
      · exact hmet m hm
      · exact ih hlater m hm

/-! ## Paths -/

variable {g : Graph} {d : Direction} {a b : String}

theorem mem_neighbours_iff :
    b ∈ g.neighbours d a ↔ ∃ e ∈ g.edges.toList, e.tail d = a ∧ e.head d = b := by
  simp only [neighbours, List.mem_map, List.mem_filter, decide_eq_true_eq, and_assoc]

/-- The neighbours of a node are the far ends of its edges. -/
theorem mem_neighbours_outgoing : b ∈ g.neighbours .outgoing a ↔ Edge.mk a b ∈ g.edges.toList := by
  rw [mem_neighbours_iff]
  constructor
  · intro h
    obtain ⟨e, he, rfl, rfl⟩ := h
    exact he
  · intro h
    exact ⟨⟨a, b⟩, h, rfl, rfl⟩

/-- What is reached is the end of a path. -/
theorem path_of_mem_reach (h : b ∈ (g.reach d a).toList) : g.Path d a b := by
  have hmet : b ∈ explore (g.neighbours d) [a] g.nodes.toList :=
    of_decide_eq_true (List.mem_filter.1 h).2
  refine forall_mem_explore ?_ ?_ b hmet
  · intro n hn m hm
    obtain ⟨e, he, rfl, rfl⟩ := mem_neighbours_iff.1 hm
    exact .snoc hn he
  · intro n hn m hm
    obtain rfl := List.mem_singleton.1 hn
    obtain ⟨e, he, rfl, rfl⟩ := mem_neighbours_iff.1 hm
    exact .edge he

/-- An edge leads to a node, whichever way it is followed. -/
theorem head_mem_nodes {e : Edge} (h : e ∈ g.edges.toList) (d : Direction) :
    e.head d ∈ g.nodes.toList := by
  cases d with
  | outgoing => exact (g.closed e h).2
  | incoming => exact (g.closed e h).1

/-- A path leads to a node, from wherever it starts. -/
theorem Path.mem_nodes (h : g.Path d a b) : b ∈ g.nodes.toList := by
  cases h with
  | edge he => exact head_mem_nodes he d
  | snoc _ he => exact head_mem_nodes he d

end PushPlan.Graph
