import Mathlib.Data.List.Chain
import PushPlan.Proofs.Graph.Reach
import PushPlan.Proofs.Sorted

/-!
# PushPlan.Proofs.Graph.Walk

That a walk through a graph ends, and that it meets all that a path leads to.

1. A walk goes step by step: the label whose turn it is is left, and those of
   its neighbours that were not met before are met and wait for their turn
   (`Walk.step?`).  The start waits without being met, so it is met only where
   an edge leads back to it.
2. A label waits for its turn when the walk starts there and when it is met, at
   most once each.  A walk therefore ends after one step for the start and one
   step for each node that it meets (`Walk.Steps`).
3. When no label waits, all neighbours of what was left are met: the nodes that
   are met are closed under edges, so every path stays among them.
4. A path is followed back by a path in the other direction, and a path that
   leads back to its start goes round a cycle.
-/

namespace PushPlan

/-! ## Directions -/

/-- The other direction. -/
def Direction.reverse : Direction → Direction
  | .outgoing => .incoming
  | .incoming => .outgoing

@[simp] theorem Edge.tail_reverse (d : Direction) (e : Edge) : e.tail d.reverse = e.head d := by
  cases d <;> rfl

@[simp] theorem Edge.head_reverse (d : Direction) (e : Edge) : e.head d.reverse = e.tail d := by
  cases d <;> rfl

namespace Graph

/-! ## Steps of a walk -/

/-- A walk under way. -/
structure Walk where
  /-- The labels that are still to be left, in turn. -/
  waiting : List String
  /-- The nodes that were met. -/
  met : List String

namespace Walk

/-- Leaves the label whose turn it is; a walk in which no label waits has ended. -/
def step? (next : String → List String) : Walk → Option Walk
  | ⟨[], _⟩ => none
  | ⟨n :: waiting, met⟩ => some ⟨waiting ++ apart met (next n), met ++ apart met (next n)⟩

/-- A number of steps that lead from one state of a walk to another. -/
inductive Steps (next : String → List String) : Nat → Walk → Walk → Prop
  | refl (w : Walk) : Steps next 0 w w
  | cons {k : Nat} {u v w : Walk} : u.step? next = some v → Steps next k v w →
      Steps next (k + 1) u w

end Walk

/-! ## What is met and what is not -/

variable {next : String → List String} {frontier unseen met nodes l : List String} {a b m : String}

/-- The labels of `l` that were not met are the nodes not met that are in `l`, in the same order. -/
theorem among_apart_eq (hnodes : Ascending nodes) (hl : Ascending l) (hsub : ∀ m ∈ l, m ∈ nodes) :
    among l (apart met nodes) = apart met l := by
  refine Sorted.eq_of_mem_iff ((hnodes.filter _).filter _) (hl.filter _) fun m => ?_
  rw [mem_among_iff, mem_apart_iff, mem_apart_iff]
  constructor
  · rintro ⟨⟨_, hmet⟩, hm⟩
    exact ⟨hm, hmet⟩
  · rintro ⟨hm, hmet⟩
    exact ⟨⟨hsub m hm, hmet⟩, hm⟩

theorem apart_apart_eq : apart l (apart met nodes) = apart (met ++ apart met l) nodes := by
  simp only [apart, List.filter_filter]
  refine List.filter_congr fun m _ => ?_
  by_cases hmet : m ∈ met <;> by_cases hl : m ∈ l <;> simp [hmet, hl]

/-! ## Exploring, step by step -/

theorem mem_unseen_of_mem_explore (h : m ∈ explore next frontier unseen) : m ∈ unseen := by
  fun_induction explore next frontier unseen with
  | case1 => contradiction
  | case2 n frontier unseen ih =>
      rcases List.mem_append.1 h with h | h
      · exact (mem_among_iff.1 h).1
      · exact (mem_apart_iff.1 (ih h)).1

/-- No node is met twice. -/
theorem nodup_explore (hunseen : unseen.Nodup) : (explore next frontier unseen).Nodup := by
  fun_induction explore next frontier unseen with
  | case1 => exact List.nodup_nil
  | case2 n frontier unseen ih =>
      refine List.nodup_append.2 ⟨hunseen.filter _, ih (hunseen.filter _), ?_⟩
      rintro m hm k hk rfl
      exact (mem_apart_iff.1 (mem_unseen_of_mem_explore hk)).2 (mem_among_iff.1 hm).2

/-- What is met is closed under neighbours, and so is what was waiting. -/
theorem mem_explore_of_mem_next (ha : a ∈ frontier ∨ a ∈ explore next frontier unseen)
    (hm : m ∈ next a) (hunseen : m ∈ unseen) : m ∈ explore next frontier unseen := by
  fun_induction explore next frontier unseen with
  | case1 => simp at ha
  | case2 n frontier unseen ih =>
      rw [List.mem_append]
      by_cases hn : m ∈ next n
      · exact .inl (mem_among_iff.2 ⟨hunseen, hn⟩)
      · -- `m` is met later on, since `a` is another label than the one that is left now.
        have hne : a ≠ n := by
          rintro rfl
          exact hn hm
        refine .inr (ih ?_ (mem_apart_iff.2 ⟨hunseen, hn⟩))
        simp only [List.mem_cons, hne, false_or, List.mem_append] at ha ⊢
        rcases ha with ha | ha | ha
        · exact .inl (.inl ha)
        · exact .inl (.inr ha)
        · exact .inr ha

/-- **Run law**: a walk leaves each label that waits and each node that it meets, and has then
ended. -/
theorem steps_explore (hnodes : Ascending nodes) (hnext : ∀ n, Ascending (next n))
    (hsub : ∀ n, ∀ m ∈ next n, m ∈ nodes) (hunseen : unseen = apart met nodes) :
    Walk.Steps next (frontier.length + (explore next frontier unseen).length) ⟨frontier, met⟩
      ⟨[], met ++ explore next frontier unseen⟩ := by
  fun_induction explore next frontier unseen generalizing met with
  | case1 => simpa using Walk.Steps.refl _
  | case2 n frontier unseen ih =>
      subst hunseen
      have hmeets : among (next n) (apart met nodes) = apart met (next n) :=
        among_apart_eq hnodes (hnext n) (hsub n)
      have hrest := ih apart_apart_eq
      rw [hmeets, List.append_assoc] at hrest
      have hfirst : Walk.step? next ⟨n :: frontier, met⟩ =
          some ⟨frontier ++ apart met (next n), met ++ apart met (next n)⟩ := rfl
      have hsteps := Walk.Steps.cons hfirst hrest
      rw [hmeets]
      have hcount : ∀ later : List String,
          (n :: frontier).length + (apart met (next n) ++ later).length =
            (frontier ++ apart met (next n)).length + later.length + 1 := by
        intro later
        simp only [List.length_append, List.length_cons]
        omega
      rw [hcount]
      exact hsteps

/-! ## Neighbours -/

variable {g : Graph} {d : Direction}

/-- Edges that start alike ascend as the labels that they lead to. -/
theorem compare_head_of_tail_eq {e f : Edge} (htail : e.tail d = f.tail d)
    (h : compare e f = .lt) : compare (e.head d) (f.head d) = .lt := by
  have hlex : (compareLex (compareOn Edge.source) (compareOn Edge.target)) e f = .lt := h
  cases d with
  | outgoing =>
      have hsource : e.source = f.source := htail
      simpa [compareLex, compareOn, Edge.head, hsource] using hlex
  | incoming =>
      have htarget : e.target = f.target := htail
      simpa [compareLex, compareOn, Edge.head, htarget] using hlex

theorem ascending_neighbours (g : Graph) (d : Direction) (n : String) :
    Ascending (g.neighbours d n) := by
  refine List.pairwise_map.2 ?_
  have hedges : (g.edges.toList.filter fun e => e.tail d = n).Pairwise
      fun e f => compare e f = .lt := g.edges.ascending.filter _
  refine hedges.imp_of_mem ?_
  intro e f he hf hlt
  have htail : e.tail d = f.tail d := by
    rw [of_decide_eq_true (List.mem_filter.1 he).2, of_decide_eq_true (List.mem_filter.1 hf).2]
  exact compare_head_of_tail_eq htail hlt

theorem head_mem_neighbours {e : Edge} (he : e ∈ g.edges.toList) (d : Direction) :
    e.head d ∈ g.neighbours d (e.tail d) :=
  mem_neighbours_iff.2 ⟨e, he, rfl, rfl⟩

theorem mem_nodes_of_mem_neighbours (h : b ∈ g.neighbours d a) : b ∈ g.nodes.toList := by
  obtain ⟨e, he, _, rfl⟩ := mem_neighbours_iff.1 h
  exact head_mem_nodes he d

theorem mem_reach_iff_mem_explore :
    b ∈ (g.reach d a).toList ↔ b ∈ explore (g.neighbours d) [a] g.nodes.toList := by
  simp only [reach, Sorted.filter, List.mem_filter, decide_eq_true_eq, and_iff_right_iff_imp]
  exact mem_unseen_of_mem_explore

theorem size_reach (g : Graph) (d : Direction) (start : String) :
    (g.reach d start).size = (explore (g.neighbours d) [start] g.nodes.toList).length := by
  have hnodes : g.nodes.toList.Nodup := Sorted.nodup_of_ascending g.nodes.ascending
  have hreach : (g.reach d start).toList.Nodup := hnodes.filter _
  exact ((List.perm_ext_iff_of_nodup hreach (nodup_explore hnodes)).2
    fun _ => mem_reach_iff_mem_explore).length_eq

/-- The walk from a label leaves it and each node that is reached, and has then ended and met the
nodes that are reached. -/
theorem steps_reach (g : Graph) (d : Direction) (start : String) :
    ∃ met, Walk.Steps (g.neighbours d) ((g.reach d start).size + 1) ⟨[start], []⟩ ⟨[], met⟩ ∧
      ∀ n, n ∈ met ↔ n ∈ (g.reach d start).toList := by
  refine ⟨explore (g.neighbours d) [start] g.nodes.toList, ?_, fun n =>
    mem_reach_iff_mem_explore.symm⟩
  have hunseen : g.nodes.toList = apart [] g.nodes.toList := by simp [apart]
  have hsteps : Walk.Steps (g.neighbours d)
      ([start].length + (explore (g.neighbours d) [start] g.nodes.toList).length) ⟨[start], []⟩
      ⟨[], explore (g.neighbours d) [start] g.nodes.toList⟩ :=
    steps_explore g.nodes.ascending (ascending_neighbours g d)
      (fun _ _ => mem_nodes_of_mem_neighbours) hunseen
  rw [size_reach, Nat.add_comm]
  exact hsteps

/-! ## Paths -/

/-- What a path leads to is reached. -/
theorem mem_reach_of_path (h : g.Path d a b) : b ∈ (g.reach d a).toList := by
  rw [mem_reach_iff_mem_explore]
  induction h with
  | edge he =>
      exact mem_explore_of_mem_next (.inl List.mem_cons_self) (head_mem_neighbours he d)
        (head_mem_nodes he d)
  | snoc _ he ih =>
      exact mem_explore_of_mem_next (.inr ih) (head_mem_neighbours he d) (head_mem_nodes he d)

theorem mem_reach_iff_path : b ∈ (g.reach d a).toList ↔ g.Path d a b :=
  ⟨path_of_mem_reach, mem_reach_of_path⟩

/-- A path may begin with one more edge. -/
theorem Path.cons {e : Edge} (he : e ∈ g.edges.toList) (h : g.Path d (e.head d) b) :
    g.Path d (e.tail d) b := by
  generalize ha : e.head d = a at h
  induction h with
  | edge hf => exact .snoc (ha ▸ .edge he) hf
  | snoc _ hf ih => exact .snoc (ih ha) hf

/-- A path is followed back in the other direction. -/
theorem Path.reverse (h : g.Path d a b) : g.Path d.reverse b a := by
  induction h with
  | @edge e he =>
      have hback : g.Path d.reverse (e.tail d.reverse) (e.head d.reverse) := .edge he
      simpa using hback
  | @snoc a e _ he ih =>
      have hback : g.Path d.reverse (e.tail d.reverse) a := .cons he (by simpa using ih)
      simpa using hback

theorem path_incoming_iff : g.Path .incoming b a ↔ g.Path .outgoing a b :=
  ⟨Path.reverse, Path.reverse⟩

/-- A path leads through labels of which each is joined to the next by an edge. -/
theorem path_outgoing_iff_isChain :
    g.Path .outgoing a b ↔
      ∃ via : List String,
        (a :: (via ++ [b])).IsChain fun s t => Edge.mk s t ∈ g.edges.toList := by
  constructor
  · intro h
    induction h with
    | edge he => exact ⟨[], by simpa [Edge.tail, Edge.head] using he⟩
    | @snoc a e _ he ih =>
        obtain ⟨via, hvia⟩ := ih
        refine ⟨via ++ [e.source], ?_⟩
        rw [List.append_assoc, ← List.cons_append, List.singleton_append, List.isChain_split]
        exact ⟨hvia, by simpa [Edge.head] using he⟩
  · rintro ⟨via, hvia⟩
    induction via generalizing a with
    | nil =>
        have he : Edge.mk a b ∈ g.edges.toList := by simpa using hvia
        exact .edge he
    | cons v via ih =>
        obtain ⟨he, hrest⟩ := List.isChain_cons_cons.1 hvia
        exact .cons he (ih hrest)

/-! ## Reach -/

/-- A label lies on a cycle: edges lead from it, through other labels or at once, back to it. -/
def OnCycle (g : Graph) (a : String) : Prop :=
  ∃ via : List String, (a :: (via ++ [a])).IsChain fun s t => Edge.mk s t ∈ g.edges.toList

theorem path_self_iff_onCycle : g.Path d a a ↔ g.OnCycle a := by
  rw [OnCycle, ← path_outgoing_iff_isChain]
  cases d with
  | outgoing => exact .rfl
  | incoming => exact path_incoming_iff

/-- **Reach is the transitive closure of the edges.**  The walk from any label, in either
direction, ends after one step for the label and one for each node that it meets, and it meets
exactly the ends of paths; so a label is reached from itself exactly along a cycle, and one label is
reached from another exactly when that is reached from it against the edges. -/
theorem reach_eq_closure (g : Graph) :
    (∀ d start, ∃ met,
      Walk.Steps (g.neighbours d) ((g.reach d start).size + 1) ⟨[start], []⟩ ⟨[], met⟩ ∧
        ∀ n, n ∈ met ↔ n ∈ (g.reach d start).toList) ∧
    (∀ d start n, n ∈ (g.reach d start).toList ↔ g.Path d start n) ∧
    (∀ d start, start ∈ (g.reach d start).toList ↔ g.OnCycle start) ∧
    ∀ a b, b ∈ (g.reach .outgoing a).toList ↔ a ∈ (g.reach .incoming b).toList := by
  refine ⟨steps_reach g, fun _ _ _ => mem_reach_iff_path, ?_, ?_⟩
  · intro d start
    rw [mem_reach_iff_path, path_self_iff_onCycle]
  · intro a b
    rw [mem_reach_iff_path, mem_reach_iff_path, path_incoming_iff]

end Graph

end PushPlan
