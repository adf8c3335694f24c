import PushPlan.Proofs.TaskGraph.Access
import PushPlan.Strategy

/-!
# PushPlan.Proofs.Strategy.Local

Strategies that decide task by task.

1. Such a strategy reads one parameter, which has to be a text, and then tests
   each task by itself (`Strategy.ofTest`).
2. It is *local* to that parameter (`Strategy.LocalTo`): it fails without it and
   only then, its labels ascend, and no edge, no other task and no other
   parameter has a say in whether a task is selected.
3. Selecting by project and by request, with whatever test, are of this sort.
-/

namespace PushPlan

open Failure

/-! ## Texts among parameters -/

namespace Parameters

variable {ε : Type} {p : Parameters} {name : String}

theorem asText?_eq_some_iff {v : Option Value} {s : String} :
    v.bind Value.asText? = some s ↔ v = some (.text s) := by
  cases v with
  | none => simp
  | some v => cases v <;> simp [Value.asText?]

theorem text_eq_ok_iff {s : String} :
    (p.text name : Except (SelectionError ε) String) = .ok s ↔ p.get? name = some (.text s) := by
  rw [← asText?_eq_some_iff, text]
  cases (p.get? name).bind Value.asText? <;> simp

/-- A text is refused when there is none of the name. -/
theorem text_eq_error_iff {e : SelectionError ε} :
    p.text name = .error e ↔
      (∀ s, p.get? name ≠ some (.text s)) ∧ e = .missingParameter name := by
  have hnone : (∀ s, p.get? name ≠ some (.text s)) ↔
      (p.get? name).bind Value.asText? = none := by
    rw [Option.eq_none_iff_forall_ne_some]
    exact forall_congr' fun s => not_congr asText?_eq_some_iff.symm
  rw [hnone, text]
  cases (p.get? name).bind Value.asText? <;> simp [eq_comm]

end Parameters

namespace Strategy

variable {ε : Type}

/-! ## Task by task -/

/-- Selects the tasks that pass a test with the text of one parameter. -/
def ofTest (name : String) (test : String → Task → Bool) : Strategy ε := fun g p => do
  let s ← p.text name
  return g.labelsWhere (test s)

theorem byProject_eq_ofTest (classes : ProjectClasses) :
    (byProject classes : Strategy ε) = ofTest "project" classes.picks := rfl

theorem byRequestWith_eq_ofTest (c : Conventions) (test : Request → Task → Bool) :
    (byRequestWith c test : Strategy ε) =
      ofTest "message" fun message => test (Request.read c message).1 := rfl

variable {name : String} {test : String → Task → Bool} {g : TaskGraph} {p : Parameters}

theorem ofTest_eq_ok_iff {labels : List String} :
    (ofTest name test : Strategy ε) g p = .ok labels ↔
      ∃ s, p.get? name = some (.text s) ∧ g.labelsWhere (test s) = labels := by
  rw [ofTest, bind_eq_ok_iff]
  constructor
  · intro h
    obtain ⟨s, hs, hlabels⟩ := h
    exact ⟨s, Parameters.text_eq_ok_iff.1 hs, Except.ok.inj hlabels⟩
  · intro h
    obtain ⟨s, hs, rfl⟩ := h
    exact ⟨s, Parameters.text_eq_ok_iff.2 hs, rfl⟩

theorem ofTest_eq_error_iff {e : SelectionError ε} :
    ofTest name test g p = .error e ↔
      (∀ s, p.get? name ≠ some (.text s)) ∧ e = .missingParameter name := by
  rw [← Parameters.text_eq_error_iff, ofTest]
  cases p.text name <;> simp [bind, Except.bind, pure, Except.pure]

/-- With a message, selecting by request gives the labels of what its request picks. -/
theorem byRequest_eq_ok (c : Conventions) (g : TaskGraph) {message : String}
    (hp : p.get? "message" = some (.text message)) :
    (byRequest c : Strategy ε) g p = .ok (g.labelsWhere (Request.read c message).1.picks) := by
  rw [byRequest, byRequestWith_eq_ofTest]
  exact ofTest_eq_ok_iff.2 ⟨message, hp, rfl⟩

/-! ## Locality -/

/-- A strategy that needs one parameter and looks at one task at a time. -/
structure LocalTo (s : Strategy ε) (name : String) : Prop where
  /-- It fails exactly when the parameter is absent or no text, whatever the graph. -/
  error_iff : ∀ g p e, s g p = .error e ↔
    (∀ text, p.get? name ≠ some (.text text)) ∧ e = .missingParameter name
  /-- Its labels are nodes, in strictly ascending order. -/
  ascending : ∀ g p labels, s g p = .ok labels →
    Ascending labels ∧ ∀ label ∈ labels, label ∈ g.graph.nodes.toList
  /-- A task of two graphs is selected from both or from neither, if the parameter is the same. -/
  agree : ∀ g h p q labels others, p.get? name = q.get? name →
    s g p = .ok labels → s h q = .ok others →
    ∀ t, g.get? t.label = some t → h.get? t.label = some t →
      (t.label ∈ labels ↔ t.label ∈ others)

/-- Whether a task is selected depends on the task and on the text of the parameter. -/
theorem mem_labels_of_ofTest {labels : List String} {s : String} {t : Task}
    (hlabels : (ofTest name test : Strategy ε) g p = .ok labels) (hs : p.get? name = some (.text s))
    (ht : g.get? t.label = some t) : t.label ∈ labels ↔ test s t = true := by
  obtain ⟨s', hs', rfl⟩ := ofTest_eq_ok_iff.1 hlabels
  have heq : s' = s := by
    rw [hs] at hs'
    simpa using hs'.symm
  subst heq
  rw [TaskGraph.mem_labelsWhere_iff]
  constructor
  · intro h
    obtain ⟨u, hu, htest⟩ := h
    rw [ht] at hu
    rw [Option.some.inj hu]
    exact htest
  · intro htest
    exact ⟨t, ht, htest⟩

/-- Testing task by task is local, whatever the test. -/
theorem localTo_ofTest (name : String) (test : String → Task → Bool) :
    (ofTest name test : Strategy ε).LocalTo name where
  error_iff := fun _ _ _ => ofTest_eq_error_iff
  ascending := by
    intro g p labels h
    obtain ⟨s, _, rfl⟩ := ofTest_eq_ok_iff.1 h
    refine ⟨g.ascending_labelsWhere _, fun label hlabel => ?_⟩
    obtain ⟨t, ht, _⟩ := TaskGraph.mem_labelsWhere_iff.1 hlabel
    exact TaskGraph.isSome_get?_iff.1 (Option.isSome_of_eq_some ht)
  agree := by
    intro g h p q labels others hpq hlabels hothers t htg hth
    obtain ⟨s, hs, _⟩ := ofTest_eq_ok_iff.1 hlabels
    have hq : q.get? name = some (.text s) := hpq ▸ hs
    rw [mem_labels_of_ofTest hlabels hs htg, mem_labels_of_ofTest hothers hq hth]

/-- **Locality**: selecting by project depends on nothing but the project and each task by itself,
and selecting by request on nothing but the message and each task, whatever the test. -/
theorem localTo_byProject_byRequestWith :
    (∀ classes : ProjectClasses, (byProject classes : Strategy ε).LocalTo "project") ∧
      ∀ (c : Conventions) (test : Request → Task → Bool),
        (byRequestWith c test : Strategy ε).LocalTo "message" := by
  constructor
  · intro classes
    rw [byProject_eq_ofTest]
    exact localTo_ofTest _ _
  · intro c test
    rw [byRequestWith_eq_ofTest]
    exact localTo_ofTest _ _

/-- A task that is selected from a graph of its own is selected from a graph with another task and
with edges as well, under parameters that hold a message besides. -/
theorem localTo_byProject_byRequestWith_shared :
    ∃ t g h labels others,
      TaskGraph.ofTasks [t] .empty = .ok g ∧
      TaskGraph.ofTasks [⟨"b", none, .empty, .null⟩, t] (.ofList [⟨"a", "b"⟩, ⟨"b", "a"⟩]) =
        .ok h ∧
      (byProject .standard : Strategy) g (Parameters.empty.withProject "autoland") =
        .ok labels ∧
      (byProject .standard : Strategy) h
        ((Parameters.empty.withProject "autoland").withMessage "no request") = .ok others ∧
      t.label ∈ labels ∧ t.label ∈ others := by
  have hruns : ∃ t g h labels others,
      TaskGraph.ofTasks [t] .empty = .ok g ∧
      TaskGraph.ofTasks [⟨"b", none, .empty, .null⟩, t] (.ofList [⟨"a", "b"⟩, ⟨"b", "a"⟩]) =
        .ok h ∧
      (byProject .standard : Strategy) g (Parameters.empty.withProject "autoland") =
        .ok labels ∧
      (byProject .standard : Strategy) h
        ((Parameters.empty.withProject "autoland").withMessage "no request") = .ok others ∧
      t.label ∈ labels ∧ g.get? t.label = some t ∧ h.get? t.label = some t :=
    ⟨(Task.mk "a" none .empty .null).withAttribute "run_on_projects" (.list ["integration"]),
      _, _, _, _, rfl, rfl, rfl, rfl, by decide, by decide, by decide⟩
  obtain ⟨t, g, h, labels, others, hg, hh, hlabels, hothers, hmem, htg, hth⟩ := hruns
  have hagree : t.label ∈ labels ↔ t.label ∈ others :=
    (localTo_byProject_byRequestWith.1 .standard).agree g h _ _ labels others (by decide)
      hlabels hothers t htg hth
  exact ⟨t, g, h, labels, others, hg, hh, hlabels, hothers, hmem, hagree.1 hmem⟩

end Strategy

end PushPlan
