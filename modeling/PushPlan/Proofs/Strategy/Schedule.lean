import PushPlan.Proofs.Strategy.Local
import PushPlan.Proofs.Strategy.Registry
import PushPlan.Schedule

/-!
# PushPlan.Proofs.Strategy.Schedule

The schedule of a request and the selection by request.

1. Both go through the tasks of the graph in order and keep the ones that the
   request picks, so the labels of the schedule are the labels selected.
2. A task that is no test runs once.  A test runs as often as the request asks
   for its sort of test, and once if the request asks for no run
   (`Request.RunsFor`).
-/

namespace PushPlan

namespace Request

/-! ## Runs -/

/-- How often a task runs when tests are the tasks of the given kinds. -/
structure RunsFor (r : Request) (kinds : List String) (t : Task) (runs : UInt32) : Prop where
  /-- Every task runs. -/
  pos : 1 ≤ runs
  /-- A task that is no test runs once. -/
  once : (∀ kind ∈ kinds, t.kind ≠ some kind) → runs = 1
  /-- A test runs as often as is asked for, talos tests apart from the others. -/
  asked : (∃ kind ∈ kinds, t.kind = some kind) →
    runs = max (if t.hasAttribute "talos_try_name" then r.talosRuns else r.testRuns) 1

theorem one_le_max (n : UInt32) : 1 ≤ max n 1 := by
  show (1 : UInt32) ≤ if n ≤ 1 then 1 else n
  split
  · exact UInt32.le_refl 1
  · next h => exact UInt32.le_of_lt (UInt32.not_le.1 h)

/-- A test is a task of a test kind. -/
theorem isTest_iff {r : Request} {t : Task} :
    r.isTest t = true ↔ ∃ kind ∈ r.kinds.test, t.kind = some kind := by
  rw [isTest, Option.any_eq_true]
  simp only [List.contains_iff_mem, and_comm]

theorem runsFor_runs (r : Request) (t : Task) : r.RunsFor r.kinds.test t (r.runs t) := by
  by_cases htest : r.isTest t = true
  · have hruns : r.runs t = max (if isTalos t then r.talosRuns else r.testRuns) 1 := by
      rw [runs, if_pos htest]
    rw [hruns]
    refine ⟨one_le_max _, fun hnone => ?_, fun _ => rfl⟩
    obtain ⟨kind, hkind, heq⟩ := isTest_iff.1 htest
    exact absurd heq (hnone kind hkind)
  · have hruns : r.runs t = 1 := by rw [runs, if_neg htest]
    rw [hruns]
    exact ⟨UInt32.le_refl 1, fun _ => rfl, fun h => absurd (isTest_iff.2 h) htest⟩

/-! ## Schedules -/

/-- A request goes by the kinds of the conventions under which it was read. -/
theorem kinds_read (c : Conventions) (message : String) : (read c message).1.kinds = c.kinds := by
  unfold read
  split <;> rfl

theorem labels_schedule (r : Request) (g : TaskGraph) :
    (r.schedule g).map (·.label) = g.labelsWhere r.picks := by
  rw [schedule, List.map_map, TaskGraph.labelsWhere]
  rfl

/-- What is scheduled is a task of the graph, with the number of its runs. -/
theorem exists_task_of_mem_schedule {r : Request} {g : TaskGraph} {x : Scheduled}
    (h : x ∈ r.schedule g) : ∃ t, g.get? x.label = some t ∧ r.RunsFor r.kinds.test t x.runs := by
  obtain ⟨t, ht, rfl⟩ := List.mem_map.1 h
  exact ⟨t, TaskGraph.mem_inOrder_iff.1 (List.mem_filter.1 ht).1, r.runsFor_runs t⟩

/-- **Agreement**: what the request in a message schedules is what the selection by request selects
under the same conventions, label by label, in strictly ascending order; and each task runs as
often as the request asks for. -/
theorem select_eq_labels_schedule {ε : Type} (s : Settings) (message : String) (g : TaskGraph)
    {p : Parameters} (hp : p.get? "message" = some (.text message)) :
    (Registry.ofSettings s : Registry ε).select "try_option_syntax" g p =
        .ok (((read s.conventions message).1.schedule g).map (·.label)) ∧
      Ascending (((read s.conventions message).1.schedule g).map (·.label)) ∧
      ∀ x ∈ (read s.conventions message).1.schedule g, ∃ t, g.get? x.label = some t ∧
        (read s.conventions message).1.RunsFor s.conventions.kinds.test t x.runs := by
  rw [labels_schedule]
  refine ⟨?_, g.ascending_labelsWhere _, fun x hx => ?_⟩
  · calc
      (Registry.ofSettings s : Registry ε).select "try_option_syntax" g p
      _ = Strategy.byRequest s.conventions g p :=
          Registry.select_ofSettings_byRequestName s g p
      _ = .ok (g.labelsWhere (read s.conventions message).1.picks) := by
          rw [Strategy.byRequest, Strategy.byRequestWith_eq_ofTest]
          exact Strategy.ofTest_eq_ok_iff.2 ⟨message, hp, rfl⟩
  · obtain ⟨t, ht, hruns⟩ := exists_task_of_mem_schedule hx
    rw [kinds_read] at hruns
    exact ⟨t, ht, hruns⟩

/-- A test that is asked for three times, beside a build for another platform: both ways find the
test alone, and it runs three times. -/
theorem select_eq_labels_schedule_rebuild :
    ∃ message p g t, message = "try: -b o -p linux64 -u xpcshell --rebuild 3" ∧
      p.get? "message" = some (.text message) ∧
      (Registry.ofSettings .standard : Registry).select "try_option_syntax" g p = .ok ["test"] ∧
      g.get? "test" = some t ∧
      (read .standard message).1.RunsFor Kinds.standard.test t 3 := by
  have hg : ∃ g,
      TaskGraph.ofTasks
        [⟨"test", some "test", .ofList [("build_platform", .text "linux64"),
          ("build_type", .text "opt"), ("unittest_try_name", .text "xpcshell")], .null⟩,
        ⟨"build", some "build", .ofList [("build_platform", .text "win32"),
          ("build_type", .text "opt")], .null⟩] .empty = .ok g ∧
      (read Settings.standard.conventions
        "try: -b o -p linux64 -u xpcshell --rebuild 3").1.schedule g = [⟨"test", 3⟩] :=
    ⟨_, rfl, by decide⟩
  obtain ⟨g, _, hschedule⟩ := hg
  have hp : (Parameters.empty.withMessage "try: -b o -p linux64 -u xpcshell --rebuild 3").get?
      "message" = some (.text "try: -b o -p linux64 -u xpcshell --rebuild 3") := by decide
  obtain ⟨hselect, _, hruns⟩ := select_eq_labels_schedule .standard _ g hp
  rw [hschedule] at hselect hruns
  obtain ⟨t, ht, hrunsFor⟩ := hruns _ List.mem_cons_self
  exact ⟨_, _, g, t, rfl, hp, hselect, ht, hrunsFor⟩

end Request

end PushPlan
