import PushPlan.Proofs.Request.Matching
import PushPlan.Proofs.TaskGraph.Access

/-!
# PushPlan.Proofs.Request.Monotone

Asking for more picks more.

1. A list of items is extended by another that holds them all
   (`Selection.ExtendedBy`).  For suites and jobs, everything is above every list.
2. For platforms it is not.  Asking for all platforms picks what runs on `try` of its
   own, and thereby leaves out tasks that are picked where their platform is listed.
3. A request is within another one when each part of it is (`Request.Within`); the
   other one then picks at least as much, class by class.
-/

namespace PushPlan

namespace Request

/-! ## Selections -/

/-- Both selections are lists, and the second one has the items of the first. -/
def Selection.ExtendedBy {α : Type} (a b : Selection α) : Prop :=
  ∃ items more, a = .only items ∧ b = .only more ∧ items ⊆ more

theorem any_contains_mono {α : Type} [BEq α] [LawfulBEq α] {items more : List α}
    (h : items ⊆ more) {x : Option α} (hx : x.any items.contains = true) :
    x.any more.contains = true := by
  rw [Option.any_eq_true] at hx ⊢
  obtain ⟨a, ha, hmem⟩ := hx
  exact ⟨a, ha, List.contains_iff_mem.2 (h (List.contains_iff_mem.1 hmem))⟩

theorem suitesAsk_mono {a b : Selection SuiteSpec} (h : b = .all ∨ a.ExtendedBy b) {key : String}
    {t : Task} (ha : suitesAsk a key t = true) : suitesAsk b key t = true := by
  rcases h with rfl | ⟨specs, more, rfl, rfl, hsub⟩
  · rfl
  · simp only [suitesAsk, Option.any_eq_true, List.any_eq_true] at ha ⊢
    obtain ⟨name, hname, spec, hspec, haccepts⟩ := ha
    exact ⟨name, hname, spec, hsub hspec, haccepts⟩

/-! ## Requests -/

/-- What a request asks for is asked for by another one, which matches by the same classes. -/
structure Within (r s : Request) : Prop where
  kinds : r.kinds = s.kinds
  buildTypes : r.buildTypes ⊆ s.buildTypes
  platforms : r.platforms = s.platforms ∨ r.platforms.ExtendedBy s.platforms
  unittests : s.unittests = .all ∨ r.unittests.ExtendedBy s.unittests
  talos : s.talos = .all ∨ r.talos.ExtendedBy s.talos
  jobs : s.jobs = .all ∨ r.jobs.ExtendedBy s.jobs
  tag : s.tag = r.tag ∨ s.tag = none

namespace Within

variable {r s : Request} {t : Task}

theorem asksPlatform (h : r.Within s) (hr : r.asksPlatform t = true) : s.asksPlatform t = true := by
  rcases h.platforms with heq | ⟨platforms, more, hplatforms, hmore, hsub⟩
  · simpa only [Request.asksPlatform, heq] using hr
  · simp only [Request.asksPlatform, hplatforms] at hr
    simp only [Request.asksPlatform, hmore]
    exact any_contains_mono hsub hr

theorem picksBuild (h : r.Within s) (hr : r.picksBuild t = true) : s.picksBuild t = true := by
  rw [Request.picksBuild, Bool.and_eq_true] at hr ⊢
  exact ⟨any_contains_mono h.buildTypes hr.1, h.asksPlatform hr.2⟩

theorem asksTag (h : r.Within s) (hr : r.asksTag t = true) : s.asksTag t = true := by
  rcases h.tag with heq | hnone
  · simpa only [Request.asksTag, heq] using hr
  · simp only [Request.asksTag, hnone]

theorem asksSuite (h : r.Within s) (hr : r.asksSuite t = true) : s.asksSuite t = true := by
  unfold Request.asksSuite at hr ⊢
  split
  · next htalos =>
      rw [if_pos htalos] at hr
      exact suitesAsk_mono h.talos hr
  · next htalos =>
      rw [if_neg htalos] at hr
      exact suitesAsk_mono h.unittests hr

theorem picksTest (h : r.Within s) (hr : r.picksTest t = true) : s.picksTest t = true := by
  rw [picksTest_eq, Bool.and_eq_true, Bool.and_eq_true] at hr ⊢
  exact ⟨⟨h.picksBuild hr.1.1, h.asksTag hr.1.2⟩, h.asksSuite hr.2⟩

theorem picksJob (h : r.Within s) (hr : r.picksJob t = true) : s.picksJob t = true := by
  rcases h.jobs with hall | ⟨jobs, more, hjobs, hmore, hsub⟩
  · simp only [Request.picksJob, hall]
  · simp only [Request.picksJob, hjobs, Bool.or_eq_true] at hr
    simp only [Request.picksJob, hmore, Bool.or_eq_true]
    exact hr.imp (any_contains_mono hsub) (any_contains_mono hsub)

/-- Whatever a task is taken for, the wider request picks it too. -/
theorem picksAs (h : r.Within s) (as : TaskClass) (hr : r.picksAs t as = true) :
    s.picksAs t as = true := by
  cases as with
  | build => exact h.picksBuild hr
  | test => exact h.picksTest hr
  | job => exact h.picksJob hr

theorem picks (h : r.Within s) (hr : r.picks t = true) : s.picks t = true := by
  rw [Request.picks, picksIn, Option.any_eq_true] at hr ⊢
  obtain ⟨as, has, hpicks⟩ := hr
  rw [h.kinds] at has
  exact ⟨as, has, h.picksAs as hpicks⟩

end Within

/-- **Monotony**: a request picks every task that a request within it picks, so that of any task
graph no label is lost. -/
theorem picks_mono {r s : Request} (h : r.Within s) :
    (∀ t, r.picks t = true → s.picks t = true) ∧
      ∀ g : TaskGraph, (g.labelsWhere r.picks).Sublist (g.labelsWhere s.picks) :=
  ⟨fun _ hr => h.picks hr, fun g => g.labelsWhere_sublist fun _ hr => h.picks hr⟩

/-- With more build types and platforms, all suites and jobs and no tag, a build and a job are
picked besides the test that was picked before. -/
theorem picks_mono_wider :
    ∃ (r s : Request) (g : TaskGraph), r.Within s ∧
      g.labelsWhere r.picks = ["test"] ∧ g.labelsWhere s.picks = ["build", "job", "test"] ∧
      (g.labelsWhere r.picks).Sublist (g.labelsWhere s.picks) := by
  have hwithin : ∃ (r s : Request) (g : TaskGraph), r.Within s ∧
      TaskGraph.ofTasks
        [⟨"test", some "test", .ofList [("build_platform", .text "linux64"),
          ("build_type", .text "opt"), ("tags", .list ["fast"]),
          ("unittest_try_name", .text "xpcshell")], .null⟩,
        ⟨"build", some "build", .ofList [("build_platform", .text "win32"),
          ("build_type", .text "debug")], .null⟩,
        ⟨"job", some "source-check", .ofList [("build_platform", .text "eslint")], .null⟩]
        .empty = .ok g ∧
      g.labelsWhere r.picks = ["test"] ∧ g.labelsWhere s.picks = ["build", "job", "test"] :=
    ⟨{ nothing .standard with
        buildTypes := [.opt]
        platforms := .only ["linux64"]
        unittests := .only [⟨"xpcshell", .start "xpcshell", [], none, none⟩]
        tag := some "fast" },
      { nothing .standard with
        buildTypes := [.debug, .opt]
        platforms := .only ["win32", "linux64"]
        unittests := .all
        jobs := .all },
      _,
      ⟨rfl, by simp, .inr ⟨_, _, rfl, rfl, by simp⟩, .inl rfl,
        .inr ⟨[], [], rfl, rfl, by simp⟩, .inl rfl, .inr rfl⟩,
      rfl, by decide, by decide⟩
  obtain ⟨r, s, g, hwithin, _, hr, hs⟩ := hwithin
  exact ⟨r, s, g, hwithin, hr, hs, (picks_mono hwithin).2 g⟩

/-- All platforms are not above a list of them: a build that does not run on `try` of its own is
picked for its platform only. -/
example :
    let t : Task := ⟨"build", some "build", .ofList [("build_platform", .text "linux64"),
      ("build_type", .text "opt"), ("run_on_projects", .list ["release"])], .null⟩
    let r : Request := { nothing .standard with buildTypes := [.opt] }
    ({ r with platforms := .only ["linux64"] } : Request).picks t = true ∧
      ({ r with platforms := .all } : Request).picks t = false := by
  decide

end Request

end PushPlan
