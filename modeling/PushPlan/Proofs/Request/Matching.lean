import PushPlan.Request.Matching

/-!
# PushPlan.Proofs.Request.Matching

What decides whether a request picks a task.

1. The class of a task is the first of test, job and build that its kind belongs
   to; a task is picked as one of its class, and of no class never (`picks_eq`).
2. Two requests with the same classes decide alike on a task as soon as they agree
   on the parts that are about its class (`DecidedAlike`): what is asked of builds
   does not reach jobs, what is asked of talos tests does not reach unit tests, and
   so on.
3. Two tasks of one kind that agree on nine attributes are decided alike by every
   request.
-/

namespace PushPlan

open Request

/-! ## Texts -/

/-- The text of an attribute is there when the attribute is a text. -/
theorem Task.text?_eq_some_iff {t : Task} {name s : String} :
    t.text? name = some s ↔ t.attribute? name = some (.text s) := by
  rw [text?, Option.bind_eq_some_iff]
  constructor
  · intro h
    obtain ⟨a, ha, hs⟩ := h
    cases a <;> simp_all [Attribute.asText?]
  · intro h
    exact ⟨.text s, h, rfl⟩

/-! ## Classes -/

/-- A task of one of the given kinds. -/
def Task.IsOf (t : Task) (kinds : List String) : Prop := ∃ kind ∈ kinds, t.kind = some kind

instance (t : Task) (kinds : List String) : Decidable (t.IsOf kinds) :=
  inferInstanceAs (Decidable (∃ kind ∈ kinds, t.kind = some kind))

theorem Task.isOf_iff {t : Task} {kind : String} (h : t.kind = some kind) (kinds : List String) :
    t.IsOf kinds ↔ kind ∈ kinds := by
  constructor
  · intro hof
    obtain ⟨other, hmem, hother⟩ := hof
    rw [h] at hother
    exact Option.some.inj hother ▸ hmem
  · intro hmem
    exact ⟨kind, hmem, h⟩

theorem Task.not_isOf_of_kind_eq_none {t : Task} (h : t.kind = none) (kinds : List String) :
    ¬ t.IsOf kinds := by
  intro hof
  obtain ⟨kind, _, hkind⟩ := hof
  rw [h] at hkind
  contradiction

/-- The first class of a kind, of tests, jobs and builds. -/
theorem Kinds.classIn?_order (kinds : Kinds) (kind : String) :
    kinds.classIn? TaskClass.order kind =
      if kind ∈ kinds.test then some .test
      else if kind ∈ kinds.job then some .job
      else if kind ∈ kinds.build then some .build
      else none := by
  simp only [classIn?, TaskClass.order, List.find?_cons, List.find?_nil, inClass]
  by_cases htest : kind ∈ kinds.test
  · simp [htest]
  · by_cases hjob : kind ∈ kinds.job
    · simp [htest, hjob]
    · by_cases hbuild : kind ∈ kinds.build <;> simp [htest, hjob, hbuild]

namespace Request

/-- A task is picked as a test, else as a job, else as a build. -/
theorem picks_eq (r : Request) (t : Task) :
    r.picks t =
      if t.IsOf r.kinds.test then r.picksTest t
      else if t.IsOf r.kinds.job then r.picksJob t
      else if t.IsOf r.kinds.build then r.picksBuild t
      else false := by
  rw [picks, picksIn]
  cases hkind : t.kind with
  | none =>
      have hnot := t.not_isOf_of_kind_eq_none hkind
      rw [if_neg (hnot _), if_neg (hnot _), if_neg (hnot _)]
      rfl
  | some kind =>
      simp only [Option.bind_some, Kinds.classIn?_order, Task.isOf_iff hkind]
      split
      · rfl
      · split
        · rfl
        · split <;> rfl

/-! ## Requests that agree -/

variable {r s : Request} {t u : Task}

theorem picksBuild_of_agree (hbuild : r.buildTypes = s.buildTypes)
    (hplatforms : r.platforms = s.platforms) (t : Task) : r.picksBuild t = s.picksBuild t := by
  simp only [picksBuild, asksBuildType, asksPlatform, hbuild, hplatforms]

theorem picksJob_of_agree (hjobs : r.jobs = s.jobs) (t : Task) : r.picksJob t = s.picksJob t := by
  simp only [picksJob, hjobs]

/-- Whether a test is asked for by the suites of its sort, talos suites or unit test suites. -/
def asksSuite (r : Request) (t : Task) : Bool :=
  if t.hasAttribute "talos_try_name" then suitesAsk r.talos "talos_try_name" t
  else suitesAsk r.unittests "unittest_try_name" t

theorem picksTest_eq (r : Request) (t : Task) :
    r.picksTest t = (r.picksBuild t && r.asksTag t && r.asksSuite t) := rfl

theorem picksTest_of_agree (hbuild : r.buildTypes = s.buildTypes)
    (hplatforms : r.platforms = s.platforms) (htag : r.tag = s.tag)
    (hsuites : r.asksSuite t = s.asksSuite t) : r.picksTest t = s.picksTest t := by
  rw [picksTest_eq, picksTest_eq, picksBuild_of_agree hbuild hplatforms, hsuites]
  simp only [asksTag, htag]

/-- How far the parts of a request reach: two requests with the same classes decide alike on a task
if they agree on what is about tasks of its class. -/
structure DecidedAlike (r s : Request) (t : Task) : Prop where
  /-- Unit tests are decided by build types, platforms, tag and unit test suites. -/
  unittest : t.IsOf r.kinds.test → t.hasAttribute "talos_try_name" = false →
    r.buildTypes = s.buildTypes → r.platforms = s.platforms → r.tag = s.tag →
    r.unittests = s.unittests → r.picks t = s.picks t
  /-- Talos tests are decided by build types, platforms, tag and talos suites. -/
  talos : t.IsOf r.kinds.test → t.hasAttribute "talos_try_name" = true →
    r.buildTypes = s.buildTypes → r.platforms = s.platforms → r.tag = s.tag →
    r.talos = s.talos → r.picks t = s.picks t
  /-- Jobs that are no tests are decided by jobs. -/
  job : t.IsOf r.kinds.job → ¬ t.IsOf r.kinds.test → r.jobs = s.jobs → r.picks t = s.picks t
  /-- Builds that are nothing else are decided by build types and platforms. -/
  build : t.IsOf r.kinds.build → ¬ t.IsOf r.kinds.test → ¬ t.IsOf r.kinds.job →
    r.buildTypes = s.buildTypes → r.platforms = s.platforms → r.picks t = s.picks t
  /-- All other tasks are never picked. -/
  other : ¬ t.IsOf r.kinds.test → ¬ t.IsOf r.kinds.job → ¬ t.IsOf r.kinds.build →
    r.picks t = false ∧ s.picks t = false

theorem decidedAlike (hkinds : r.kinds = s.kinds) (t : Task) : r.DecidedAlike s t where
  unittest := by
    intro htest htalos hbuild hplatforms htag hsuites
    have hnot : ¬ t.hasAttribute "talos_try_name" = true := by
      rw [htalos]
      exact Bool.false_ne_true
    have hasks : r.asksSuite t = s.asksSuite t := by
      rw [asksSuite, asksSuite, if_neg hnot, if_neg hnot, hsuites]
    rw [picks_eq, picks_eq, ← hkinds, if_pos htest, if_pos htest,
      picksTest_of_agree hbuild hplatforms htag hasks]
  talos := by
    intro htest htalos hbuild hplatforms htag hsuites
    have hasks : r.asksSuite t = s.asksSuite t := by
      rw [asksSuite, asksSuite, if_pos htalos, if_pos htalos, hsuites]
    rw [picks_eq, picks_eq, ← hkinds, if_pos htest, if_pos htest,
      picksTest_of_agree hbuild hplatforms htag hasks]
  job := by
    intro hjob htest hjobs
    rw [picks_eq, picks_eq, ← hkinds, if_neg htest, if_neg htest, if_pos hjob, if_pos hjob,
      picksJob_of_agree hjobs]
  build := by
    intro hbuild htest hjob hbuildTypes hplatforms
    rw [picks_eq, picks_eq, ← hkinds, if_neg htest, if_neg htest, if_neg hjob, if_neg hjob,
      if_pos hbuild, if_pos hbuild, picksBuild_of_agree hbuildTypes hplatforms]
  other := by
    intro htest hjob hbuild
    rw [picks_eq, picks_eq, ← hkinds, if_neg htest, if_neg htest, if_neg hjob, if_neg hjob,
      if_neg hbuild, if_neg hbuild]
    exact ⟨rfl, rfl⟩

/-! ## Tasks that agree -/

/-- The attributes that matching looks at. -/
def matchedAttributes : List String :=
  ["build_type", "build_platform", "run_on_projects", "unittest_try_name", "talos_try_name",
    "test_platform", "test_chunk", "job_try_name", "tags"]

theorem SuiteSpec.accepts_of_agree (hchunk : t.attribute? "test_chunk" = u.attribute? "test_chunk")
    (hplatform : t.attribute? "test_platform" = u.attribute? "test_platform") (spec : SuiteSpec)
    (name : String) : spec.accepts name t = spec.accepts name u := by
  simp only [accepts, acceptsChunk, acceptsPlatform, Task.text?, hchunk, hplatform]

theorem suitesAsk_of_agree {key : String} (hkey : t.attribute? key = u.attribute? key)
    (hchunk : t.attribute? "test_chunk" = u.attribute? "test_chunk")
    (hplatform : t.attribute? "test_platform" = u.attribute? "test_platform")
    (suites : Selection SuiteSpec) : suitesAsk suites key t = suitesAsk suites key u := by
  cases suites with
  | all => rfl
  | only specs =>
      simp only [suitesAsk, Task.text?, hkey, SuiteSpec.accepts_of_agree hchunk hplatform]

/-- Whatever tasks are taken for, a request decides alike where what it looks at is alike. -/
theorem picksAs_of_agree
    (h : ∀ name ∈ matchedAttributes, t.attribute? name = u.attribute? name) (r : Request)
    (as : TaskClass) : r.picksAs t as = r.picksAs u as := by
  simp only [matchedAttributes, List.forall_mem_cons, List.not_mem_nil, false_implies,
    implies_true, and_true] at h
  obtain ⟨htype, hplatform, hprojects, hunittest, htalos, htests, hchunk, hjob, htags⟩ := h
  have hbuild : r.picksBuild t = r.picksBuild u := by
    simp only [picksBuild, asksBuildType, asksPlatform, Task.text?, Task.list?, htype, hplatform,
      hprojects]
  cases as with
  | build => exact hbuild
  | test =>
      have htag : r.asksTag t = r.asksTag u := by
        simp only [asksTag, Task.list?, htags]
      have hsort : t.hasAttribute "talos_try_name" = u.hasAttribute "talos_try_name" := by
        rw [Task.hasAttribute, Task.hasAttribute, htalos]
      have hasks : r.asksSuite t = r.asksSuite u := by
        rw [asksSuite, asksSuite, hsort, suitesAsk_of_agree hunittest hchunk htests,
          suitesAsk_of_agree htalos hchunk htests]
      rw [picksAs, picksAs, picksTest_eq, picksTest_eq, hbuild, htag, hasks]
  | job => simp only [picksAs, picksJob, Task.text?, hplatform, hjob]

/-- **Flags only reach the tasks that they are about**, and of a task nothing counts but its kind
and nine attributes: its label, its payload and all other attributes are never looked at. -/
theorem picks_eq_of_agree :
    (∀ (r s : Request) (t : Task), r.kinds = s.kinds → r.DecidedAlike s t) ∧
    ∀ (r : Request) (t u : Task), t.kind = u.kind →
      (∀ name ∈ matchedAttributes, t.attribute? name = u.attribute? name) →
      r.picks t = r.picks u := by
  refine ⟨fun r s t hkinds => decidedAlike hkinds t, fun r t u hkind hattributes => ?_⟩
  have has : r.picksAs t = r.picksAs u := funext (picksAs_of_agree hattributes r)
  rw [picks, picks, picksIn, picksIn, hkind, has]

/-- A unit test that is picked stays so when talos tests, jobs and more runs are asked for besides,
and under another label, with a payload and with a further attribute. -/
theorem picks_eq_of_agree_besides :
    ∃ (r s : Request) (t u : Task), s = { r with talos := .all, jobs := .all, testRuns := 3 } ∧
      t.IsOf r.kinds.test ∧ t.hasAttribute "talos_try_name" = false ∧
      u = { t.withAttribute "owner" (.text "a") with label := "b", payload := .bool true } ∧
      t.kind = u.kind ∧ (∀ name ∈ matchedAttributes, t.attribute? name = u.attribute? name) ∧
      r.picks t = true ∧ s.picks t = true ∧ s.picks u = true := by
  have hpicks : ∃ (r : Request) (t u : Task),
      t.IsOf r.kinds.test ∧ t.hasAttribute "talos_try_name" = false ∧
      u = { t.withAttribute "owner" (.text "a") with label := "b", payload := .bool true } ∧
      t.kind = u.kind ∧ (∀ name ∈ matchedAttributes, t.attribute? name = u.attribute? name) ∧
      r.picks t = true :=
    ⟨{ nothing .standard with
        buildTypes := [.opt]
        platforms := .only ["linux64"]
        unittests := .only [⟨"xpcshell", .start "xpcshell", [], none, none⟩] },
      ⟨"a", some "test", .ofList [("build_platform", .text "linux64"), ("build_type", .text "opt"),
        ("unittest_try_name", .text "xpcshell")], .null⟩,
      _, by decide, by decide, rfl, rfl, by decide, by decide⟩
  obtain ⟨r, t, u, htest, htalos, hu, hkind, hattributes, hpicked⟩ := hpicks
  have hrequests : r.picks t =
      ({ r with talos := .all, jobs := .all, testRuns := 3 } : Request).picks t :=
    (picks_eq_of_agree.1 r { r with talos := .all, jobs := .all, testRuns := 3 } t rfl).unittest
      htest htalos rfl rfl rfl rfl
  have htasks := picks_eq_of_agree.2 { r with talos := .all, jobs := .all, testRuns := 3 } t u hkind
    hattributes
  exact ⟨r, _, t, u, rfl, htest, htalos, hu, hkind, hattributes, hpicked, hrequests ▸ hpicked,
    htasks ▸ hrequests ▸ hpicked⟩

end Request

end PushPlan
