import PushPlan.Request
import PushPlan.Task

/-!
# PushPlan.Request.Matching

Which tasks a request picks, and how often they run.

1. A task is matched by the class of its kind: as a test, else as a job of its
   own, else as a build.  A task without a kind, or of a kind in no class, is
   never picked.
2. A build is picked for its build type and platform, a job for its platform
   or its name.
3. A test is picked like a build if, beyond that, it has the tag that is asked
   for and a suite accepts it.
4. Where all platforms are asked for, the tasks that run on `try` or on all
   projects are picked.
5. A suite accepts a test by pattern and chunk, or by its full name; and only
   on the platforms that are asked for, a platform `linux64` standing for
   `linux64/opt` as well.

Only the kind and nine attributes of a task are looked at:

| attribute | holds |
|---|---|
| `build_type` | the build type |
| `build_platform` | the build platform |
| `run_on_projects` | the projects it runs on |
| `unittest_try_name`, `talos_try_name` | the name of its suite |
| `test_platform` | the platform it tests |
| `test_chunk` | its chunk of the suite |
| `job_try_name` | its name as a job |
| `tags` | its tags |
-/

namespace PushPlan

open Request Text

/-! ## Classes -/

/-- What a task is treated as. -/
inductive TaskClass where
  | build
  | test
  | job
deriving DecidableEq

namespace Kinds

/-- The kinds of a class. -/
def inClass (kinds : Kinds) : TaskClass → List String
  | .build => kinds.build
  | .test => kinds.test
  | .job => kinds.job

/-- The first of some classes that a kind belongs to. -/
def classIn? (kinds : Kinds) (order : List TaskClass) (kind : String) : Option TaskClass :=
  order.find? fun c => kind ∈ kinds.inClass c

end Kinds

/-- The order in which the classes are tried. -/
def TaskClass.order : List TaskClass := [.test, .job, .build]

/-! ## Suites -/

namespace Request

namespace SuiteSpec

/-- Whether a test is one of the chunks that are asked for. -/
def acceptsChunk (s : SuiteSpec) (t : Task) : Bool :=
  match s.chunks with
  | none => true
  | some chunks => ((t.attribute? "test_chunk").bind (·.asInteger?)).any chunks.contains

/-- Whether a platform filter stands for a test platform. -/
def standsFor (filter platform : String) : Bool :=
  platform == filter || startsWith (filter.toList ++ ['/']) platform.toList

/-- Whether a test is on a platform that is asked for. -/
def acceptsPlatform (s : SuiteSpec) (t : Task) : Bool :=
  match s.platforms with
  | none => true
  | some filters =>
    (t.text? "test_platform").any fun platform => filters.any fun f => standsFor f platform

/-- Whether a test of a given name is what is asked for. -/
def accepts (s : SuiteSpec) (name : String) (t : Task) : Bool :=
  ((s.pattern.fits name && s.acceptsChunk t) || s.literals.contains name) && s.acceptsPlatform t

end SuiteSpec

/-- Whether suites ask for a test whose name is under the given key. -/
def suitesAsk (suites : Selection SuiteSpec) (key : String) (t : Task) : Bool :=
  match suites with
  | .all => true
  | .only specs => (t.text? key).any fun name => specs.any fun s => s.accepts name t

/-! ## Tasks -/

/-- Whether a test is a talos test. -/
def isTalos (t : Task) : Bool := t.hasAttribute "talos_try_name"

/-- Whether a task has a build type that is asked for. -/
def asksBuildType (r : Request) (t : Task) : Bool :=
  ((t.text? "build_type").bind BuildType.ofWord?).any r.buildTypes.contains

/-- Whether a task is on a platform that is asked for. -/
def asksPlatform (r : Request) (t : Task) : Bool :=
  match r.platforms with
  | .all => (t.list? "run_on_projects").any fun l => l.any fun p => p == "try" || p == "all"
  | .only platforms => (t.text? "build_platform").any platforms.contains

/-- Whether a task has the tag that is asked for. -/
def asksTag (r : Request) (t : Task) : Bool :=
  match r.tag with
  | none => true
  | some tag => (t.list? "tags").any (·.contains tag)

/-- Whether a task is picked as a build. -/
def picksBuild (r : Request) (t : Task) : Bool := r.asksBuildType t && r.asksPlatform t

/-- Whether a task is picked as a test. -/
def picksTest (r : Request) (t : Task) : Bool :=
  r.picksBuild t && r.asksTag t &&
    if isTalos t then suitesAsk r.talos "talos_try_name" t
    else suitesAsk r.unittests "unittest_try_name" t

/-- Whether a task is picked as a job of its own. -/
def picksJob (r : Request) (t : Task) : Bool :=
  match r.jobs with
  | .all => true
  | .only jobs =>
    (t.text? "build_platform").any jobs.contains || (t.text? "job_try_name").any jobs.contains

/-- Whether a task is picked as one of a class. -/
def picksAs (r : Request) (t : Task) : TaskClass → Bool
  | .build => r.picksBuild t
  | .test => r.picksTest t
  | .job => r.picksJob t

/-- Whether a task is picked when the classes are tried in the given order. -/
def picksIn (r : Request) (order : List TaskClass) (t : Task) : Bool :=
  (t.kind.bind (r.kinds.classIn? order)).any (r.picksAs t)

/-- Whether a task is picked. -/
def picks (r : Request) (t : Task) : Bool := r.picksIn TaskClass.order t

/-! ## Runs -/

/-- Whether a task counts as a test. -/
def isTest (r : Request) (t : Task) : Bool := t.kind.any r.kinds.test.contains

/-- How often a task runs if it is picked; only tests run more than once. -/
def runs (r : Request) (t : Task) : UInt32 :=
  if r.isTest t then max (if isTalos t then r.talosRuns else r.testRuns) 1 else 1

end Request

end PushPlan
