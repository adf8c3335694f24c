import PushPlan.Request.Flag
import PushPlan.Request.Spec

/-!
# PushPlan.Request

Requests in push messages, such as
`try: -b do -p linux64,win32 -u mochitest-1,xpcshell --rebuild 3`.

1. A message without the marker asks for nothing.  Of a message with one,
   only the rest of the line after the first marker is read.
2. Build types are letters: `d` for debug, `o` for optimised.
3. Platforms, unit tests and jobs default to all, talos tests to none.
4. A platform brings the ones that ride along with it.
5. A malformed run count counts as none.

Reading never fails: `Request.read` gives the request and the warnings about
what was passed over, in the order flags, build types, unit tests, talos
tests, run counts.
-/

namespace PushPlan

open Text Request

/-! ## Build types -/

/-- A variant of a build. -/
inductive BuildType where
  | debug
  | opt
deriving DecidableEq

namespace BuildType

/-- The build type of a word. -/
def ofWord? : String → Option BuildType
  | "debug" => some .debug
  | "opt" => some .opt
  | _ => none

/-- The word for a build type. -/
def word : BuildType → String
  | .debug => "debug"
  | .opt => "opt"

/-- The build type of a letter. -/
def ofLetter? : Char → Option BuildType
  | 'd' => some .debug
  | 'o' => some .opt
  | _ => none

end BuildType

/-- The build types among letters, debug first, and warnings about the other letters. -/
def readBuildTypes (letters : List Char) : List BuildType × List Warning :=
  let asked := letters.filterMap BuildType.ofLetter?
  ([BuildType.debug, .opt].filter (· ∈ asked),
    (letters.filter fun c => (BuildType.ofLetter? c).isNone).map .unknownBuildType)

/-! ## Platforms -/

/-- The platforms that a value asks for, each followed by those that ride along. -/
def readPlatforms (c : Conventions) (value : String) : Selection String :=
  match readNames value with
  | .all => .all
  | .only names =>
    .only (names.foldl
      (fun found name => ((c.rideAlongs.get? name).getD []).foldl pushNew (pushNew found name)) [])

/-! ## Run counts -/

/-- The run count that a flag gives; none counts as zero, as does a malformed one. -/
def readRuns (flag : String) : Option String → UInt32 × List Warning
  | none => (0, [])
  | some value =>
    match readCount value.toList with
    | .ok count => (count, [])
    | .error error => (0, [.malformedCount flag value error])

/-! ## Requests -/

/-- What a push message asks for. -/
structure Request where
  /-- The build types, debug first. -/
  buildTypes : List BuildType
  /-- The build platforms. -/
  platforms : Selection String
  /-- The unit test suites. -/
  unittests : Selection SuiteSpec
  /-- The talos suites. -/
  talos : Selection SuiteSpec
  /-- The jobs of their own. -/
  jobs : Selection String
  /-- How often each unit test runs. -/
  testRuns : UInt32
  /-- How often each talos test runs. -/
  talosRuns : UInt32
  /-- Who is told of the results. -/
  notifications : Option String
  /-- Entries for the environment of tasks. -/
  env : List String
  /-- Whether a performance profile is taken. -/
  profile : Bool
  /-- Only tests with this tag. -/
  tag : Option String
  /-- Whether failures stay without a second run. -/
  noRetry : Bool
  /-- Whether tasks are interactive. -/
  interactive : Bool
  /-- The classes of task kinds by which tasks are matched. -/
  kinds : Kinds
deriving DecidableEq

namespace Request

/-- The request that asks for nothing. -/
def nothing (kinds : Kinds) : Request where
  buildTypes := []
  platforms := .nothing
  unittests := .nothing
  talos := .nothing
  jobs := .nothing
  testRuns := 0
  talosRuns := 0
  notifications := none
  env := []
  profile := false
  tag := none
  noRetry := false
  interactive := false
  kinds

/-- The request that flag values spell, with the warnings about them. -/
def ofFlags (c : Conventions) (values : FlagValues) : Request × List Warning :=
  let (buildTypes, buildWarnings) := readBuildTypes (values.build.getD "").toList
  let (unittests, unittestWarnings) :=
    readSuites c unittestPattern (values.unittests.getD "all")
  let (talos, talosWarnings) := readSuites c talosPattern (values.talos.getD "none")
  let (testRuns, testWarnings) := readRuns "--rebuild" values.rebuild
  let (talosRuns, talosRunWarnings) := readRuns "--rebuild-talos" values.rebuildTalos
  ({ buildTypes
     platforms := readPlatforms c (values.platforms.getD "all")
     unittests
     talos
     jobs := readRepeated values.jobs
     testRuns
     talosRuns
     notifications := values.notifications
     env := values.env
     profile := values.profile
     tag := values.tag
     noRetry := values.noRetry
     interactive := values.interactive
     kinds := c.kinds },
    buildWarnings ++ unittestWarnings ++ talosWarnings ++ testWarnings ++ talosRunWarnings)

/-- The request that tokens spell. -/
def ofTokens (c : Conventions) (tokens : List String) : Request × List Warning :=
  let (values, flagWarnings) := collectFlags tokens
  let (request, warnings) := ofFlags c values
  (request, flagWarnings ++ warnings)

/-- The request in a push message. -/
def read (c : Conventions) (message : String) : Request × List Warning :=
  match tokensAfter? c.marker.toList message.toList with
  | some tokens => ofTokens c tokens
  | none => (nothing c.kinds, [])

end Request

end PushPlan
