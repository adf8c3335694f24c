import PushPlan.Sorted

/-!
# PushPlan.Settings

What a repository can set:

1. which projects count as integration and as release branches;
2. the conventions of requests in push messages: the marker that introduces
   one, the classes of task kinds, the platforms that ride along with others,
   and the display names of test platforms.

`Settings.standard` is what holds where nothing is set.
-/

namespace PushPlan

/-! ## Projects -/

/-- Which projects belong to the two named classes; a project may be in both or in neither. -/
structure ProjectClasses where
  /-- The integration branches. -/
  integration : SortedSet String
  /-- The release branches. -/
  release : SortedSet String
deriving DecidableEq

/-- The project classes that hold where none are set. -/
def ProjectClasses.standard : ProjectClasses where
  integration := .ofList ["mozilla-inbound", "autoland"]
  release := .ofList
    ["mozilla-central", "mozilla-aurora", "mozilla-beta", "mozilla-release", "mozilla-esr45"]

/-! ## Conventions of requests -/

/-- The kinds of task that a request treats as builds, as tests and as jobs of their own. -/
structure Kinds where
  build : List String
  test : List String
  job : List String
deriving DecidableEq

/-- The conventions by which push messages are read. -/
structure Conventions where
  /-- The text that introduces a request in a message. -/
  marker : String
  /-- The classes of task kinds. -/
  kinds : Kinds
  /-- Platforms that are asked for whenever the key platform is. -/
  rideAlongs : SortedMap String (List String)
  /-- Display names of test platforms, for platform filters. -/
  platformNames : SortedMap String (List String)
deriving DecidableEq

/-- The kinds that hold where none are set. -/
def Kinds.standard : Kinds where
  build :=
    ["build", "artifact-build", "hazard", "l10n", "valgrind", "static-analysis", "spidermonkey"]
  test := ["test", "desktop-test", "android-test"]
  job := ["source-check", "toolchain", "marionette-harness", "android-stuff"]

/-- The conventions that hold where none are set. -/
def Conventions.standard : Conventions where
  marker := "try:"
  kinds := .standard
  rideAlongs := .ofList [("linux", ["linux-l10n"]), ("linux64", ["linux64-l10n"])]
  platformNames := .ofList
    [("Linux", ["linux32"]), ("Linux x64", ["linux64"]), ("OS X 10.10", ["macosx64"]),
      ("Windows XP", ["windowsxp"]), ("Windows 7", ["windows7-32"]),
      ("Windows 8", ["windows8-64"]), ("Windows 10", ["windows10-64"])]

/-! ## Settings -/

/-- All that a repository can set. -/
structure Settings where
  projects : ProjectClasses
  conventions : Conventions
deriving DecidableEq

/-- The settings that hold where none are given. -/
def Settings.standard : Settings := ⟨.standard, .standard⟩

end PushPlan
