import PushPlan.Text.Line

/-!
# PushPlan.Request.Suite

Suite names and the patterns they stand for:

1. a pattern is tried against the suite name that a task carries: it asks for
   that very name, for a start, for a part, or for a family of names;
2. a family is a word, with or without `plain-` in front, and then anything
   on the same line;
3. some short names of unit test suites are aliases; every other name, and
   every talos name, stands for itself.
-/

namespace PushPlan.Request

open Text

/-! ## Patterns -/

/-- What a requested suite name asks for. -/
inductive SuitePattern where
  /-- The name itself. -/
  | exact (name : String)
  /-- Names that start so. -/
  | start (front : String)
  /-- Names that hold this. -/
  | part (middle : String)
  /-- Names that are `word` and more on the same line, `plain-` in front or not. -/
  | family (word : String)
deriving DecidableEq

namespace SuitePattern

/-- Whether a text is `word` and then no newline. -/
def isLineOf (word text : List Char) : Bool :=
  match dropFront? word text with
  | some rest => !rest.contains '\n'
  | none => false

/-- Whether a name fits a pattern. -/
def fits (p : SuitePattern) (name : String) : Bool :=
  match p with
  | .exact s => name == s
  | .start s => startsWith s.toList name.toList
  | .part s => occursIn s.toList name.toList
  | .family word =>
    isLineOf word.toList name.toList ||
      match dropFront? "plain-".toList name.toList with
      | some rest => isLineOf word.toList rest
      | none => false

/-- A pattern in text: stars stand for what is open, slashes enclose a family. -/
def render : SuitePattern → String
  | .exact s => s
  | .start s => s ++ "*"
  | .part s => "*" ++ s ++ "*"
  | .family word => "/^(plain-)?" ++ word ++ ".*$/"

/-- The word for a pattern's sort. -/
def sort : SuitePattern → String
  | .exact _ => "exact"
  | .start _ => "prefix"
  | .part _ => "contains"
  | .family _ => "regex"

end SuitePattern

/-! ## Aliases -/

/-- The aliases of unit test suites. -/
def unittestAliases : List (String × SuitePattern) :=
  [("cppunit", .start "cppunit"),
    ("crashtest", .start "crashtest"),
    ("crashtest-e10s", .start "crashtest-e10s"),
    ("e10s", .part "e10s"),
    ("firefox-ui-functional", .start "firefox-ui-functional"),
    ("firefox-ui-functional-e10s", .start "firefox-ui-functional-e10s"),
    ("gaia-js-integration", .part "gaia-js-integration"),
    ("gtest", .start "gtest"),
    ("jittest", .start "jittest"),
    ("jittests", .start "jittest"),
    ("jsreftest", .start "jsreftest"),
    ("jsreftest-e10s", .start "jsreftest-e10s"),
    ("marionette", .start "marionette"),
    ("marionette-e10s", .start "marionette-e10s"),
    ("mochitest", .start "mochitest"),
    ("mochitests", .start "mochitest"),
    ("mochitest-e10s", .start "mochitest-e10s"),
    ("mochitests-e10s", .start "mochitest-e10s"),
    ("mochitest-debug", .start "mochitest-debug-"),
    ("mochitest-a11y", .part "mochitest-a11y"),
    ("mochitest-bc", .start "mochitest-browser-chrome"),
    ("mochitest-browser-chrome", .start "mochitest-browser-chrome"),
    ("mochitest-e10s-bc", .start "mochitest-e10s-browser-chrome"),
    ("mochitest-e10s-browser-chrome", .start "mochitest-e10s-browser-chrome"),
    ("mochitest-chrome", .part "mochitest-chrome"),
    ("mochitest-dt", .start "mochitest-devtools-chrome"),
    ("mochitest-devtools-chrome", .start "mochitest-devtools-chrome"),
    ("mochitest-e10s-dt", .start "mochitest-e10s-devtools-chrome"),
    ("mochitest-gl", .start "mochitest-webgl"),
    ("mochitest-gl-e10s", .start "mochitest-webgl-e10s"),
    ("mochitest-jetpack", .start "mochitest-jetpack"),
    ("mochitest-media", .start "mochitest-media"),
    ("mochitest-media-e10s", .start "mochitest-media-e10s"),
    ("mochitest-vg", .start "mochitest-valgrind"),
    ("reftest", .family "reftest"),
    ("reftests", .family "reftest"),
    ("reftest-no-accel", .family "reftest-no-accel"),
    ("reftests-e10s", .family "reftest-e10s"),
    ("reftest-e10s", .family "reftest-e10s"),
    ("robocop", .start "robocop"),
    ("web-platform-test", .start "web-platform-tests"),
    ("web-platform-tests", .start "web-platform-tests"),
    ("web-platform-tests-e10s", .start "web-platform-tests-e10s"),
    ("web-platform-tests-reftests", .start "web-platform-tests-reftests"),
    ("web-platform-tests-reftests-e10s", .start "web-platform-tests-reftests-e10s"),
    ("xpcshell", .start "xpcshell")]

/-- The pattern of an alias. -/
def unittestAlias? (name : String) : Option SuitePattern := unittestAliases.lookup name

/-- A way to turn suite names into patterns. -/
abbrev Resolver := String → SuitePattern

/-- Unit test suites: an alias stands for its pattern, another name for itself. -/
def unittestPattern : Resolver := fun name => (unittestAlias? name).getD (.exact name)

/-- Talos suites: a name stands for itself. -/
def talosPattern : Resolver := .exact

end PushPlan.Request
