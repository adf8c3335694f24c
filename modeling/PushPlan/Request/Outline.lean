import PushPlan.Request
import PushPlan.Yaml.Printer

/-!
# PushPlan.Request.Outline

A request in YAML, for people to read.  A selection is the word `all`, or the
list of its items with the tag `only`.
-/

namespace PushPlan

open Request Yaml

namespace Request

/-- A selection, given how an item is written. -/
def Selection.outline {α : Type} (item : α → Block) : Selection α → Block
  | .all => .text "all"
  | .only items => .list (some "only") (items.map item)

/-- What a suite list asks for in one place. -/
def SuiteSpec.outline (s : SuiteSpec) : Block :=
  .record
    [("name", .text s.name),
      ("pattern", .text s.pattern.render),
      ("literals", .texts s.literals),
      ("platforms", .ofOption .texts s.platforms),
      ("only_chunks", .ofOption
        (fun chunks => .list none (chunks.toList.map fun n => .scalar (toString n))) s.chunks)]

/-- A request, its fields in the order of its parts. -/
def outline (r : Request) : Block :=
  .record
    [("build_types", .texts (r.buildTypes.map BuildType.word)),
      ("platforms", r.platforms.outline .text),
      ("unittests", r.unittests.outline SuiteSpec.outline),
      ("talos", r.talos.outline SuiteSpec.outline),
      ("jobs", r.jobs.outline .text),
      ("trigger_tests", .scalar (toString r.testRuns)),
      ("talos_trigger_tests", .scalar (toString r.talosRuns)),
      ("notifications", .ofOption .text r.notifications),
      ("env", .texts r.env),
      ("profile", .bool r.profile),
      ("tag", .ofOption .text r.tag),
      ("no_retry", .bool r.noRetry),
      ("interactive", .bool r.interactive)]

end Request

end PushPlan
