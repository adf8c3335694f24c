import PushPlan.Request
import PushPlan.Value

/-!
# PushPlan.Request.Document

A request as a document value.  A selection is the word `all`, or a record
whose field `only` lists the items; what is absent is null.
-/

namespace PushPlan

open Request

namespace Request

/-- A selection, given how an item is written. -/
def Selection.toValue {α : Type} (item : α → Value) : Selection α → Value
  | .all => .text "all"
  | .only items => .record [("only", .list (items.map item))]

/-- What a suite list asks for in one place. -/
def SuiteSpec.toValue (s : SuiteSpec) : Value :=
  .record
    [("name", .text s.name),
      ("pattern", .text s.pattern.render),
      ("literals", .ofTexts s.literals),
      ("platforms", .ofOption .ofTexts s.platforms),
      ("only_chunks", .ofOption (fun chunks => .list (chunks.toList.map .int)) s.chunks)]

/-- A request, its fields in the order of its parts. -/
def toValue (r : Request) : Value :=
  .record
    [("build_types", .ofTexts (r.buildTypes.map BuildType.word)),
      ("platforms", r.platforms.toValue .text),
      ("unittests", r.unittests.toValue SuiteSpec.toValue),
      ("talos", r.talos.toValue SuiteSpec.toValue),
      ("jobs", r.jobs.toValue .text),
      ("trigger_tests", .int r.testRuns.toNat),
      ("talos_trigger_tests", .int r.talosRuns.toNat),
      ("notifications", .ofOption .text r.notifications),
      ("env", .ofTexts r.env),
      ("profile", .bool r.profile),
      ("tag", .ofOption .text r.tag),
      ("no_retry", .bool r.noRetry),
      ("interactive", .bool r.interactive)]

/-- A warning: its wording and what it is about. -/
def Warning.toValue (w : Warning) : Value :=
  .record (("message", .text w.message) :: w.details.map fun (name, s) => (name, .text s))

end Request

end PushPlan
