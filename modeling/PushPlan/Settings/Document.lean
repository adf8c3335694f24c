import PushPlan.Settings
import PushPlan.Shape

/-!
# PushPlan.Settings.Document

Settings as document values.  Every field may be left out, which sets what is
standard; a field that is there replaces the standard as a whole.
-/

namespace PushPlan

open Shape

/-! ## Reading -/

/-- Reads a list of texts. -/
def Shape.texts (d : Dialect) : Reader (List String) := list d (Shape.text d)

/-- Reads a set of texts. -/
def Shape.textSet (d : Dialect) : Reader (SortedSet String) := fun v =>
  (texts d v).map .ofList

/-- Reads a map to lists of texts. -/
def Shape.textMap (d : Dialect) : Reader (SortedMap String (List String)) := map d (texts d)

namespace ProjectClasses

/-- The names of the fields, in the order in which a list holds them. -/
def fieldNames : List String := ["integration", "release"]

/-- Takes one field. -/
def set (d : Dialect) (name : String) (v : Value) (p : ProjectClasses) :
    Except ShapeError ProjectClasses :=
  match name with
  | "integration" => do return { p with integration := ← textSet d v }
  | "release" => do return { p with release := ← textSet d v }
  | _ => .ok p

/-- Reads project classes. -/
def read (d : Dialect) : Reader ProjectClasses :=
  struct d "ProjectSets" fieldNames (set d) .standard

end ProjectClasses

namespace Conventions

/-- The names of the fields, in the order in which a list holds them. -/
def fieldNames : List String :=
  ["marker", "build_kinds", "test_kinds", "job_kinds", "ridealong_builds",
    "test_platform_aliases"]

/-- Takes one field. -/
def set (d : Dialect) (name : String) (v : Value) (c : Conventions) :
    Except ShapeError Conventions :=
  match name with
  | "marker" => do return { c with marker := ← Shape.text d v }
  | "build_kinds" => do return { c with kinds := { c.kinds with build := ← texts d v } }
  | "test_kinds" => do return { c with kinds := { c.kinds with test := ← texts d v } }
  | "job_kinds" => do return { c with kinds := { c.kinds with job := ← texts d v } }
  | "ridealong_builds" => do return { c with rideAlongs := ← textMap d v }
  | "test_platform_aliases" => do return { c with platformNames := ← textMap d v }
  | _ => .ok c

/-- Reads conventions. -/
def read (d : Dialect) : Reader Conventions :=
  struct d "TrySyntaxConfig" fieldNames (set d) .standard

end Conventions

namespace Settings

/-- The names of the fields, in the order in which a list holds them. -/
def fieldNames : List String := ["projects", "try_syntax"]

/-- Takes one field. -/
def set (d : Dialect) (name : String) (v : Value) (s : Settings) : Except ShapeError Settings :=
  match name with
  | "projects" => do return { s with projects := ← ProjectClasses.read d v }
  | "try_syntax" => do return { s with conventions := ← Conventions.read d v }
  | _ => .ok s

/-- Reads settings. -/
def read (d : Dialect) : Reader Settings :=
  struct d "SelectionConfig" fieldNames (set d) .standard

end Settings

/-! ## Writing -/

/-- Project classes as a value. -/
def ProjectClasses.toValue (p : ProjectClasses) : Value :=
  .record
    [("integration", .ofTexts p.integration.toList), ("release", .ofTexts p.release.toList)]

/-- A map to lists of texts as a value. -/
def Value.ofTextMap (m : SortedMap String (List String)) : Value :=
  .record (m.mapValues Value.ofTexts).toList

/-- Conventions as a value. -/
def Conventions.toValue (c : Conventions) : Value :=
  .record
    [("marker", .text c.marker),
      ("build_kinds", .ofTexts c.kinds.build),
      ("test_kinds", .ofTexts c.kinds.test),
      ("job_kinds", .ofTexts c.kinds.job),
      ("ridealong_builds", .ofTextMap c.rideAlongs),
      ("test_platform_aliases", .ofTextMap c.platformNames)]

/-- Settings as a value. -/
def Settings.toValue (s : Settings) : Value :=
  .record [("projects", s.projects.toValue), ("try_syntax", s.conventions.toValue)]

end PushPlan
