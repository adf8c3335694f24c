import PushPlan.Settings
import PushPlan.Text.Blank

/-!
# PushPlan.Settings.Legal

Which settings are legal:

1. no project has a blank name, and the marker is not blank;
2. no kind belongs to two classes, though a class may list a kind twice;
3. every display name stands for at least one test platform, and none of the
   platforms has a blank name.

Of several faults the first is reported, in the order integration projects,
release projects, marker, kinds, display names.
-/

namespace PushPlan

open Text

/-- What is illegal about settings. -/
inductive Illegality where
  /-- A project of the class under a field has a blank name. -/
  | blankProject (field : String)
  /-- The marker is blank. -/
  | blankMarker
  /-- A kind of the class under a field is in an earlier class as well. -/
  | sharedKind (field kind earlier : String)
  /-- A display name stands for no platform or for one with a blank name. -/
  | noPlatform (name : String)
deriving DecidableEq

namespace Illegality

/-- The field at fault. -/
def field : Illegality → String
  | .blankProject field => field
  | .blankMarker => "try_syntax.marker"
  | .sharedKind field .. => field
  | .noPlatform _ => "try_syntax.test_platform_aliases"

/-- What is wrong with the field. -/
def reason : Illegality → String
  | .blankProject _ => "project names cannot be empty"
  | .blankMarker => "marker cannot be empty"
  | .sharedKind _ kind earlier => "kind '" ++ kind ++ "' is already listed in " ++ earlier
  | .noPlatform name => "'" ++ name ++ "' must name at least one test platform"

/-- The wording of a fault. -/
def message (e : Illegality) : String := "Invalid configuration: " ++ e.field ++ " - " ++ e.reason

end Illegality

/-! ## Checks -/

/-- What is wrong with the projects of a class. -/
def ProjectClasses.fault? (field : String) (projects : SortedSet String) : Option Illegality :=
  if projects.toList.any allBlank then some (.blankProject field) else none

/-- What is wrong with the kinds of a class, given earlier classes by field. -/
def Kinds.fault? (field : String) (kinds : List String) (earlier : List (String × List String)) :
    Option Illegality :=
  kinds.findSome? fun kind =>
    (earlier.find? fun (_, others) => others.contains kind).map fun (other, _) =>
      .sharedKind field kind other

/-- What is wrong with a display name. -/
def Conventions.nameFault? (entry : String × List String) : Option Illegality :=
  if entry.2.isEmpty || entry.2.any allBlank then some (.noPlatform entry.1) else none

namespace Settings

/-- What is wrong with settings, if anything. -/
def fault? (s : Settings) : Option Illegality :=
  let c := s.conventions
  let builds := ("try_syntax.build_kinds", c.kinds.build)
  let tests := ("try_syntax.test_kinds", c.kinds.test)
  (ProjectClasses.fault? "projects.integration" s.projects.integration).or <|
    (ProjectClasses.fault? "projects.release" s.projects.release).or <|
      (if allBlank c.marker then some .blankMarker else none).or <|
        (Kinds.fault? tests.1 tests.2 [builds]).or <|
          (Kinds.fault? "try_syntax.job_kinds" c.kinds.job [builds, tests]).or <|
            c.platformNames.toList.findSome? Conventions.nameFault?

/-- Settings in which nothing is wrong. -/
def IsLegal (s : Settings) : Prop := s.fault? = none

instance (s : Settings) : Decidable s.IsLegal := inferInstanceAs (Decidable (_ = none))

end Settings

end PushPlan
