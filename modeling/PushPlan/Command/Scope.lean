import PushPlan.Command.Run

/-!
# PushPlan.Command.Scope

The places that a command may look at: those of the files that it names and
of the settings files that could count, and all places on the way there.
-/

namespace PushPlan.Command

/-- The paths that a command names. -/
def namedPaths : Command → List String
  | .init i => [i.output.getD i.fileName]
  | .select s => s.graph :: s.parameters.toList
  | .request _ graph => graph.toList
  | .strategies | .validate => []

/-- The place of the folder that an invocation works in. -/
def workplace (folder : Place) (i : Invocation) : Place :=
  match i.options.directory with
  | none => folder
  | some directory => folder.follow directory

/-- The places that an invocation may look at. -/
def scope (folder : Place) (i : Invocation) : List Place :=
  let here := workplace folder i
  let paths :=
    match i.options.config with
    | some path => path :: namedPaths i.command
    | none => Settings.candidates here.path ++ namedPaths i.command
  let entry := (i.options.directory.map folder.trailOf).getD []
  (entry ++ Place.trail [] here ++ paths.flatMap here.trailOf).eraseDups

end PushPlan.Command
