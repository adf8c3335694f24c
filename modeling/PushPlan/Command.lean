/-!
# PushPlan.Command

What can be asked for on the command line: one of five commands, each with
its options, and the options that all of them share.
-/

namespace PushPlan

/-- How results are written. -/
inductive OutputFormat where
  | text
  | json
deriving DecidableEq

/-- The format of a word. -/
def OutputFormat.ofWord? : String → Option OutputFormat
  | "text" => some .text
  | "json" => some .json
  | _ => none

/-- The options that all commands share. -/
structure Options where
  /-- Whether status lines are left out. -/
  quiet : Bool := false
  /-- How results are written. -/
  format : OutputFormat := .text
  /-- The folder to work in. -/
  directory : Option String := none
  /-- The settings file; without one, the nearest counts. -/
  config : Option String := none
deriving DecidableEq

/-- What to write a settings file with. -/
structure Command.InitOptions where
  /-- Whether a file that is there is replaced. -/
  force : Bool
  /-- Whether TOML is written in place of YAML. -/
  toml : Bool
  /-- Where to write to. -/
  output : Option String
deriving DecidableEq

/-- What to select tasks with. -/
structure Command.SelectOptions where
  /-- The file of the task graph. -/
  graph : String
  /-- The name of the strategy. -/
  strategy : String
  /-- The file of the parameters. -/
  parameters : Option String
  /-- The project, whatever the parameters say. -/
  project : Option String
  /-- The message, whatever the parameters say. -/
  message : Option String
deriving DecidableEq

/-- What to do. -/
inductive Command where
  /-- Write a settings file. -/
  | init (options : Command.InitOptions)
  /-- Select the tasks of a task graph. -/
  | select (options : Command.SelectOptions)
  /-- Show what the request in a message asks for, and what it runs of a task graph. -/
  | request (message : String) (graph : Option String)
  /-- List the strategies. -/
  | strategies
  /-- Check the settings. -/
  | validate
deriving DecidableEq

/-- A command with its options. -/
structure Invocation where
  options : Options
  command : Command
deriving DecidableEq

end PushPlan
