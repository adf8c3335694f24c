import PushPlan.Command
import PushPlan.Command.Outcome
import PushPlan.Parameters.Document
import PushPlan.Request.Document
import PushPlan.Request.Outline
import PushPlan.Schedule

/-!
# PushPlan.Command.Run

Running commands on a file tree.

1. A command first enters the folder to work in.
2. Selecting, showing a request and listing strategies compute first and print
   then: a failure prints nothing, and the options on printing change nothing
   else.
3. They use the settings file of the command line, else the nearest, else the
   standard settings.  Checking settings looks in the same places, but fails
   where there is no file.
4. Writing a settings file never replaces a file unless told to.
-/

namespace PushPlan.Command

/-- Where a command runs: a file tree and the folder to work in. -/
structure World where
  tree : FileTree
  folder : Place

namespace World

/-- The path of the folder to work in. -/
def path (w : World) : String := Place.path w.folder

/-- The world after entering a folder. -/
def enter (w : World) : Option String → Except Failure World
  | none => .ok w
  | some directory =>
    match w.tree.enter w.folder directory with
    | .ok folder => .ok { w with folder }
    | .error e => .error (.noFolder e)

/-- The settings that hold, with the path of their file. -/
def settings [Formats] (w : World) (config : Option String) :
    Except SettingsError (Settings × Option String) :=
  match config with
  | some path => (Settings.load w.tree w.folder path).map fun s => (s, some path)
  | none => Settings.loadNearest w.tree w.folder w.path

end World

/-! ## Selecting -/

/-- Tasks that were selected. -/
structure Selected where
  strategy : String
  labels : List String
  total : Nat
deriving DecidableEq

namespace SelectOptions

/-- The parameters of the file, with those of the command line in their place. -/
def parametersOf [Formats] (o : SelectOptions) (w : World) : Except DocumentError Parameters := do
  let p ←
    match o.parameters with
    | some path => Parameters.load w.tree w.folder path
    | none => .ok .empty
  let p := match o.project with
    | some project => p.withProject project
    | none => p
  return match o.message with
    | some message => p.withMessage message
    | none => p

/-- Selects tasks. -/
def run [Formats] (o : SelectOptions) (w : World) (config : Option String) :
    Except Failure Selected := do
  let (s, _) ← (w.settings config).mapError .settings
  let g ← (TaskGraph.load w.tree w.folder o.graph).mapError .taskGraph
  let p ← (o.parametersOf w).mapError .parameters
  let labels ← ((Registry.ofSettings s).select o.strategy g p).mapError .selection
  return ⟨o.strategy, labels, g.size⟩

end SelectOptions

/-- Selected tasks as a value. -/
def Selected.toValue (s : Selected) : Value :=
  .record
    [("strategy", .text s.strategy), ("target_tasks", .ofTexts s.labels),
      ("total", .int s.total)]

/-- Prints selected tasks. -/
def Selected.print [Formats] (o : Options) (s : Selected) : Output :=
  match o.format with
  | .json => { results := line (Formats.json s.toValue) }
  | .text =>
    { results := unlines s.labels
      status :=
        if o.quiet then ""
        else
          success (toString s.labels.length ++ " of " ++ toString s.total ++
            " tasks selected by '" ++ s.strategy ++ "'") }

/-! ## Requests -/

/-- A request, with what it runs of a task graph if there is one. -/
structure Requested where
  request : Request
  scheduled : Option (List Scheduled)
deriving DecidableEq

/-- Reads a message. -/
def runRequest [Formats] (message : String) (graph : Option String) (w : World)
    (config : Option String) : Except Failure Requested := do
  let (s, _) ← (w.settings config).mapError .settings
  let r := (Request.read s.conventions message).1
  match graph with
  | none => return ⟨r, none⟩
  | some path =>
    let g ← (TaskGraph.load w.tree w.folder path).mapError .taskGraph
    return ⟨r, some (r.schedule g)⟩

/-- A request and what it runs as a value. -/
def Requested.toValue (q : Requested) : Value :=
  .record
    [("options", q.request.toValue),
      ("tasks", .ofOption (fun l => .list (l.map Scheduled.toValue)) q.scheduled)]

/-- A scheduled task on a line of its own. -/
def scheduledLine (s : Scheduled) : String :=
  "  " ++ s.label ++ if s.runs > 1 then " x" ++ toString s.runs else ""

/-- Prints a request and what it runs. -/
def Requested.print [Formats] (o : Options) (q : Requested) : Output :=
  match o.format with
  | .json => { results := line (Formats.json q.toValue.canonical) }
  | .text =>
    let options := line "Try options" ++ Formats.yaml q.request.outline
    match q.scheduled with
    | none => { results := options }
    | some tasks =>
      { results := options ++ line "" ++ line "Tasks" ++ unlines (tasks.map scheduledLine)
        status := if tasks.isEmpty && !o.quiet then notice "no tasks selected" else "" }

/-! ## Strategies -/

/-- The strategies of settings, with the path of their file. -/
structure Listing where
  settings : Settings
  path : Option String
deriving DecidableEq

/-- What a strategy of the given name goes by. -/
def settingsLine? (s : Settings) (name : String) : Option String :=
  if name = Registry.byProjectName then
    some ("integration: " ++ commaList s.projects.integration.toList ++ "; release: " ++
      commaList s.projects.release.toList)
  else if name = Registry.byRequestName then some ("marker: " ++ s.conventions.marker)
  else none

/-- The strategies by name, with what they go by. -/
def Listing.entries (l : Listing) : List (String × Option String) :=
  (Registry.ofSettings l.settings : Registry).names.map fun name =>
    (name, settingsLine? l.settings name)

/-- Lists the strategies. -/
def runStrategies [Formats] (w : World) (config : Option String) : Except Failure Listing := do
  let (s, path) ← (w.settings config).mapError .settings
  return ⟨s, path⟩

/-- A strategy as a value. -/
def entryValue : String × Option String → Value
  | (name, some settings) => .record [("name", .text name), ("settings", .text settings)]
  | (name, none) => .record [("name", .text name)]

/-- A strategy on a line of its own. -/
def entryLine : String × Option String → String
  | (name, some settings) => "  " ++ name ++ " " ++ settings
  | (name, none) => "  " ++ name

/-- Prints the strategies. -/
def Listing.print [Formats] (o : Options) (l : Listing) : Output :=
  match o.format with
  | .json => { results := line (Formats.json (.list (l.entries.map entryValue))) }
  | .text =>
    let heading :=
      if o.quiet then []
      else "Strategies" :: (l.path.map (detail "config")).toList
    { results := unlines (heading ++ l.entries.map entryLine) }

/-! ## Checking -/

/-- What came of checking settings, with the path of their file if there is one. -/
structure Report where
  path : Option String
  outcome : Except SettingsError Settings

/-- Checks the settings file of the command line, or the nearest. -/
def check [Formats] (w : World) (config : Option String) : Report :=
  match config.or (Settings.nearest? w.tree w.folder w.path) with
  | none => ⟨none, .error (.notFound w.path)⟩
  | some path => ⟨some path, Settings.load w.tree w.folder path⟩

namespace Report

/-- Why the check failed, if it did. -/
def error? (r : Report) : Option SettingsError :=
  match r.outcome with
  | .ok _ => none
  | .error e => some e

/-- A report as a value. -/
def toValue (r : Report) : Value :=
  .record
    [("error", .ofOption (fun e => .text e.message) r.error?),
      ("path", .ofOption .text r.path),
      ("valid", .bool r.error?.isNone)]

/-- The settings that passed, line by line. -/
def details (s : Settings) : List String :=
  [detail "integration" (commaList s.projects.integration.toList),
    detail "release" (commaList s.projects.release.toList),
    detail "try marker" s.conventions.marker]

/-- Prints a report. -/
def print [Formats] (o : Options) (r : Report) : Output :=
  match o.format with
  | .json => { results := line (Formats.json r.toValue) }
  | .text =>
    match r.outcome, r.path with
    | .error e, _ => { status := failed ("Configuration: " ++ e.message) }
    | .ok s, some path =>
      if o.quiet then {}
      else
        { results := unlines (details s)
          status := success ("Configuration is valid: " ++ path) }
    | .ok _, none => {}

/-- The outcome of a check. -/
def toOutcome [Formats] (o : Options) (r : Report) : Outcome :=
  { output := r.print o, failure := r.error?.map .invalid }

end Report

/-! ## Writing settings -/

namespace InitOptions

/-- The name of the file that is written if none is given. -/
def fileName (i : InitOptions) : String := if i.toml then Settings.tomlName else Settings.yamlName

/-- The path of the file that is written. -/
def target (i : InitOptions) (w : World) : String :=
  i.output.getD (Path.join w.path i.fileName)

/-- The text that is written. -/
def content [Formats] (i : InitOptions) : String :=
  if i.toml then Formats.toml Settings.standard.toValue else Settings.template

/-- The place and the text to write. -/
def run [Formats] (i : InitOptions) (w : World) : Except Failure (Place × String) :=
  let path := i.target w
  if w.tree.contains w.folder path && !i.force then .error (.occupied path)
  else
    match w.tree.target w.folder path with
    | .ok place => .ok (place, i.content)
    | .error e => .error (.unwritable e)

/-- The outcome of writing a settings file. -/
def toOutcome [Formats] (i : InitOptions) (o : Options) (w : World) : Outcome :=
  match i.run w with
  | .error e => .ofFailure e
  | .ok written =>
    { output := { status := if o.quiet then "" else success ("Created " ++ i.target w) }
      written := some written }

end InitOptions

/-! ## All commands -/

/-- Runs a command in a folder. -/
def runIn [Formats] (o : Options) (w : World) : Command → Outcome
  | .init i => i.toOutcome o w
  | .select s => .ofResult (Selected.print o) (s.run w o.config)
  | .request message graph => .ofResult (Requested.print o) (runRequest message graph w o.config)
  | .strategies => .ofResult (Listing.print o) (runStrategies w o.config)
  | .validate => (check w o.config).toOutcome o

/-- Runs an invocation. -/
def run [Formats] (w : World) (i : Invocation) : Outcome :=
  match w.enter i.options.directory with
  | .error e => .ofFailure e
  | .ok w => runIn i.options w i.command

end PushPlan.Command
