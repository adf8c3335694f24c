import PushPlan.FileTree
import PushPlan.Settings.Search
import PushPlan.Strategy.Registry
import PushPlan.TaskGraph.Document

/-!
# PushPlan.Command.Outcome

What a command comes to: what it prints, the file that it writes, and why it
failed, if it did.
-/

namespace PushPlan.Command

/-- Why a command failed. -/
inductive Failure where
  /-- The folder to work in cannot be entered. -/
  | noFolder (e : FileError)
  /-- The settings cannot be used. -/
  | settings (e : SettingsError)
  /-- The task graph cannot be read. -/
  | taskGraph (e : GraphReadError)
  /-- The parameters cannot be read. -/
  | parameters (e : DocumentError)
  /-- No tasks can be selected. -/
  | selection (e : SelectionError)
  /-- A file stands where one was to be written. -/
  | occupied (path : String)
  /-- The file cannot be written. -/
  | unwritable (e : FileError)
  /-- The settings that were to be checked cannot be used. -/
  | invalid (e : SettingsError)
deriving DecidableEq

/-- The wording of a failure. -/
def Failure.message : Failure → String
  | .noFolder e | .unwritable e => e.message
  | .settings e => e.message
  | .taskGraph e => e.message
  | .parameters e => e.message
  | .selection e => e.message
  | .occupied path =>
    "Configuration file already exists at " ++ path ++ ". Use --force to overwrite."
  | .invalid e => "configuration is invalid: " ++ e.message

/-- What is printed: results, and status lines. -/
structure Output where
  results : String := ""
  status : String := ""
deriving DecidableEq

/-- What a command comes to. -/
structure Outcome where
  output : Output := {}
  /-- The text that is written, and the place that it is written to. -/
  written : Option (Place × String) := none
  failure : Option Failure := none
deriving DecidableEq

namespace Outcome

/-- A failure that prints nothing and writes nothing. -/
def ofFailure (e : Failure) : Outcome := { failure := some e }

/-- The outcome of a result that is only printed. -/
def ofResult {α : Type} (print : α → Output) : Except Failure α → Outcome
  | .ok a => { output := print a }
  | .error e => ofFailure e

/-- The tree after a command. -/
def tree (o : Outcome) (before : FileTree) : FileTree :=
  match o.written with
  | none => before
  | some (place, content) => before.put place content

end Outcome

/-! ## Printing -/

/-- A line. -/
def line (s : String) : String := s ++ "\n"

/-- Lines one after the other. -/
def unlines (ls : List String) : String := String.join (ls.map line)

/-- The status line of a success. -/
def success (s : String) : String := line ("✓ " ++ s)

/-- The status line of a failure. -/
def failed (s : String) : String := line ("✗ " ++ s)

/-- The status line of something to notice. -/
def notice (s : String) : String := line ("! " ++ s)

/-- A named value on a line of its own. -/
def detail (name value : String) : String := "  " ++ name ++ ": " ++ value

/-- Names with commas between them; a dash if there are none. -/
def commaList (names : List String) : String :=
  let joined := ", ".intercalate names
  if joined = "" then "-" else joined

end PushPlan.Command
