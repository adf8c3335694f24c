import PushPlan.Format
import PushPlan.Settings.Document
import PushPlan.Settings.Legal
import PushPlan.Settings.Template

/-!
# PushPlan.Settings.Search

Finding and loading settings files.

1. Levels are a folder and all folders above it.  At a level, the names of
   settings files are tried in order in the folder itself, then in its folder
   `taskcluster`; the first that is a file is it.
2. The nearest level with a settings file counts.  Where it does not load, the
   load fails: neither a farther file nor the standard takes its place.
3. Without any settings file the standard settings hold.
-/

namespace PushPlan

/-- Why settings cannot be used. -/
inductive SettingsError where
  /-- The file is no document of settings. -/
  | document (e : DocumentError)
  /-- The settings are illegal. -/
  | illegal (e : Illegality)
  /-- There is no settings file at or above a folder. -/
  | notFound (folder : String)
deriving DecidableEq

/-- The wording of a failure. -/
def SettingsError.message : SettingsError → String
  | .document e => e.message
  | .illegal e => e.message
  | .notFound folder => "Configuration file not found at " ++ folder

namespace Settings

/-! ## Loading -/

/-- Settings that pass the check. -/
def checked (s : Settings) : Except SettingsError Settings :=
  match s.fault? with
  | some e => .error (.illegal e)
  | none => .ok s

/-- The settings that a text of some format spells. -/
def parse [Formats] (format : Format) (text : String) : Except DocumentError Settings :=
  format.decode (read format.dialect) (Formats.texts? format text)

/-- Loads the settings file that a path leads to. -/
def load [Formats] (tree : FileTree) (folder : Place) (path : String) :
    Except SettingsError Settings :=
  match tree.read folder path with
  | .error e => .error (.document (.unreadable e))
  | .ok text =>
    match parse (.ofPath path) text with
    | .error e => .error (.document e)
    | .ok s => s.checked

/-! ## Finding -/

/-- The places of settings files at a level, the preferred ones first. -/
def candidatesAt (level : String) : List String :=
  [level, Path.join level folderName].flatMap fun base => fileNames.map (Path.join base)

/-- The places of settings files at and above a folder, the preferred ones first. -/
def candidates (start : String) : List String := (Path.ancestors start).flatMap candidatesAt

/-- The settings file that counts at a folder. -/
def nearest? (tree : FileTree) (folder : Place) (start : String) : Option String :=
  (candidates start).find? fun path => tree.isFile folder path

/-- The settings that hold at a folder, with the path of their file. -/
def loadNearest [Formats] (tree : FileTree) (folder : Place) (start : String) :
    Except SettingsError (Settings × Option String) :=
  match nearest? tree folder start with
  | some path => (load tree folder path).map fun s => (s, some path)
  | none => .ok (.standard, none)

end Settings

end PushPlan
