import PushPlan.Path

/-!
# PushPlan.FileTree

File trees.

1. A tree says what stands at each place, a place being the list of names
   that lead to it from the root; the root is a folder.
2. A path is walked from a folder, segment by segment; each segment needs a
   folder to start from, also an empty one and `.`, and `..` leads back.
3. A file is text or not; only text can be read.
-/

namespace PushPlan

/-! ## Failures -/

/-- Why a file cannot be read or written. -/
inductive FileError where
  /-- There is nothing at the path. -/
  | missing
  /-- There is a folder at the path. -/
  | folder
  /-- The path leads through something that is no folder. -/
  | notFolder
  /-- The file holds something other than text. -/
  | notText
deriving DecidableEq

/-- The wording of a failure. -/
def FileError.message : FileError → String
  | .missing => "No such file or directory (os error 2)"
  | .folder => "Is a directory (os error 21)"
  | .notFolder => "Not a directory (os error 20)"
  | .notText => "stream did not contain valid UTF-8"

/-! ## Trees -/

/-- What can stand at a place. -/
inductive FileEntry where
  | folder
  | text (content : String)
  | binary
deriving DecidableEq

/-- The way to a place: the names from the root. -/
abbrev Place := List String

namespace Place

/-- The place that a segment leads to. -/
def after (here : Place) (segment : String) : Place :=
  if !Path.isStep segment then here
  else if segment = ".." then here.dropLast
  else here ++ [segment]

/-- Where a path starts from a folder. -/
def start (folder : Place) (path : String) : Place :=
  if Path.isAbsolute path then [] else folder

/-- The place that a path leads to from a folder, if it leads through folders only. -/
def follow (folder : Place) (path : String) : Place :=
  (Path.segments path).foldl after (start folder path)

/-- The places on the way along some segments. -/
def trail (here : Place) : List String → List Place
  | [] => [here]
  | s :: ss => here :: trail (here.after s) ss

/-- The places on the way along a path from a folder. -/
def trailOf (folder : Place) (path : String) : List Place :=
  trail (start folder path) (Path.segments path)

/-- The path of a place. -/
def path (place : Place) : String := "/" ++ "/".intercalate place

end Place

/-- What stands at each place. -/
structure FileTree where
  entry? : Place → Option FileEntry

namespace FileTree

/-- What stands at a place; at the root there is always a folder. -/
def look (tree : FileTree) : Place → Option FileEntry
  | [] => some .folder
  | place => tree.entry? place

/-- Walks one segment from a place. -/
def step (tree : FileTree) (here : Place) (segment : String) : Except FileError Place :=
  match tree.look here with
  | none => .error .missing
  | some .folder => .ok (Place.after here segment)
  | some _ => .error .notFolder

/-- The place that a path leads to from a folder. -/
def locate (tree : FileTree) (folder : Place) (path : String) : Except FileError Place :=
  if path = "" then .error .missing
  else
    (Path.segments path).foldlM tree.step (Place.start folder path)

/-- What stands at the end of a path. -/
def find? (tree : FileTree) (folder : Place) (path : String) : Option FileEntry :=
  (tree.locate folder path).toOption.bind tree.look

/-- Whether a path leads to something. -/
def contains (tree : FileTree) (folder : Place) (path : String) : Bool :=
  (tree.find? folder path).isSome

/-- Whether a path leads to a file. -/
def isFile (tree : FileTree) (folder : Place) (path : String) : Bool :=
  match tree.find? folder path with
  | some (.text _) | some .binary => true
  | some .folder | none => false

/-! ## Reading and writing -/

/-- The text of the file that a path leads to. -/
def read (tree : FileTree) (folder : Place) (path : String) : Except FileError String := do
  match tree.look (← tree.locate folder path) with
  | some (.text content) => .ok content
  | some .binary => .error .notText
  | some .folder => .error .folder
  | none => .error .missing

/-- The folder that a path leads to. -/
def enter (tree : FileTree) (folder : Place) (path : String) : Except FileError Place := do
  let place ← tree.locate folder path
  match tree.look place with
  | some .folder => .ok place
  | some _ => .error .notFolder
  | none => .error .missing

/-- The tree with a text at a place. -/
def put (tree : FileTree) (place : Place) (content : String) : FileTree :=
  ⟨fun p => if p = place then some (.text content) else tree.entry? p⟩

/-- The place at which a text written to a path ends up: a file, or a place in a folder
at which there is nothing yet. -/
def target (tree : FileTree) (folder : Place) (path : String) : Except FileError Place := do
  let place ← tree.locate folder path
  match tree.look place, tree.look place.dropLast with
  | some .folder, _ => .error .folder
  | some _, _ => .ok place
  | none, some .folder => .ok place
  | none, some _ => .error .notFolder
  | none, none => .error .missing

end FileTree

end PushPlan
