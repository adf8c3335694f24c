import PushPlan.Text.Line

/-!
# PushPlan.Path

Paths in a file tree, as text.

1. Slashes separate segments; an empty segment and the segment `.` lead
   nowhere.
2. A path that starts with a slash is absolute, every other one relative to
   some folder.
3. Above a path are the paths that remain when its last segments are taken
   off one after the other, up to the root or to the empty path.
-/

namespace PushPlan.Path

open Text

/-! ## Segments -/

/-- Whether a segment leads somewhere. -/
def isStep (segment : String) : Bool := segment != "" && segment != "."

/-- The segments between the slashes of a path. -/
def segments (path : String) : List String := (splitAll '/' path.toList).map String.ofList

/-- Whether a path starts at the root. -/
def isAbsolute (path : String) : Bool := startsWith ['/'] path.toList

/-- The path that leads to a folder and from there along a second path. -/
def join (folder path : String) : String :=
  if isAbsolute path || folder == "" then path
  else if folder.toList.getLast? == some '/' then folder ++ path
  else folder ++ "/" ++ path

/-! ## Upwards -/

/-- The path of some segments in reverse, of which the last ones lead nowhere. -/
def ofReversed (segments : List String) : String :=
  match segments.dropWhile fun s => !isStep s with
  | [] => if segments.isEmpty then "" else "/"
  | steps => "/".intercalate steps.reverse

/-- The paths above the path of some segments in reverse, nearest first. -/
def above : List String → List String
  | [] => []
  | s :: rest => if isStep s then ofReversed rest :: above rest else above rest

/-- A path and all paths above it, nearest first. -/
def ancestors (path : String) : List String := path :: above (segments path).reverse

/-! ## Extensions -/

/-- The last step of a path; a path that ends in a step upwards has no name. -/
def name? (path : String) : Option String :=
  match (segments path).reverse.find? isStep with
  | some name => if name = ".." then none else some name
  | none => none

/-- What follows the last dot of a path's name; a dot at its front does not count. -/
def extension? (path : String) : Option String := do
  match splitAtLast? '.' (← name? path).toList with
  | none | some ([], _) => none
  | some (_, rest) => some (String.ofList rest)

end PushPlan.Path
