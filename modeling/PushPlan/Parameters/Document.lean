import PushPlan.Format
import PushPlan.Parameters

/-!
# PushPlan.Parameters.Document

Parameters as documents: a record whose values may be anything.
-/

namespace PushPlan.Parameters

/-- Reads parameters. -/
def read (d : Dialect) : Shape.Reader Parameters := fun v =>
  (Shape.map d (fun v => .ok v.canonical) v).map .mk

/-- The parameters that a text of some format spells. -/
def parse [Formats] (format : Format) (text : String) : Except DocumentError Parameters :=
  format.decode (read format.dialect) (Formats.entries? format text)

/-- Loads the parameters in the file that a path leads to. -/
def load [Formats] (tree : FileTree) (folder : Place) (path : String) :
    Except DocumentError Parameters :=
  match tree.read folder path with
  | .error e => .error (.unreadable e)
  | .ok text => parse (.ofPath path) text

end PushPlan.Parameters
