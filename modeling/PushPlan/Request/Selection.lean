import PushPlan.Request.Items

/-!
# PushPlan.Request.Selection

Selections: everything, or only what is listed.

1. The word `all` selects everything and `none` nothing; any other value is a
   comma list of names, of which only first occurrences count.
2. Where a flag may be repeated, one `all` is enough; otherwise the lists are
   joined.
-/

namespace PushPlan.Request

/-- Everything, or only the listed items. -/
inductive Selection (α : Type) where
  | all
  | only (items : List α)
deriving DecidableEq

namespace Selection

variable {α : Type}

/-- The selection of nothing. -/
def nothing : Selection α := .only []

/-- Whether everything is selected. -/
def isAll : Selection α → Bool
  | .all => true
  | .only _ => false

/-- Whether nothing is selected. -/
def isNothing : Selection α → Bool
  | .all => false
  | .only items => items.isEmpty

/-- The listed items, if the selection lists any. -/
def items? : Selection α → Option (List α)
  | .all => none
  | .only items => some items

end Selection

/-! ## Reading -/

/-- The selection that a value spells. -/
def readNames (value : String) : Selection String :=
  if value = "all" then .all
  else if value = "none" then .nothing
  else .only (firsts (items value.toList))

/-- Joins the selections of several values, given the names listed so far. -/
def joinNames (listed : List String) : List String → Selection String
  | [] => .only listed
  | value :: values =>
    match readNames value with
    | .all => .all
    | .only names => joinNames (names.foldl pushNew listed) values

/-- The selection of a flag that may be repeated; without a value, everything. -/
def readRepeated (values : List String) : Selection String :=
  if values.isEmpty then .all else joinNames [] values

end PushPlan.Request
