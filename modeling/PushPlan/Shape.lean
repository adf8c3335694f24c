import PushPlan.Value
import PushPlan.Text.Quoted

/-!
# PushPlan.Shape

Reading document values as values of other types.

1. A structure is read from a record: fields that it does not have are
   skipped, fields are read in the order of the record, and the first failure
   decides.
2. Where the dialect allows it, a structure may be written as the list of its
   fields, of which the last ones may be left out.  Whether items beyond the
   fields are skipped or refused is also up to the dialect.
3. Where the dialect says so, an absent value reads as an empty text, list or
   record.
4. A field of a structure must not be repeated; of repeated names in a map
   the last counts.
-/

namespace PushPlan

/-! ## Failures -/

/-- Why a value cannot be read as a value of some type. -/
inductive ShapeError where
  /-- It is of another sort. -/
  | wrongSort (found : Value) (expected : String)
  /-- A field that has to be there is not. -/
  | missingField (name : String)
  /-- A field is there twice. -/
  | repeatedField (name : String)
  /-- A list has more items than the structure has fields. -/
  | tooLong (size : Nat)
  /-- A list lacks fields that have to be there. -/
  | tooShort (size : Nat) (expected : String)
  /-- It is none of the sorts that an attribute can be. -/
  | noAttribute
deriving DecidableEq

/-- How a value is named in a message. -/
def Value.describe : Value → String
  | .null => "null"
  | .bool b => "boolean `" ++ (if b then "true" else "false") ++ "`"
  | .int n => "integer `" ++ toString n ++ "`"
  | .fraction d => "floating point `" ++ d.render ++ "`"
  | .text s => "string " ++ Text.quoted s
  | .list _ => "sequence"
  | .record _ => "map"

/-- The wording of a failure. -/
def ShapeError.message : ShapeError → String
  | .wrongSort found expected => "invalid type: " ++ found.describe ++ ", expected " ++ expected
  | .missingField name => "missing field `" ++ name ++ "`"
  | .repeatedField name => "duplicate field `" ++ name ++ "`"
  | .tooLong size =>
    "invalid length " ++ toString size ++ ", expected fewer elements in array"
  | .tooShort size expected => "invalid length " ++ toString size ++ ", expected " ++ expected
  | .noAttribute => "data did not match any variant of untagged enum AttributeValue"

/-! ## Dialects -/

/-- What a document format allows beyond the plain reading. -/
structure Dialect where
  /-- A structure may be written as the list of its fields. -/
  positional : Bool
  /-- Such a list may hold more items than the structure has fields. -/
  surplus : Bool
  /-- An absent value reads as an empty one. -/
  absentIsEmpty : Bool
deriving DecidableEq

namespace Dialect

/-- The dialect of JSON documents. -/
def json : Dialect := ⟨true, false, false⟩

/-- The dialect of TOML documents. -/
def toml : Dialect := ⟨true, true, false⟩

/-- The dialect of YAML documents. -/
def yaml : Dialect := ⟨false, false, true⟩

end Dialect

namespace Shape

/-- A way to read a value as one of type `α`. -/
abbrev Reader (α : Type) := Value → Except ShapeError α

/-! ## Plain shapes -/

/-- Reads a text. -/
def text (d : Dialect) : Reader String
  | .text s => .ok s
  | .null => if d.absentIsEmpty then .ok "" else .error (.wrongSort .null "a string")
  | v => .error (.wrongSort v "a string")

/-- Reads a list, item by item. -/
def list {α : Type} (d : Dialect) (item : Reader α) : Reader (List α)
  | .list items => items.mapM item
  | .null => if d.absentIsEmpty then .ok [] else .error (.wrongSort .null "a sequence")
  | v => .error (.wrongSort v "a sequence")

/-- Reads the value of each field. -/
def fields {α : Type} (value : Reader α) :
    List (String × Value) → Except ShapeError (List (String × α)) :=
  List.mapM fun (name, v) => (value v).map fun a => (name, a)

/-- Reads a map, field by field. -/
def map {α : Type} (d : Dialect) (value : Reader α) : Reader (SortedMap String α)
  | .record fs => (fields value fs).map .ofList
  | .null => if d.absentIsEmpty then .ok .empty else .error (.wrongSort .null "a map")
  | v => .error (.wrongSort v "a map")

/-- Reads an optional value; null is none. -/
def optional {α : Type} (value : Reader α) : Reader (Option α)
  | .null => .ok none
  | v => (value v).map some

/-! ## Structures -/

/-- The first of some names that a record holds twice. -/
def repeated? (names : List String) : List (String × Value) → Option String
  | [] => none
  | (name, _) :: fs =>
    if name ∈ names ∧ fs.any (·.1 == name) then some name else repeated? names fs

/-- Takes the fields of a record one after the other. -/
def assign {α : Type} (set : String → Value → α → Except ShapeError α) (start : α)
    (fs : List (String × Value)) : Except ShapeError α :=
  fs.foldlM (fun a (name, v) => set name v a) start

/-- Reads a structure with the given field names, starting from defaults. -/
def struct {α : Type} (d : Dialect) (sort : String) (names : List String)
    (set : String → Value → α → Except ShapeError α) (start : α) : Reader α
  | .record fs =>
    match repeated? names fs with
    | some name => .error (.repeatedField name)
    | none => assign set start fs
  | .list items =>
    if d.positional then do
      let a ← assign set start (names.zip items)
      if d.surplus || items.length ≤ names.length then .ok a
      else .error (.tooLong items.length)
    else .error (.wrongSort (.list items) ("struct " ++ sort))
  | .null =>
    if d.absentIsEmpty then .ok start else .error (.wrongSort .null ("struct " ++ sort))
  | v => .error (.wrongSort v ("struct " ++ sort))

end Shape

end PushPlan
