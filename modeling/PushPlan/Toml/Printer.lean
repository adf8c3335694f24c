import PushPlan.Text.Hex
import PushPlan.Toml.Reader

/-!
# PushPlan.Toml.Printer

Writing TOML text:

1. the fields of a table come in their order, first those that are no tables,
   then the tables, each under its header and after an empty line;
2. an array of more than one item has a line for each;
3. a table that holds only tables has no header of its own.

Values that TOML lacks, such as null, are left out.
-/

namespace PushPlan.Toml

open Text

/-! ## Scalars -/

/-- How one character is written in a string. -/
def escape (c : Char) : List Char :=
  match c with
  | '"' => ['\\', '"']
  | '\\' => ['\\', '\\']
  | '\n' => ['\\', 'n']
  | '\r' => ['\\', 'r']
  | '\t' => ['\\', 't']
  | c => if isAllowed c then [c] else '\\' :: 'u' :: (hexDigits 4 c.toNat).toList

/-- A text as a string. -/
def quote (s : String) : String := "\"" ++ String.ofList (s.toList.flatMap escape) ++ "\""

/-- A name as a key, bare if it can be. -/
def renderKey (name : String) : String :=
  if name != "" && name.toList.all isBare then name else quote name

/-! ## Values -/

mutual

/-- A value on the line of its key, if it can stand there. -/
def inline? : Value → Option String
  | .bool b => some (if b then "true" else "false")
  | .int n => some (toString n)
  | .fraction d => some d.render
  | .text s => some (quote s)
  | .list items =>
    match inlineItems items with
    | [] => some "[]"
    | [item] => some ("[" ++ item ++ "]")
    | items => some ("[\n" ++ String.join (items.map fun item => "    " ++ item ++ ",\n") ++ "]")
  | .null | .record _ => none

/-- The items that can stand in an array. -/
def inlineItems : List Value → List String
  | [] => []
  | v :: vs =>
    match inline? v with
    | some s => s :: inlineItems vs
    | none => inlineItems vs

end

/-- The lines of the fields that are no tables. -/
def renderFields (fields : List (String × Value)) : String :=
  String.join (fields.filterMap fun (name, v) =>
    (inline? v).map fun s => renderKey name ++ " = " ++ s ++ "\n")

/-! ## Tables -/

/-- Whether a table needs a header. -/
def needsHeader (fields : List (String × Value)) : Bool :=
  fields.isEmpty || fields.any fun (_, v) => (inline? v).isSome

mutual

/-- The texts of a table and the tables in it, given its path. -/
def tables (path : List String) : Value → List String
  | .record fields =>
    let text := renderFields fields
    let own :=
      if path.isEmpty then if text = "" then [] else [text]
      else if needsHeader fields then
        ["[" ++ ".".intercalate (path.map renderKey) ++ "]\n" ++ text]
      else []
    own ++ fieldTables path fields
  | _ => []

/-- The texts of the tables among fields, given the path of their table. -/
def fieldTables (path : List String) : List (String × Value) → List String
  | [] => []
  | (name, v) :: fields => tables (path ++ [name]) v ++ fieldTables path fields

end

/-- A record as a document. -/
def render (v : Value) : String := "\n".intercalate (tables [] v)

end PushPlan.Toml
