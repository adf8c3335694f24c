import PushPlan.Value
import PushPlan.Text.Hex

/-!
# PushPlan.Json.Printer

Writing JSON text:

1. quotes, backslashes and control characters are escaped, by a letter where
   one exists and by four lower-case hexadecimal digits otherwise; every other
   character is written as it is;
2. `render` writes a value on one line without blanks;
3. `pretty` writes one item or field a line, two spaces deeper than its
   bracket, and empty brackets on one line.

Fields are written in the order in which the record holds them.
-/

namespace PushPlan.Json

open Text

/-! ## Strings -/

/-- How one character is written in a string. -/
def escape (c : Char) : List Char :=
  match c with
  | '"' => ['\\', '"']
  | '\\' => ['\\', '\\']
  | '\n' => ['\\', 'n']
  | '\r' => ['\\', 'r']
  | '\t' => ['\\', 't']
  | c =>
    if c.toNat = 0x08 then ['\\', 'b']
    else if c.toNat = 0x0C then ['\\', 'f']
    else if c.toNat < 0x20 then '\\' :: 'u' :: (hexDigits 4 c.toNat).toList
    else [c]

/-- A text as a JSON string. -/
def quote (s : String) : String := "\"" ++ String.ofList (s.toList.flatMap escape) ++ "\""

/-! ## One line -/

mutual

/-- A value on one line. -/
def render : Value → String
  | .null => "null"
  | .bool b => if b then "true" else "false"
  | .int n => toString n
  | .fraction d => d.render
  | .text s => quote s
  | .list items => "[" ++ ",".intercalate (renderItems items) ++ "]"
  | .record fields => "\x7b" ++ ",".intercalate (renderFields fields) ++ "\x7d"

/-- Each item on one line. -/
def renderItems : List Value → List String
  | [] => []
  | v :: vs => render v :: renderItems vs

/-- Each field on one line. -/
def renderFields : List (String × Value) → List String
  | [] => []
  | (k, v) :: fs => (quote k ++ ":" ++ render v) :: renderFields fs

end

/-! ## Many lines -/

/-- The start of a line at a nesting depth. -/
def margin (depth : Nat) : String := .ofList (List.replicate (2 * depth) ' ')

/-- Lines between brackets, one deeper than these. -/
def block (depth : Nat) (opening closing : String) (lines : List String) : String :=
  if lines.isEmpty then opening ++ closing
  else
    opening ++ "\n" ++ ",\n".intercalate (lines.map (margin (depth + 1) ++ ·)) ++ "\n" ++
      margin depth ++ closing

mutual

/-- A value over many lines, at a nesting depth. -/
def prettyAt (depth : Nat) : Value → String
  | .list items => block depth "[" "]" (prettyItems (depth + 1) items)
  | .record fields => block depth "\x7b" "\x7d" (prettyFields (depth + 1) fields)
  | v => render v

/-- Each item over many lines. -/
def prettyItems (depth : Nat) : List Value → List String
  | [] => []
  | v :: vs => prettyAt depth v :: prettyItems depth vs

/-- Each field over many lines. -/
def prettyFields (depth : Nat) : List (String × Value) → List String
  | [] => []
  | (k, v) :: fs => (quote k ++ ": " ++ prettyAt depth v) :: prettyFields depth fs

end

/-- A value over many lines. -/
def pretty (v : Value) : String := prettyAt 0 v

end PushPlan.Json
