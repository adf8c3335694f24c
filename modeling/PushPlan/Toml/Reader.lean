import PushPlan.Text.Bracketed
import PushPlan.Toml.Scalar
import PushPlan.Toml.Table

/-!
# PushPlan.Toml.Reader

Reading TOML text:

1. a line gives a key its value, or opens a table to which the keys on the
   lines below belong; a comment may end it;
2. a key is bare or a string, or several of these with dots between them;
3. an array may go on over lines, with comments, and have a comma at its end;
   an inline table does neither.

Strings over several lines, dates and arrays of tables are refused.
-/

namespace PushPlan.Toml

open Text

/-! ## Blanks -/

/-- A text without the blanks at its front. -/
def skip (cs : List Char) : List Char := cs.dropWhile fun c => c == ' ' || c == '\t'

/-- Reads a comment, up to the end of its line. -/
def comment? : List Char → Option (List Char)
  | [] => some []
  | '\r' :: '\n' :: rest => some ('\n' :: rest)
  | c :: rest => if c = '\n' then some (c :: rest) else if isAllowed c then comment? rest else none

/-- Reads the end of a line. -/
def lineEnd? (cs : List Char) : Option (List Char) := do
  let rest ←
    match skip cs with
    | '#' :: rest => comment? rest
    | rest => some rest
  match rest with
  | [] => some []
  | '\n' :: rest | '\r' :: '\n' :: rest => some rest
  | _ => none

/-- Skips blanks, line ends and comments, at most `fuel` of them in a row. -/
def gap? : Nat → List Char → Option (List Char)
  | 0, _ => none
  | fuel + 1, cs =>
    match skip cs with
    | '\n' :: rest | '\r' :: '\n' :: rest => gap? fuel rest
    | '#' :: rest => do gap? fuel (← comment? rest)
    | rest => some rest

/-! ## Keys -/

/-- Whether a character may stand in a bare key. -/
def isBare (c : Char) : Bool := c.isAlphanum || c == '_' || c == '-'

/-- Reads one part of a key. -/
def part? (cs : List Char) : Option (String × List Char) :=
  if cs.head?.any fun c => c == '"' || c == '\'' then string? cs
  else
    match cs.span isBare with
    | ([], _) => none
    | (name, rest) => some (.ofList name, rest)

/-- Reads a key of at most `fuel` parts. -/
def key? : Nat → List Char → Option (List String × List Char)
  | 0, _ => none
  | fuel + 1, cs => do
    let (name, rest) ← part? (skip cs)
    match skip rest with
    | '.' :: rest =>
      let (path, rest) ← key? fuel rest
      some (name :: path, rest)
    | rest => some ([name], rest)

/-! ## Values -/

/-- Whether a character may stand in a word. -/
def isWordly (c : Char) : Bool := isBare c || c == '+' || c == '.'

/-- How the items of an array stand: on lines with comments, and perhaps a comma at the end. -/
def arrayRules : BracketRules := ⟨']', fun cs => gap? (cs.length + 1) cs, true⟩

/-- How the fields of an inline table stand: on one line, and no comma after the last. -/
def tableRules : BracketRules := ⟨'\x7d', fun cs => some (skip cs), false⟩

/-- Reads a key with its value. -/
def field? (value : List Char → Option (Value × List Char)) (cs : List Char) :
    Option ((List String × Value) × List Char) := do
  let (key, rest) ← key? (cs.length + 1) cs
  match rest with
  | '=' :: rest =>
    let (v, rest) ← value (skip rest)
    some ((key, v), rest)
  | _ => none

/-- Reads a value that nests less than `depth` deep. -/
def value? : Nat → List Char → Option (Value × List Char)
  | 0, _ => none
  | depth + 1, cs =>
    match cs with
    | [] => none
    | c :: rest =>
      if c = '"' ∨ c = '\'' then (string? cs).map fun (s, rest) => (.text s, rest)
      else if c = '[' then
        (arrayRules.read? (value? depth) rest).map fun (vs, rest) => (.list vs, rest)
      else if c = '\x7b' then do
        let (fs, rest) ← tableRules.read? (field? (value? depth)) rest
        let t ← fs.foldlM (fun t (key, v) => Tree.assign? false key v t) Tree.fresh
        some (t.toValue, rest)
      else
        let (word, rest) := cs.span isWordly
        (word? word).map fun v => (v, rest)

/-! ## Documents -/

/-- Reads the path of a header, after its opening bracket. -/
def headerPath? (cs : List Char) : Option (List String × List Char) := do
  match ← key? (cs.length + 1) cs with
  | (path, ']' :: rest) => some (path, rest)
  | _ => none

/-- Reads lines, of which there are at most `fuel`, given the path of the open table. -/
def lines? : Nat → List String → Tree → List Char → Option Tree
  | 0, _, _, _ => none
  | fuel + 1, path, t, cs =>
    match skip cs with
    | [] => some t
    | c :: rest =>
      if c = '[' then do
        let (path, rest) ← headerPath? rest
        lines? fuel path (← t.header? path) (← lineEnd? rest)
      else if c = '#' ∨ c = '\n' ∨ c = '\r' then do
        lines? fuel path t (← lineEnd? (c :: rest))
      else do
        let ((key, v), rest) ← field? (value? cs.length) (c :: rest)
        lines? fuel path (← t.under? (Tree.assign? false key v) path) (← lineEnd? rest)

/-- The value of a TOML text. -/
def read? (text : String) : Option Value :=
  let cs := if text.toList.head? == some '\uFEFF' then text.toList.drop 1 else text.toList
  (lines? (cs.length + 1) [] .fresh cs).map Tree.toValue

end PushPlan.Toml
