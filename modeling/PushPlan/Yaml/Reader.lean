import PushPlan.Text.Line
import PushPlan.Yaml.Flow

/-!
# PushPlan.Yaml.Reader

Reading a document in block style:

1. the nesting follows the indentation, which is made of spaces alone;
2. the list under a key may stand as deep as the key;
3. a scalar, a scalar between quotes and a flow collection stand on one line,
   but a plain scalar may go on on deeper lines, where a line end is a space
   and a blank line a line end;
4. a plain scalar on the line of its key holds no colon before a blank;
5. a line `---` may come first, and nothing follows a second one.

Comments, anchors, tags, literal blocks and explicit keys: the first are
skipped, the others refused.
-/

namespace PushPlan.Yaml

open Text

/-! ## Lines -/

/-- A line: its indentation, and what follows it. -/
structure Line where
  indent : Nat
  text : List Char

namespace Line

/-- The line that characters make. -/
def ofChars (cs : List Char) : Line :=
  ⟨(cs.takeWhile (· == ' ')).length, cs.dropWhile (· == ' ')⟩

/-- Whether a line is empty. -/
def isEmpty (l : Line) : Bool := l.text.isEmpty

/-- Whether a line holds nothing but perhaps a comment. -/
def isVoid (l : Line) : Bool := l.text.isEmpty || l.text.head? == some '#'

/-- What follows a marker at the front of a line, if the line starts with it. -/
def afterMark? (mark : List Char) (l : Line) : Option (List Char) :=
  if l.indent = 0 then (dropFront? mark l.text).filter endsHere else none

/-- Whether a line starts or ends a document. -/
def isBound (l : Line) : Bool :=
  (l.afterMark? ['-', '-', '-']).isSome || (l.afterMark? ['.', '.', '.']).isSome

end Line

/-- The lines of a text; a carriage return ends a line too, also together with a newline. -/
def lines : List Char → List (List Char)
  | [] => [[]]
  | '\r' :: '\n' :: cs => [] :: lines cs
  | c :: cs =>
    if c = '\n' ∨ c = '\r' then [] :: lines cs
    else
      match lines cs with
      | [] => [[c]]
      | l :: ls => (c :: l) :: ls

/-- The lines that remain once empty ones and comments at the front are gone. -/
def skipVoid (ls : List Line) : List Line := ls.dropWhile Line.isVoid

/-- Whether nothing but perhaps a comment is left on a line. -/
def atEnd (rest : List Char) : Bool :=
  match skip rest with
  | [] | '#' :: _ => true
  | _ => false

/-! ## Keys and scalars -/

/-- Cuts a line at the first colon before a blank, if no comment comes before it. -/
def cutColon? (afterBlank : Bool) : List Char → Option (List Char × List Char)
  | [] => none
  | c :: rest =>
    if c = ':' ∧ endsHere rest then some ([], rest)
    else if c = '#' ∧ afterBlank then none
    else (cutColon? (isSpace c) rest).map fun (key, rest) => (c :: key, rest)

/-- Cuts a line into a key and what follows its colon. -/
def key? (text : List Char) : Option (String × List Char) :=
  if text.head?.any fun c => c == '"' || c == '\'' then
    match quote? text with
    | none => none
    | some (key, rest) =>
      match skip rest with
      | ':' :: rest => if endsHere rest then some (key, rest) else none
      | _ => none
  else if startsPlain false text then
    (cutColon? false text).map fun (key, rest) => (.ofList (skipEnd key), rest)
  else none

/-- Whether a line is an item of a list. -/
def isItem : List Char → Bool
  | '-' :: rest => endsHere rest
  | _ => false

/-- Cuts a comment off the end of a line; true if there was one. -/
def cutComment (afterBlank : Bool) : List Char → List Char × Bool
  | [] => ([], false)
  | c :: rest =>
    if c = '#' ∧ afterBlank then ([], true)
    else
      let (text, cut) := cutComment (isSpace c) rest
      (c :: text, cut)

/-- What joins two lines of a scalar with some empty lines between them. -/
def fold (empty : Nat) : List Char := if empty = 0 then [' '] else List.replicate empty '\n'

/-- Reads the deeper lines on which a plain scalar goes on. -/
def more? (column : Nat) (empty : Nat) : List Line → Option (List Char × List Line)
  | [] => some ([], [])
  | l :: ls =>
    if l.isEmpty then more? column (empty + 1) ls
    else if l.indent < column || l.isVoid || l.isBound then some ([], l :: ls)
    else if (cutColon? true l.text).isSome then none
    else
      let (text, cut) := cutComment true l.text
      if cut then some (fold empty ++ skipEnd text, ls)
      else do
        let (rest, ls) ← more? column 0 ls
        some (fold empty ++ skipEnd text ++ rest, ls)

/-- Reads a plain scalar that may go on on lines as deep as `column`. -/
def plain? (column : Nat) (text : List Char) (ls : List Line) : Option (String × List Line) :=
  if !startsPlain false text then none
  else
    let (first, cut) := cutComment false text
    if cut then some (.ofList (skipEnd first), ls)
    else do
      let (rest, ls) ← more? column 0 ls
      some (.ofList (skipEnd first ++ rest), ls)

/-- Reads a node without block structure that starts on a line. -/
def leaf? (column : Nat) (text : List Char) (ls : List Line) : Option (Node × List Line) :=
  match text with
  | [] => none
  | c :: _ =>
    if c = '[' ∨ c = '\x7b' then do
      let (n, rest) ← flow? text.length text
      if atEnd rest then some (n, ls) else none
    else if c = '"' ∨ c = '\'' then do
      let (s, rest) ← quote? text
      if atEnd rest then some (.quoted s, ls) else none
    else (plain? column text ls).map fun (s, ls) => (.plain s, ls)

/-! ## Blocks -/

mutual

/-- Reads the node that starts on the first line; a scalar goes on on lines as deep as `column`. -/
def node? : (fuel column : Nat) → List Line → Option (Node × List Line)
  | 0, _, _ => none
  | _, _, [] => none
  | fuel + 1, column, l :: ls =>
    if isItem l.text then
      (items? fuel l.indent (l :: ls)).map fun (ns, ls) => (.list ns, ls)
    else if (key? l.text).isSome then
      (fields? fuel l.indent (l :: ls)).map fun (fs, ls) => (.record fs, ls)
    else leaf? column l.text ls

/-- Reads the node on the lines after its key or dash, which may be left out; under a key the
items of a list may stand one column to the left. -/
def below? : (fuel column : Nat) → (underKey : Bool) → List Line → Option (Node × List Line)
  | 0, _, _, _ => none
  | fuel + 1, column, underKey, ls =>
    match skipVoid ls with
    | [] => some (.plain "", [])
    | l :: ls =>
      if l.isBound then some (.plain "", l :: ls)
      else if column ≤ l.indent then node? fuel column (l :: ls)
      else if underKey && l.indent + 1 == column && isItem l.text then
        (items? fuel l.indent (l :: ls)).map fun (ns, ls) => (.list ns, ls)
      else some (.plain "", l :: ls)

/-- Reads the items of a list whose dashes stand at a column. -/
def items? : (fuel column : Nat) → List Line → Option (List Node × List Line)
  | 0, _, _ => none
  | fuel + 1, column, ls =>
    match skipVoid ls with
    | [] => some ([], [])
    | l :: ls =>
      if l.isBound || l.indent < column || (l.indent == column && !isItem l.text) then
        some ([], l :: ls)
      else if column < l.indent then none
      else do
        let inner := Line.ofChars (l.text.drop 1)
        let (n, ls) ←
          if inner.isVoid then below? fuel (column + 1) false ls
          else node? fuel (column + 1) (⟨column + 1 + inner.indent, inner.text⟩ :: ls)
        let (ns, ls) ← items? fuel column ls
        some (n :: ns, ls)

/-- Reads the fields of a record whose keys stand at a column. -/
def fields? : (fuel column : Nat) → List Line → Option (List (String × Node) × List Line)
  | 0, _, _ => none
  | fuel + 1, column, ls =>
    match skipVoid ls with
    | [] => some ([], [])
    | l :: ls =>
      if l.isBound || l.indent < column then some ([], l :: ls)
      else if column < l.indent then none
      else do
        let (key, rest) ← key? l.text
        let value := skip rest
        let (n, ls) ←
          if atEnd rest then below? fuel (column + 1) true ls
          else if isItem value || (key? value).isSome then none
          else leaf? (column + 1) value ls
        let (fs, ls) ← fields? fuel column ls
        some ((key, n) :: fs, ls)

end

/-! ## Documents -/

/-- Whether a character may stand in a document. -/
def isAllowed (c : Char) : Bool :=
  let n := c.toNat
  n == 0x09 || n == 0x0A || n == 0x0D || (0x20 ≤ n && n ≤ 0x7E) || n == 0x85 ||
    (0xA0 ≤ n && n ≤ 0xFFFD) || 0x10000 ≤ n

/-- The lines of a text; nothing if one of them starts with a tab. -/
def lines? (cs : List Char) : Option (List Line) :=
  let ls := (lines cs).map Line.ofChars
  if ls.any fun l => l.text.head? == some '\t' then none else some ls

/-- The lines after the mark that may open a document; nothing if a mark that closes one comes
first. -/
def afterOpening? (ls : List Line) : Option (List Line) :=
  match skipVoid ls with
  | [] => some []
  | l :: ls =>
    match l.afterMark? ['-', '-', '-'] with
    | some rest => some (⟨3 + (Line.ofChars rest).indent, (Line.ofChars rest).text⟩ :: ls)
    | none => if l.isBound then none else some (l :: ls)

/-- Whether nothing follows a document but perhaps marks that close it. -/
def isClosed (ls : List Line) : Bool :=
  ls.all fun l => l.isVoid || (l.afterMark? ['.', '.', '.']).any atEnd

/-- The document of a text; an empty one is an empty scalar. -/
def read? (text : String) : Option Node := do
  let cs := if text.toList.head? == some '\uFEFF' then text.toList.drop 1 else text.toList
  if !cs.all isAllowed then none
  else
    let (n, ls) ← below? (4 * cs.length + 8) 0 false (← afterOpening? (← lines? cs))
    if isClosed ls then some n else none

end PushPlan.Yaml
