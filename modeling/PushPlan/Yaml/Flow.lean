import PushPlan.Text.Bracketed
import PushPlan.Text.Escape
import PushPlan.Yaml.Node

/-!
# PushPlan.Yaml.Flow

Scalars between quotes, and flow collections on one line:

1. between single quotes a quote is written twice, between double quotes a
   backslash introduces an escape;
2. a plain scalar ends at a comma, a bracket, a colon before a blank, or a
   blank before `#`; a colon right before a comma or a bracket is an error;
3. a comma may follow the last item;
4. a field without a value is null, and a list item may be a record of one
   field without brackets.
-/

namespace PushPlan.Yaml

open Text

/-- Whether a character is a blank within a line. -/
def isSpace (c : Char) : Bool := c == ' ' || c == '\t'

/-- A text without the blanks at its front. -/
def skip (cs : List Char) : List Char := cs.dropWhile isSpace

/-- A text without the blanks at its end. -/
def skipEnd (cs : List Char) : List Char := (cs.reverse.dropWhile isSpace).reverse

/-- Whether a blank or nothing comes first. -/
def endsHere : List Char → Bool
  | [] => true
  | c :: _ => isSpace c

/-! ## Quotes -/

/-- Reads on after a single quote, up to the one that closes. -/
def single? : List Char → Option (List Char × List Char)
  | [] => none
  | '\'' :: '\'' :: rest => (single? rest).map fun (s, rest) => ('\'' :: s, rest)
  | '\'' :: rest => some ([], rest)
  | c :: rest => (single? rest).map fun (s, rest) => (c :: s, rest)

/-- The escapes between double quotes. -/
def escapes : EscapeRules where
  letters :=
    [('0', 0x00), ('a', 0x07), ('b', 0x08), ('t', 0x09), ('\t', 0x09), ('n', 0x0A), ('v', 0x0B),
      ('f', 0x0C), ('r', 0x0D), ('e', 0x1B), (' ', 0x20), ('"', 0x22), ('/', 0x2F),
      ('\\', 0x5C), ('N', 0x85), ('_', 0xA0), ('L', 0x2028), ('P', 0x2029)]
  announced := [('x', 2), ('u', 4), ('U', 8)]
  isAllowed _ := true

/-- Reads a scalar that starts with a quote. -/
def quote? : List Char → Option (String × List Char)
  | '\'' :: rest => (single? rest).map fun (s, rest) => (.ofList s, rest)
  | '"' :: rest => (escapes.read? rest).map fun (s, rest) => (.ofList s, rest)
  | _ => none

/-! ## Plain scalars -/

/-- The characters that bound items in flow collections. -/
def flowMarks : List Char := [',', '[', ']', '\x7b', '\x7d']

/-- The characters that no plain scalar starts with. -/
def reserved : List Char :=
  flowMarks ++ ['#', '&', '*', '!', '|', '>', '\'', '"', '%', '@', '\x60']

/-- Whether a plain scalar may start here. -/
def startsPlain (flow : Bool) : List Char → Bool
  | [] => false
  | c :: rest =>
    if isSpace c || reserved.contains c then false
    else if c == '-' then !endsHere rest
    else if c == '?' || c == ':' then !flow && !endsHere rest
    else true

/-- Cuts a text where a plain scalar in a flow collection ends. -/
def flowPlain? (afterBlank : Bool) : List Char → Option (List Char × List Char)
  | [] => some ([], [])
  | c :: rest =>
    if flowMarks.contains c || (c == '#' && afterBlank) || (c == ':' && endsHere rest) then
      some ([], c :: rest)
    else if c == ':' && rest.head?.any fun d => flowMarks.contains d || d == '?' then none
    else (flowPlain? (isSpace c) rest).map fun (s, rest) => (c :: s, rest)

/-! ## Collections -/

/-- How items stand between brackets: with blanks around them, and perhaps a comma at the end. -/
def brackets (close : Char) : BracketRules := ⟨close, fun cs => some (skip cs), true⟩

/-- Reads the value of a field, which may be left out, after its colon. -/
def flowValue? (node : List Char → Option (Node × List Char)) (cs : List Char) :
    Option (Node × List Char) :=
  match skip cs with
  | [] => none
  | c :: rest => if c == ',' || c == ']' || c == '\x7d' then some (.plain "", c :: rest)
    else node (c :: rest)

/-- Reads a field of a record. -/
def flowField? (node : List Char → Option (Node × List Char)) (cs : List Char) :
    Option ((String × Node) × List Char) := do
  let (key, rest) ← node cs
  let name ← key.scalar?
  match skip rest with
  | ':' :: rest =>
    let (value, rest) ← flowValue? node rest
    some ((name, value), rest)
  | rest => some ((name, .plain ""), rest)

/-- Reads an item of a list. -/
def flowItem? (node : List Char → Option (Node × List Char)) (cs : List Char) :
    Option (Node × List Char) := do
  let (item, rest) ← node cs
  match skip rest with
  | ':' :: rest =>
    let name ← item.scalar?
    let (value, rest) ← flowValue? node rest
    some (.record [(name, value)], rest)
  | rest => some (item, rest)

/-- Reads a node in a flow collection that nests less than `depth` deep. -/
def flow? : Nat → List Char → Option (Node × List Char)
  | 0, _ => none
  | depth + 1, cs =>
    match skip cs with
    | '[' :: rest =>
      ((brackets ']').read? (flowItem? (flow? depth)) rest).map fun (ns, rest) =>
        (.list ns, rest)
    | '\x7b' :: rest =>
      ((brackets '\x7d').read? (flowField? (flow? depth)) rest).map fun (fs, rest) =>
        (.record fs, rest)
    | cs =>
      if cs.head?.any fun c => c == '"' || c == '\'' then
        (quote? cs).map fun (s, rest) => (.quoted s, rest)
      else if startsPlain true cs then
        (flowPlain? false cs).map fun (s, rest) => (.plain (.ofList (skipEnd s)), rest)
      else none

end PushPlan.Yaml
