import PushPlan.Text.Line
import PushPlan.Yaml.Flow

/-!
# PushPlan.Yaml.Printer

Writing YAML text in block style:

1. a text is written plain if it reads back as itself, else between single
   quotes;
2. a text of several lines is written line by line after a bar, with marks
   for what a reader could not see: a blank front and how the text ends;
3. a text with a character that does not show is written between double
   quotes, that character escaped, as is a text of lines that end in blanks;
4. the items of a list stand as deep as its key, the fields of a record two
   columns deeper; empty collections are written in brackets;
5. the list of a field may have a tag, which stands before it.
-/

namespace PushPlan.Yaml

open Text

/-! ## Scalars -/

/-- Whether a character is written as it is. -/
def isShown (c : Char) : Bool :=
  let n := c.toNat
  (0x20 ≤ n && n ≤ 0x7E) || (0xA0 ≤ n && n ≤ 0xFFFD && n != 0xFEFF) || 0x10000 ≤ n

/-- The letter of an escape that is a single one. -/
def escapeLetter? (c : Char) : Option Char :=
  [(0x00, '0'), (0x07, 'a'), (0x08, 'b'), (0x09, 't'), (0x0A, 'n'), (0x0B, 'v'), (0x0C, 'f'),
    (0x0D, 'r'), (0x1B, 'e'), (0x22, '"'), (0x5C, '\\'), (0x85, 'N')].lookup c.toNat

/-- A number in upper-case hexadecimal digits, `width` of them. -/
def upperDigits (width n : Nat) : List Char := (hexDigits width n).toList.map Char.toUpper

/-- How one character is written between double quotes. -/
def escape (c : Char) : List Char :=
  match escapeLetter? c with
  | some letter => ['\\', letter]
  | none =>
    if isShown c then [c]
    else if c.toNat ≤ 0xFF then '\\' :: 'x' :: upperDigits 2 c.toNat
    else '\\' :: 'u' :: upperDigits 4 c.toNat

/-- A text between double quotes. -/
def doubleQuoted (s : String) : String :=
  "\"" ++ String.ofList (s.toList.flatMap escape) ++ "\""

/-- A text between single quotes. -/
def singleQuoted (s : String) : String :=
  "'" ++ String.ofList (s.toList.flatMap fun c => if c = '\'' then [c, c] else [c]) ++ "'"

/-- Whether a character ends a line or is a blank. -/
def separates (c : Char) : Bool :=
  isSpace c || c == '\n' || c == '\r' || c.toNat == 0x85 || c.toNat == 0x2028 || c.toNat == 0x2029

/-- Whether what follows separates what stands before it. -/
def separatesHere : List Char → Bool
  | [] => true
  | c :: _ => separates c

/-- Whether a text beyond its first character holds nothing that would end a plain scalar. -/
def flowsOn (afterBlank : Bool) : List Char → Bool
  | [] => true
  | c :: rest =>
    !(c == ':' && separatesHere rest) && !(c == '#' && afterBlank) && flowsOn (separates c) rest

/-- Whether a text may be written plain, whatever it would stand for. -/
def canBePlain (cs : List Char) : Bool :=
  match cs with
  | [] => false
  | c :: rest =>
    c != ' ' && cs.getLast? != some ' ' && !cs.any (fun c => separates c && !isSpace c) &&
      !(cs.take 3 == ['-', '-', '-'] || cs.take 3 == ['.', '.', '.']) &&
      !reserved.contains c &&
      !((c == '-' || c == '?' || c == ':') && separatesHere rest) && flowsOn (separates c) rest

/-- Whether a text written plain would stand for itself. -/
def standsForItself (s : String) : Bool :=
  plainValue? s == some (.text s) && !isPadded (Decimal.signPart s.toList).2

/-- A text as a scalar. -/
def renderScalar (s : String) : String :=
  if !s.toList.all isShown then doubleQuoted s
  else if standsForItself s && canBePlain s.toList then s
  else singleQuoted s

/-! ## Lines -/

/-- Whether a text can be written line by line. -/
def canBeLines (cs : List Char) : Bool :=
  cs.all (fun c => c == '\n' || isShown c) && cs.getLast? != some ' ' && !occursIn [' ', '\n'] cs

/-- What stands before the lines of a text: a bar, the indent if the front is blank, and whether
the text ends in no line end or in one that a reader would drop. -/
def linesHeader (cs : List Char) : String :=
  let front := if cs.head?.any separates then "2" else ""
  let ending :=
    match cs.reverse with
    | ['\n'] | '\n' :: '\n' :: _ => "+"
    | '\n' :: _ => ""
    | _ => "-"
  "|" ++ front ++ ending

/-- The lines of a text; the last one need not have an end. -/
def linesOf (cs : List Char) : List String :=
  let lines := splitAll '\n' cs
  (if lines.getLast? = some [] then lines.dropLast else lines).map String.ofList

/-! ## Collections -/

/-- What is to be written. -/
inductive Block where
  /-- A scalar, as it is to stand there. -/
  | scalar (written : String)
  /-- A text line by line, and what stands before it. -/
  | lines (header : String) (content : List String)
  | list (tag : Option String) (items : List Block)
  | record (fields : List (String × Block))

namespace Block

/-- A text. -/
def text (s : String) : Block :=
  let cs := s.toList
  if cs.contains '\n' && canBeLines cs then .lines (linesHeader cs) (linesOf cs)
  else .scalar (renderScalar s)

/-- A list of texts. -/
def texts (l : List String) : Block := .list none (l.map text)

/-- An absent value is null. -/
def ofOption {α : Type} (f : α → Block) : Option α → Block
  | none => .scalar "null"
  | some a => f a

/-- A truth value. -/
def bool (b : Bool) : Block := .scalar (if b then "true" else "false")

/-- A line further in; an empty line stays empty. -/
def indent (l : String) : String := if l = "" then "" else "  " ++ l

/-- The lines of an item, with a dash before the first. -/
def dashed : List String → List String
  | [] => []
  | l :: ls => ("- " ++ l) :: ls.map indent

/-- A tag with the blank before it. -/
def tagged : Option String → String
  | none => ""
  | some tag => " !" ++ tag

mutual

/-- The lines of a block that stands by itself. -/
def toLines : Block → List String
  | .scalar s => [s]
  | .lines header content => header :: content
  | .list _ items => if items.isEmpty then ["[]"] else itemLines items
  | .record fields => if fields.isEmpty then ["\x7b\x7d"] else fieldLines fields

/-- The lines of items. -/
def itemLines : List Block → List String
  | [] => []
  | b :: bs => dashed b.toLines ++ itemLines bs

/-- The lines of fields. -/
def fieldLines : List (String × Block) → List String
  | [] => []
  | (name, .scalar s) :: fs => (name ++ ": " ++ s) :: fieldLines fs
  | (name, .lines header content) :: fs =>
    (name ++ ": " ++ header) :: content.map indent ++ fieldLines fs
  | (name, .list tag items) :: fs =>
    (if items.isEmpty then [name ++ ":" ++ tagged tag ++ " []"]
      else (name ++ ":" ++ tagged tag) :: itemLines items) ++ fieldLines fs
  | (name, .record fields) :: fs =>
    (if fields.isEmpty then [name ++ ": \x7b\x7d"]
      else (name ++ ":") :: (fieldLines fields).map indent) ++ fieldLines fs

end

/-- A block as a document. -/
def render (b : Block) : String := String.join (b.toLines.map (· ++ "\n"))

end Block

end PushPlan.Yaml
