import PushPlan.Text.Blank
import PushPlan.Text.Line

/-!
# PushPlan.Request.Token

The tokens of a request line:

1. blanks end a token, except inside brackets;
2. a single or double quote opens a quoted run, which ends at the next quote
   of the same kind; both quotes are dropped, all between them is kept, and
   the run belongs to the token around it, which may thereby be empty;
3. brackets nest and are kept; a closing bracket with no opening one counts
   for nothing;
4. a quote or a bracket that is never closed runs to the end of the line.
-/

namespace PushPlan.Request

open Text

/-! ## Brackets -/

/-- The bracket depth after a character. -/
def nest (depth : Nat) (c : Char) : Nat :=
  if c = '[' then depth + 1 else if c = ']' then depth - 1 else depth

/-! ## Scanning -/

/-- Whether a character opens a quoted run. -/
def isQuote (c : Char) : Bool := c == '"' || c == '\''

/-- Where a scan of a line stands. -/
structure Scan where
  /-- What the token under way holds so far, if one is under way. -/
  token : Option (List Char)
  /-- The bracket depth. -/
  depth : Nat
  /-- The quote that opened the run under way, if one is. -/
  quote : Option Char
deriving DecidableEq

namespace Scan

/-- The state at the front of a line. -/
def start : Scan := ⟨none, 0, none⟩

/-- A token is under way, if only an empty one. -/
def touch (s : Scan) : Scan := { s with token := some (s.token.getD []) }

/-- The token under way gets one more character. -/
def push (s : Scan) (c : Char) : Scan := { s with token := some (s.token.getD [] ++ [c]) }

/-- Takes one character: the token that it ends, if any, and the state after it. -/
def step (s : Scan) (c : Char) : Option (List Char) × Scan :=
  match s.quote with
  | some q => if c = q then (none, { s with quote := none }) else (none, s.push c)
  | none =>
    if isQuote c then (none, { s.touch with quote := some c })
    else if isBlank c && s.depth == 0 then (s.token, { s with token := none })
    else (none, { s.push c with depth := nest s.depth c })

/-- The state after a text. -/
def after (s : Scan) (cs : List Char) : Scan := cs.foldl (fun s c => (s.step c).2) s

/-- The tokens that end in a text or at its end. -/
def tokens (s : Scan) : List Char → List (List Char)
  | [] => s.token.toList
  | c :: cs => (s.step c).1.toList ++ tokens (s.step c).2 cs

end Scan

/-- The tokens of a line. -/
def tokenize (line : List Char) : List String := (Scan.start.tokens line).map String.ofList

/-- The tokens of the request in a message: those of the line that follows the first marker. -/
def tokensAfter? (marker message : List Char) : Option (List String) :=
  (after? marker message).map fun rest => tokenize (firstLine rest)

end PushPlan.Request
