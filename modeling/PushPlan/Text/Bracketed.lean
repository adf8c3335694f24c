/-!
# PushPlan.Text.Bracketed

Reading items between brackets, with commas between them.  What may stand
around the items, and whether a comma may follow the last, is up to the
format.
-/

namespace PushPlan.Text

/-- How items stand between brackets. -/
structure BracketRules where
  /-- The bracket that closes. -/
  close : Char
  /-- Skips what may stand before and after an item. -/
  gap? : List Char → Option (List Char)
  /-- Whether a comma may follow the last item. -/
  trailing : Bool

namespace BracketRules

variable {α : Type}

/-- Reads items up to the closing bracket, at most `fuel` of them; `mayClose` if the bracket may
close before the next one. -/
def readFrom? (rules : BracketRules) (item : List Char → Option (α × List Char)) :
    (fuel : Nat) → (mayClose : Bool) → List Char → Option (List α × List Char)
  | 0, _, _ => none
  | fuel + 1, mayClose, cs => do
    match ← rules.gap? cs with
    | [] => none
    | c :: rest =>
      if c = rules.close ∧ mayClose then some ([], rest)
      else
        let (a, rest) ← item (c :: rest)
        match ← rules.gap? rest with
        | [] => none
        | d :: rest =>
          if d = rules.close then some ([a], rest)
          else if d = ',' then
            let (as, rest) ← rules.readFrom? item fuel rules.trailing rest
            some (a :: as, rest)
          else none

/-- Reads items after the opening bracket; there may be none. -/
def read? (rules : BracketRules) (item : List Char → Option (α × List Char)) (cs : List Char) :
    Option (List α × List Char) :=
  rules.readFrom? item (cs.length + 1) true cs

end BracketRules

end PushPlan.Text
