/-!
# PushPlan.Text.Blank

White space, as Unicode defines it:

1. a character is blank when it has the property `White_Space`, which 25
   characters have;
2. trimming removes blanks at both ends and nothing else;
3. a text is blank when it holds no other character.

This module depends only on the Lean 4 core library.
-/

namespace PushPlan.Text

/-! ## Blank characters -/

/-- Whether a character is white space: the property `White_Space`. -/
def isBlank (c : Char) : Bool :=
  let n := c.toNat
  (0x09 ≤ n && n ≤ 0x0D) || n == 0x20 || n == 0x85 || n == 0xA0 || n == 0x1680 ||
    (0x2000 ≤ n && n ≤ 0x200A) || n == 0x2028 || n == 0x2029 || n == 0x202F ||
    n == 0x205F || n == 0x3000

/-! ## Trimming -/

/-- A text without the blanks at its front. -/
def trimStart (cs : List Char) : List Char := cs.dropWhile isBlank

/-- A text without the blanks at its end. -/
def trimEnd (cs : List Char) : List Char := (cs.reverse.dropWhile isBlank).reverse

/-- A text without the blanks at either end. -/
def trim (cs : List Char) : List Char := trimEnd (trimStart cs)

/-- Whether a text holds blanks only; the empty text does. -/
def allBlank (s : String) : Bool := s.toList.all isBlank

end PushPlan.Text
