/-!
# PushPlan.Word

The ranges of whole numbers that words of a fixed width hold.

This module depends only on the Lean 4 core library.
-/

namespace PushPlan.Word

/-- One more than the greatest word of 32 bits. -/
def limit32 : Nat := 0x100000000

/-- One more than the greatest signed word of 64 bits. -/
def signedLimit : Nat := 0x8000000000000000

/-- One more than the greatest word of 64 bits. -/
def limit : Nat := 0x10000000000000000

/-- One more than the greatest signed word of 128 bits. -/
def signedLimit128 : Nat := 0x80000000000000000000000000000000

/-- One more than the greatest word of 128 bits. -/
def limit128 : Nat := 0x100000000000000000000000000000000

/-- Whether a signed word of 64 bits holds a number. -/
def isSigned (n : Int) : Bool := -signedLimit ≤ n && n < signedLimit

/-- Whether a word of 64 bits holds a number, signed or not. -/
def isEither (n : Int) : Bool := -signedLimit ≤ n && n < limit

/-- Whether a word of 128 bits holds a number, signed or not. -/
def isEither128 (n : Int) : Bool := -signedLimit128 ≤ n && n < limit128

end PushPlan.Word
