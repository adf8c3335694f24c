import PushPlan.Text.Hex
import PushPlan.Text.Printable

/-!
# PushPlan.Text.Quoted

Texts in messages: in double quotes, with quotes and backslashes escaped,
common control characters by a letter, and every other character that does
not show by its code point.
-/

namespace PushPlan.Text

/-- How one character is shown between quotes. -/
def shown (c : Char) : String :=
  match c with
  | '"' => "\\\""
  | '\\' => "\\\\"
  | '\n' => "\\n"
  | '\r' => "\\r"
  | '\t' => "\\t"
  | c =>
    if c.toNat = 0 then "\\0"
    else if isPrintable c then c.toString
    else "\\u\x7b" ++ hexDigits 1 c.toNat ++ "\x7d"

/-- A text between quotes. -/
def quoted (s : String) : String := "\"" ++ String.join (s.toList.map shown) ++ "\""

end PushPlan.Text
