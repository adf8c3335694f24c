import PushPlan.Value
import PushPlan.Text.Numeral

/-!
# PushPlan.Task

Tasks, the units of work that a push can run.

1. A task has a label, perhaps a kind, attributes by name, and a payload that
   is never looked into.
2. An attribute is a truth value, an integer of 64 bits, a text, or a list of
   texts.
3. Read as an integer, a text counts if it is a decimal numeral.
-/

namespace PushPlan

/-! ## Attributes -/

/-- The value of a task's attribute. -/
inductive Attribute where
  | flag (b : Bool)
  | number (n : Int64)
  | text (s : String)
  | list (items : List String)
deriving DecidableEq

namespace Attribute

/-- The truth value, if the attribute is one. -/
def asFlag? : Attribute → Option Bool
  | .flag b => some b
  | _ => none

/-- The integer, if the attribute is one or spells one. -/
def asInteger? : Attribute → Option Int
  | .number n => some n.toInt
  | .text s => Text.readInteger? s.toList
  | _ => none

/-- The text, if the attribute is one. -/
def asText? : Attribute → Option String
  | .text s => some s
  | _ => none

/-- The list, if the attribute is one. -/
def asList? : Attribute → Option (List String)
  | .list items => some items
  | _ => none

/-- The attribute in text; a list stands in brackets. -/
def render : Attribute → String
  | .flag b => if b then "true" else "false"
  | .number n => toString n.toInt
  | .text s => s
  | .list items => "[" ++ ", ".intercalate items ++ "]"

/-- The word for an attribute's sort. -/
def sort : Attribute → String
  | .flag _ => "bool"
  | .number _ => "integer"
  | .text _ => "string"
  | .list _ => "list"

end Attribute

/-! ## Tasks -/

/-- A unit of work. -/
structure Task where
  /-- The name of the task, one of its own in a task graph. -/
  label : String
  /-- What sort of work it is. -/
  kind : Option String := none
  /-- What is known about it. -/
  attributes : SortedMap String Attribute := .empty
  /-- What is handed on to whoever runs it. -/
  payload : Value := .null
deriving DecidableEq

namespace Task

/-- The task with another kind. -/
def withKind (t : Task) (kind : String) : Task := { t with kind := some kind }

/-- The task with one more attribute, in place of one of the same name. -/
def withAttribute (t : Task) (name : String) (a : Attribute) : Task :=
  { t with attributes := t.attributes.put name a }

/-- The task with another payload. -/
def withPayload (t : Task) (payload : Value) : Task := { t with payload }

/-- The attribute of a given name. -/
def attribute? (t : Task) (name : String) : Option Attribute := t.attributes.get? name

/-- Whether the task has an attribute of a given name, whatever its value. -/
def hasAttribute (t : Task) (name : String) : Bool := (t.attribute? name).isSome

/-- The text of an attribute that is one. -/
def text? (t : Task) (name : String) : Option String := (t.attribute? name).bind (·.asText?)

/-- The list of an attribute that is one. -/
def list? (t : Task) (name : String) : Option (List String) :=
  (t.attribute? name).bind (·.asList?)

end Task

end PushPlan
