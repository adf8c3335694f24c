import PushPlan.Shape
import PushPlan.Task
import PushPlan.Word

/-!
# PushPlan.Task.Document

Tasks as document values:

1. a task is a record of label, kind, attributes and payload, the payload
   under the name `task`; all but the label may be left out;
2. an attribute is tried as a truth value, as an integer of 64 bits, as a
   text and as a list of texts, in this order;
3. writing gives all four fields, in ascending order.
-/

namespace PushPlan

open Shape

/-! ## Attributes -/

namespace Attribute

/-- The attribute as a value. -/
def toValue : Attribute → Value
  | .flag b => .bool b
  | .number n => .int n.toInt
  | .text s => .text s
  | .list items => .ofTexts items

/-- The attribute that a value spells. -/
def ofValue? : Value → Option Attribute
  | .bool b => some (.flag b)
  | .int n => if Word.isSigned n then some (.number (.ofInt n)) else none
  | .text s => some (.text s)
  | .list items => (items.mapM Value.asText?).map .list
  | _ => none

/-- Reads an attribute. -/
def read : Reader Attribute := fun v =>
  match ofValue? v with
  | some a => .ok a
  | none => .error .noAttribute

end Attribute

/-! ## Tasks -/

namespace Task

/-- A task whose label may still be missing. -/
structure Draft where
  label : Option String := none
  kind : Option String := none
  attributes : SortedMap String Attribute := .empty
  payload : Value := .null

/-- The names of a task's fields, in the order in which a list holds them. -/
def fieldNames : List String := ["label", "kind", "attributes", "task"]

/-- Takes one field. -/
def Draft.set (name : String) (v : Value) (t : Draft) : Except ShapeError Draft :=
  match name with
  | "label" => do return { t with label := some (← Shape.text .json v) }
  | "kind" => do return { t with kind := ← optional (Shape.text .json) v }
  | "attributes" => do return { t with attributes := ← map .json Attribute.read v }
  | "task" => .ok { t with payload := v }
  | _ => .ok t

/-- The task of a draft with a label; another draft fails with the given error. -/
def Draft.finish (t : Draft) (unlabelled : ShapeError) : Except ShapeError Task :=
  match t.label with
  | some label => .ok ⟨label, t.kind, t.attributes, t.payload⟩
  | none => .error unlabelled

/-- Reads a task. -/
def read : Reader Task := fun v => do
  let t ← struct .json "Task" fieldNames Draft.set {} v
  t.finish (match v with
    | .list items => .tooShort items.length "struct Task with 4 elements"
    | _ => .missingField "label")

/-- The attributes of a task as a record. -/
def attributesValue (t : Task) : Value :=
  .record (t.attributes.mapValues Attribute.toValue).toList

/-- The task as a value. -/
def toValue (t : Task) : Value :=
  .record
    [("attributes", t.attributesValue), ("kind", .ofOption .text t.kind),
      ("label", .text t.label), ("task", t.payload)]

end Task

end PushPlan
