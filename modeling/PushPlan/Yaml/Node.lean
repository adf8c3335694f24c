import PushPlan.Yaml.Scalar

/-!
# PushPlan.Yaml.Node

YAML documents before their scalars are understood, and the two ways to
understand them: as texts, where only the empty plain scalar is null, or as
values by the core schema.
-/

namespace PushPlan.Yaml

/-- A node of a document. -/
inductive Node where
  /-- A plain scalar, as it stands in the source. -/
  | plain (source : String)
  /-- A scalar between quotes. -/
  | quoted (content : String)
  | list (items : List Node)
  | record (fields : List (String × Node))

namespace Node

instance : Inhabited Node := ⟨.plain ""⟩

/-- The text of a scalar. -/
def scalar? : Node → Option String
  | .plain s | .quoted s => some s
  | .list _ | .record _ => none

/-! ## As texts -/

mutual

/-- The value of a node whose scalars are texts. -/
def asTexts : Node → Value
  | .plain s => if s = "" then .null else .text s
  | .quoted s => .text s
  | .list items => .list (itemsAsTexts items)
  | .record fields => .record (fieldsAsTexts fields)

/-- `asTexts` on each item. -/
def itemsAsTexts : List Node → List Value
  | [] => []
  | n :: ns => n.asTexts :: itemsAsTexts ns

/-- `asTexts` on the node of each field. -/
def fieldsAsTexts : List (String × Node) → List (String × Value)
  | [] => []
  | (name, n) :: fs => (name, n.asTexts) :: fieldsAsTexts fs

end

/-! ## As values -/

mutual

/-- The value of a node; nothing if one of its scalars has none. -/
def asValue? : Node → Option Value
  | .plain s => plainValue? s
  | .quoted s => some (.text s)
  | .list items => (itemValues? items).map .list
  | .record fields => (fieldValues? fields).map .record

/-- The values of items. -/
def itemValues? : List Node → Option (List Value)
  | [] => some []
  | n :: ns => do some ((← n.asValue?) :: (← itemValues? ns))

/-- The values of fields. -/
def fieldValues? : List (String × Node) → Option (List (String × Value))
  | [] => some []
  | (name, n) :: fs => do some ((name, ← n.asValue?) :: (← fieldValues? fs))

end

/-- The value of a record of values; any other node is read as text. -/
def asEntries? : Node → Option Value
  | .record fields => (fieldValues? fields).map .record
  | n => some n.asTexts

end Node

end PushPlan.Yaml
