import PushPlan.Decimal
import PushPlan.Sorted

/-!
# PushPlan.Value

Document values: what a JSON, YAML or TOML text stands for once its syntax is
gone.

1. A record is a list of fields as they were written, repeated names
   included.
2. `Value.canonical` is the form in which a record is a map: fields ascend by
   name, and of repeated names the last stays, at every depth.

Whole numbers and fractions are told apart by their spelling, not by their
size.
-/

namespace PushPlan

/-- A document value. -/
inductive Value where
  | null
  | bool (b : Bool)
  | int (n : Int)
  | fraction (d : Decimal)
  | text (s : String)
  | list (items : List Value)
  | record (fields : List (String × Value))

namespace Value

instance : Inhabited Value := ⟨.null⟩

/-! ## Equality -/

mutual

/-- Decides whether two values are the same. -/
def decEq : (a b : Value) → Decidable (a = b)
  | .null, .null => .isTrue rfl
  | .bool a, .bool b => decidable_of_iff (a = b) (by simp)
  | .int a, .int b => decidable_of_iff (a = b) (by simp)
  | .fraction a, .fraction b => decidable_of_iff (a = b) (by simp)
  | .text a, .text b => decidable_of_iff (a = b) (by simp)
  | .list a, .list b =>
    match decEqItems a b with
    | .isTrue h => .isTrue (by simp [h])
    | .isFalse h => .isFalse (by simp [h])
  | .record a, .record b =>
    match decEqFields a b with
    | .isTrue h => .isTrue (by simp [h])
    | .isFalse h => .isFalse (by simp [h])
  | .null, .bool _ | .null, .int _ | .null, .fraction _ | .null, .text _ | .null, .list _
  | .null, .record _ | .bool _, .null | .bool _, .int _ | .bool _, .fraction _
  | .bool _, .text _ | .bool _, .list _ | .bool _, .record _ | .int _, .null
  | .int _, .bool _ | .int _, .fraction _ | .int _, .text _ | .int _, .list _
  | .int _, .record _ | .fraction _, .null | .fraction _, .bool _ | .fraction _, .int _
  | .fraction _, .text _ | .fraction _, .list _ | .fraction _, .record _ | .text _, .null
  | .text _, .bool _ | .text _, .int _ | .text _, .fraction _ | .text _, .list _
  | .text _, .record _ | .list _, .null | .list _, .bool _ | .list _, .int _
  | .list _, .fraction _ | .list _, .text _ | .list _, .record _ | .record _, .null
  | .record _, .bool _ | .record _, .int _ | .record _, .fraction _ | .record _, .text _
  | .record _, .list _ => .isFalse nofun

/-- Decides whether two lists of values are the same. -/
def decEqItems : (a b : List Value) → Decidable (a = b)
  | [], [] => .isTrue rfl
  | [], _ :: _ | _ :: _, [] => .isFalse nofun
  | a :: as, b :: bs =>
    match decEq a b, decEqItems as bs with
    | .isTrue h, .isTrue hs => .isTrue (by simp [h, hs])
    | .isFalse h, _ => .isFalse (by simp [h])
    | _, .isFalse hs => .isFalse (by simp [hs])

/-- Decides whether two lists of fields are the same. -/
def decEqFields : (a b : List (String × Value)) → Decidable (a = b)
  | [], [] => .isTrue rfl
  | [], _ :: _ | _ :: _, [] => .isFalse nofun
  | (k, a) :: as, (l, b) :: bs =>
    match decEq a b, decEqFields as bs with
    | .isTrue h, .isTrue hs =>
      if hk : k = l then .isTrue (by simp [hk, h, hs]) else .isFalse (by simp [hk])
    | .isFalse h, _ => .isFalse (by simp [h])
    | _, .isFalse hs => .isFalse (by simp [hs])

end

instance : DecidableEq Value := decEq

/-! ## The canonical form -/

mutual

/-- The value with every record in ascending order of names, without repetitions. -/
def canonical : Value → Value
  | .list items => .list (canonicalItems items)
  | .record fields =>
    .record (Sorted.ofList (canonicalFields fields) : SortedMap String Value).toList
  | v => v

/-- `canonical` on each item. -/
def canonicalItems : List Value → List Value
  | [] => []
  | v :: vs => v.canonical :: canonicalItems vs

/-- `canonical` on the value of each field. -/
def canonicalFields : List (String × Value) → List (String × Value)
  | [] => []
  | (k, v) :: fs => (k, v.canonical) :: canonicalFields fs

end

/-! ## Access -/

/-- The text, if the value is one. -/
def asText? : Value → Option String
  | .text s => some s
  | _ => none

/-- The first field of a record with a given name. -/
def field? (name : String) : Value → Option Value
  | .record fields => fields.lookup name
  | _ => none

/-- A list of texts as a value. -/
def ofTexts (texts : List String) : Value := .list (texts.map .text)

/-- An absent value is null. -/
def ofOption {α : Type} (f : α → Value) : Option α → Value
  | none => .null
  | some a => f a

end Value

end PushPlan
