import PushPlan.Sorted
import PushPlan.Value

/-!
# PushPlan.Parameters

What is known about a push: values by name.  Only the project and the message
have a meaning here, all others are carried along.
-/

namespace PushPlan

/-- Why no tasks can be selected; `ε` is what else a strategy of one's own can fail with. -/
inductive SelectionError (ε : Type := Empty) where
  /-- There is no strategy of this name. -/
  | unknownStrategy (name : String)
  /-- A parameter is absent or is no text. -/
  | missingParameter (name : String)
  /-- A strategy of one's own fails in its own way. -/
  | other (e : ε)
deriving DecidableEq

/-- Where a strategy cannot fail in its own way, there is nothing to word. -/
instance toStringEmpty : ToString Empty := ⟨nofun⟩

/-- The wording of a failure. -/
def SelectionError.message {ε : Type} [ToString ε] : SelectionError ε → String
  | .unknownStrategy name => "Unknown target tasks strategy '" ++ name ++ "'"
  | .missingParameter name => "Missing required parameter '" ++ name ++ "'"
  | .other e => toString e

/-- Values by name. -/
structure Parameters where
  values : SortedMap String Value
deriving DecidableEq

namespace Parameters

/-- No parameters. -/
def empty : Parameters := ⟨.empty⟩

/-- The parameters with one more value, in place of one of the same name. -/
def put (name : String) (v : Value) (p : Parameters) : Parameters := ⟨p.values.put name v⟩

/-- The parameters of a list; of repeated names the last counts. -/
def ofList (entries : List (String × Value)) : Parameters := ⟨.ofList entries⟩

/-- The value of a parameter. -/
def get? (p : Parameters) (name : String) : Option Value := p.values.get? name

/-- Whether there is a parameter of a name. -/
def contains (p : Parameters) (name : String) : Bool := p.values.contains name

variable {ε : Type}

/-- The text of a parameter that has to be there. -/
def text (p : Parameters) (name : String) : Except (SelectionError ε) String :=
  match (p.get? name).bind Value.asText? with
  | some s => .ok s
  | none => .error (.missingParameter name)

/-! ## Known parameters -/

/-- The name of the parameter that holds the project. -/
def projectName : String := "project"

/-- The name of the parameter that holds the push message. -/
def messageName : String := "message"

/-- The project of the push. -/
def project (p : Parameters) : Except (SelectionError ε) String := p.text projectName

/-- The message of the push. -/
def message (p : Parameters) : Except (SelectionError ε) String := p.text messageName

/-- The parameters with another project. -/
def withProject (project : String) (p : Parameters) : Parameters :=
  p.put projectName (.text project)

/-- The parameters with another message. -/
def withMessage (message : String) (p : Parameters) : Parameters :=
  p.put messageName (.text message)

/-- The parameters as a value. -/
def toValue (p : Parameters) : Value := .record p.values.toList

end Parameters

end PushPlan
