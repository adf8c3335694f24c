import PushPlan.Strategy
import PushPlan.Text.Quoted

/-!
# PushPlan.Strategy.Registry

Strategies by name.  A strategy that is registered under a name replaces an
earlier one; two strategies are there from the start.
-/

namespace PushPlan

/-- Strategies by name. -/
structure Registry (ε : Type := Empty) where
  strategies : SortedMap String (Strategy ε)

namespace Registry

variable {ε : Type}

/-! ## Making -/

/-- No strategies. -/
def empty : Registry ε := ⟨.empty⟩

/-- The registry with one more strategy, in place of one of the same name. -/
def register (name : String) (s : Strategy ε) (r : Registry ε) : Registry ε :=
  ⟨r.strategies.put name s⟩

/-- The name of the selection by project. -/
def byProjectName : String := "default"

/-- The name of the selection by request. -/
def byRequestName : String := "try_option_syntax"

/-- The two strategies of the given settings. -/
def ofSettings (s : Settings) : Registry ε :=
  (empty.register byProjectName (.byProject s.projects)).register byRequestName
    (.byRequest s.conventions)

/-- The two strategies of the standard settings. -/
def standard : Registry ε := ofSettings .standard

/-! ## Access -/

/-- The names, in ascending order. -/
def names (r : Registry ε) : List String := r.strategies.keys

/-- Whether there is a strategy of a name. -/
def contains (r : Registry ε) (name : String) : Bool := r.strategies.contains name

/-- The strategy of a name. -/
def get (r : Registry ε) (name : String) : Except (SelectionError ε) (Strategy ε) :=
  match r.strategies.get? name with
  | some s => .ok s
  | none => .error (.unknownStrategy name)

/-- The labels that the strategy of a name selects. -/
def select (r : Registry ε) (name : String) (g : TaskGraph) (p : Parameters) :
    Except (SelectionError ε) (List String) := do
  (← r.get name) g p

/-- A registry in text. -/
def describe (r : Registry ε) : String :=
  "StrategyRegistry \x7b strategies: [" ++ ", ".intercalate (r.names.map Text.quoted) ++
    "] \x7d"

end Registry

end PushPlan
