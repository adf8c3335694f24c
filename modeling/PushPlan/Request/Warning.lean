import PushPlan.Text.Numeral

/-!
# PushPlan.Request.Warning

What a reader of requests passes over, and how it says so.  A request with
something wrong in it still counts for the rest: a typo never blocks a push.
-/

namespace PushPlan.Request

/-- Something in a request that was not understood. -/
inductive Warning where
  /-- A token that is neither a flag nor the value of one. -/
  | strayValue (token : String)
  /-- A flag that is not known. -/
  | unknownFlag (token : String)
  /-- A switch with a value attached. -/
  | needlessValue (token : String)
  /-- A flag without the value it needs. -/
  | missingValue (token : String)
  /-- A letter that stands for no build type. -/
  | unknownBuildType (letter : Char)
  /-- A suite entry that does not parse. -/
  | malformedSuite (entry : String)
  /-- A run count that is no number below 2³². -/
  | malformedCount (flag value : String) (error : Text.NumeralError)
deriving DecidableEq

namespace Warning

/-- The wording of a warning. -/
def message : Warning → String
  | .strayValue _ => "ignoring unexpected try syntax value"
  | .unknownFlag _ => "ignoring unknown try syntax flag"
  | .needlessValue _ => "try syntax flag takes no value, ignoring it"
  | .missingValue _ => "try syntax flag is missing its value"
  | .unknownBuildType _ => "ignoring unknown try syntax build type"
  | .malformedSuite _ => "ignoring malformed try syntax suite"
  | .malformedCount .. => "ignoring malformed try syntax count"

/-- What a warning is about, by name. -/
def details : Warning → List (String × String)
  | .strayValue token => [("token", token)]
  | .unknownFlag token | .needlessValue token | .missingValue token => [("flag", token)]
  | .unknownBuildType letter => [("build_type", String.ofList [letter])]
  | .malformedSuite entry => [("entry", entry)]
  | .malformedCount flag value error =>
    [("flag", flag), ("value", value), ("error", error.message)]

end Warning

end PushPlan.Request
