import PushPlan.Text.Line
import PushPlan.Text.Numeral
import PushPlan.Request.Warning

/-!
# PushPlan.Request.Flag

The flags of a request and the walk over its tokens:

1. a token is flag-like when it starts with a dash and its next character is
   there and is no digit, so that negative numbers are values;
2. a short flag is a dash and one letter, and what follows in the token is
   its value; a long flag is two dashes and a name, and its value follows the
   first equals sign;
3. a flag that takes a value and has none attached takes the next token,
   unless that is flag-like;
4. of the flags that take a value, some fall back to a word of their own and
   the others are skipped without one; a switch ignores a value.

The walk is a list of steps, one a group of tokens.  A step may set a flag,
may give a warning, and may do both.
-/

namespace PushPlan.Request

open Text

/-! ## Flags -/

/-- The flags of a request. -/
inductive Flag where
  | build | platform | unittests | talos | job | rebuild | rebuildTalos
  | allEmails | failureEmails | notify | setenv | profile | tag | noRetry | interactive
deriving DecidableEq

namespace Flag

/-- The flag of a letter. -/
def ofShort? : Char → Option Flag
  | 'b' => some .build
  | 'p' => some .platform
  | 'u' => some .unittests
  | 't' => some .talos
  | 'j' => some .job
  | 'e' => some .allEmails
  | 'f' => some .failureEmails
  | 'i' => some .interactive
  | _ => none

/-- The flag of a name. -/
def ofLong? : String → Option Flag
  | "build" => some .build
  | "platform" => some .platform
  | "unittests" => some .unittests
  | "talos" => some .talos
  | "job" => some .job
  | "rebuild" => some .rebuild
  | "rebuild-talos" => some .rebuildTalos
  | "all-emails" => some .allEmails
  | "failure-emails" => some .failureEmails
  | "notify" => some .notify
  | "setenv" => some .setenv
  | "spsProfile" | "geckoProfile" | "profile" => some .profile
  | "tag" => some .tag
  | "no-retry" => some .noRetry
  | "interactive" => some .interactive
  | _ => none

/-- How a flag deals with values. -/
inductive Arity where
  /-- It takes none. -/
  | switch
  /-- It takes one, or stands for the given word. -/
  | optional (word : String)
  /-- It needs one. -/
  | required
deriving DecidableEq

/-- How each flag deals with values. -/
def arity : Flag → Arity
  | .platform | .unittests | .talos | .job => .optional "all"
  | .build | .rebuild | .rebuildTalos | .notify | .setenv | .tag => .required
  | .allEmails | .failureEmails | .profile | .noRetry | .interactive => .switch

end Flag

/-- Whether a token looks like a flag and not like a value. -/
def flagLike (token : String) : Bool :=
  match token.toList with
  | '-' :: c :: _ => !isDigit c
  | _ => false

/-- The flag that a flag-like token names, if it is known, and the value attached to it. -/
def spelled (token : String) : Option Flag × Option String :=
  match token.toList with
  | '-' :: '-' :: long =>
    match splitAt? '=' long with
    | some (name, value) => (Flag.ofLong? (String.ofList name), some (String.ofList value))
    | none => (Flag.ofLong? (String.ofList long), none)
  | '-' :: letter :: rest =>
    (Flag.ofShort? letter, if rest.isEmpty then none else some (String.ofList rest))
  | _ => (none, none)

/-! ## The walk -/

/-- What one group of tokens does. -/
structure Step where
  /-- The flag that is set, with its value. -/
  setting : Option (Flag × Option String)
  /-- What is said about it. -/
  warning : Option Warning
deriving DecidableEq

namespace Step

/-- Sets a flag. -/
def set (flag : Flag) (value : Option String) : Step := ⟨some (flag, value), none⟩

/-- Skips the group with a warning. -/
def skip (warning : Warning) : Step := ⟨none, some warning⟩

end Step

/-- The step of a token with the token after it, and whether that one is taken as a value. -/
def readGroup (token : String) (next : Option String) : Step × Bool :=
  if flagLike token then
    match spelled token with
    | (none, _) => (.skip (.unknownFlag token), false)
    | (some flag, attached) =>
      match flag.arity, attached, next.filter fun t => !flagLike t with
      | .switch, none, _ => (.set flag none, false)
      | .switch, some _, _ => (⟨some (flag, none), some (.needlessValue token)⟩, false)
      | _, some value, _ => (.set flag (some value), false)
      | _, none, some value => (.set flag (some value), true)
      | .optional word, none, none => (.set flag (some word), false)
      | .required, none, none => (.skip (.missingValue token), false)
  else (.skip (.strayValue token), false)

/-- The steps of a list of tokens. -/
def walk : List String → List Step
  | [] => []
  | [token] => [(readGroup token none).1]
  | token :: next :: rest =>
    match readGroup token (some next) with
    | (step, false) => step :: walk (next :: rest)
    | (step, true) => step :: walk rest

/-! ## What the flags say -/

/-- The values of the flags, as written. -/
structure FlagValues where
  build : Option String := none
  platforms : Option String := none
  unittests : Option String := none
  talos : Option String := none
  jobs : List String := []
  rebuild : Option String := none
  rebuildTalos : Option String := none
  notifications : Option String := none
  env : List String := []
  profile : Bool := false
  tag : Option String := none
  noRetry : Bool := false
  interactive : Bool := false
deriving DecidableEq

namespace FlagValues

/-- Sets one flag: jobs and environment entries add up, of all others the last counts. -/
def set (values : FlagValues) (flag : Flag) (value : Option String) : FlagValues :=
  match flag with
  | .build => { values with build := value }
  | .platform => { values with platforms := value }
  | .unittests => { values with unittests := value }
  | .talos => { values with talos := value }
  | .job => { values with jobs := values.jobs ++ value.toList }
  | .rebuild => { values with rebuild := value }
  | .rebuildTalos => { values with rebuildTalos := value }
  | .allEmails => { values with notifications := some "all" }
  | .failureEmails => { values with notifications := some "failure" }
  | .notify => { values with notifications := value }
  | .setenv => { values with env := values.env ++ value.toList }
  | .profile => { values with profile := true }
  | .tag => { values with tag := value }
  | .noRetry => { values with noRetry := true }
  | .interactive => { values with interactive := true }

/-- The values after the steps of a walk. -/
def apply (values : FlagValues) (steps : List Step) : FlagValues :=
  (steps.filterMap (·.setting)).foldl (fun values (flag, value) => values.set flag value) values

end FlagValues

/-- The flag values of a list of tokens, with what was said about them. -/
def collectFlags (tokens : List String) : FlagValues × List Warning :=
  let steps := walk tokens
  (FlagValues.apply {} steps, steps.filterMap (·.warning))

end PushPlan.Request
