import PushPlan.Command
import PushPlan.Text.Line

/-!
# PushPlan.Command.Line

Reading the command line:

1. options stand before or after the name of the command; a shared option may
   stand in both places, and the one after the name counts, but nowhere may
   an option stand twice;
2. an option has a long name and perhaps a letter; letters may be joined, and
   the value of the last follows directly, after `=`, or as the next word;
3. a value that is a word of its own does not start with `-`, unless it is
   `-` alone;
4. after `--`, everything is a word;
5. a path is not empty; the settings file may come from the environment, if
   no option names it.

What does not follow these rules has no reading.
-/

namespace PushPlan.Command

open Text

/-! ## Options -/

/-- An option that may be given. -/
structure OptionSpec where
  long : String
  short : Option Char
  takesValue : Bool

/-- An option that is given, with its value if it takes one. -/
structure Given where
  long : String
  value : Option String

/-- The options that all commands share. -/
def sharedSpecs : List OptionSpec :=
  [⟨"quiet", some 'q', false⟩, ⟨"format", none, true⟩, ⟨"directory", some 'C', true⟩,
    ⟨"config", some 'c', true⟩]

/-- Whether a word is an option, and not a value. -/
def isOption (word : String) : Bool := word != "-" && startsWith ['-'] word.toList

/-- Takes the next word as a value. -/
def nextValue? : List String → Option (String × List String)
  | [] => none
  | word :: rest => if isOption word then none else some (word, rest)

/-- Reads joined letters, then perhaps the value of the last. -/
def readLetters? (specs : List OptionSpec) :
    List Char → List String → Option (List Given × List String)
  | [], rest => some ([], rest)
  | c :: cs, rest => do
    let spec ← specs.find? fun s => s.short == some c
    if spec.takesValue then
      let (value, rest) ←
        match cs with
        | [] => nextValue? rest
        | '=' :: value => some (String.ofList value, rest)
        | value => some (String.ofList value, rest)
      some ([⟨spec.long, some value⟩], rest)
    else
      let (given, rest) ← readLetters? specs cs rest
      some (⟨spec.long, none⟩ :: given, rest)

/-- Reads a long name, perhaps with its value. -/
def readLong? (specs : List OptionSpec) (word : List Char) (rest : List String) :
    Option (Given × List String) := do
  let (name, attached) :=
    match splitAt? '=' word with
    | some (name, value) => (name, some (String.ofList value))
    | none => (word, none)
  let spec ← specs.find? fun s => s.long == String.ofList name
  match spec.takesValue, attached with
  | true, some value => some (⟨spec.long, some value⟩, rest)
  | true, none => (nextValue? rest).map fun (value, rest) => (⟨spec.long, some value⟩, rest)
  | false, none => some (⟨spec.long, none⟩, rest)
  | false, some _ => none

/-- Reads the options that one word starts. -/
def readOption? (specs : List OptionSpec) (word : String) (rest : List String) :
    Option (List Given × List String) :=
  match word.toList with
  | '-' :: '-' :: name => (readLong? specs name rest).map fun (g, rest) => ([g], rest)
  | '-' :: letters => readLetters? specs letters rest
  | _ => none

/-- Whether no option is given twice. -/
def isSingle (given : List Given) : Bool := decide (given.map (·.long)).Nodup

/-! ## Words -/

/-- Reads options up to the first word; at most `fuel` words are looked at. -/
def beforeWord? (specs : List OptionSpec) : Nat → List String → Option (List Given × List String)
  | 0, _ | _, [] => none
  | fuel + 1, word :: rest =>
    if isOption word then do
      let (given, rest) ← readOption? specs word rest
      let (more, rest) ← beforeWord? specs fuel rest
      some (given ++ more, rest)
    else some ([], word :: rest)

/-- Reads options and words to the end; at most `fuel` words are looked at. -/
def toEnd? (specs : List OptionSpec) : Nat → List String → Option (List Given × List String)
  | 0, _ => none
  | _, [] => some ([], [])
  | fuel + 1, word :: rest =>
    if word = "--" then some ([], rest)
    else if isOption word then do
      let (given, rest) ← readOption? specs word rest
      let (more, words) ← toEnd? specs fuel rest
      some (given ++ more, words)
    else do
      let (given, words) ← toEnd? specs fuel rest
      some (given, word :: words)

/-! ## Values -/

/-- The option of a name, if it is given. -/
def find? (given : List Given) (long : String) : Option Given := given.find? (·.long == long)

/-- Whether an option is given. -/
def has (given : List Given) (long : String) : Bool := (find? given long).isSome

/-- The value of an option that is given. -/
def value? (given : List Given) (long : String) : Option String :=
  (find? given long).bind (·.value)

/-- Reads the value of an option, if it is given; the inner reading may fail. -/
def read? {α : Type} (read : String → Option α) (given : List Given) (long : String) :
    Option (Option α) :=
  match value? given long with
  | none => some none
  | some s => (read s).map some

/-- A path, which must not be empty. -/
def path? (s : String) : Option String := if s = "" then none else some s

/-- Reads the shared options of one place; the environment may name a settings file. -/
def readShared? (environment : Option String) (given : List Given) :
    Option (Option OutputFormat × Option String × Option String × Option String) := do
  let format ← read? OutputFormat.ofWord? given "format"
  let directory ← read? path? given "directory"
  let config ← read? path? given "config"
  let fallback ←
    match config, environment with
    | none, some s => (path? s).map some
    | _, _ => some none
  some (format, directory, config, fallback)

/-- Reads the shared options from before and after the name of the command. -/
def readOptions? (environment : Option String) (before after : List Given) : Option Options := do
  let (format, directory, config, fallback) ← readShared? environment before
  let (format', directory', config', fallback') ← readShared? environment after
  some
    { quiet := has before "quiet" || has after "quiet"
      format := (format'.or format).getD .text
      directory := directory'.or directory
      config := config'.or (config.or (fallback'.or fallback)) }

/-! ## Commands -/

/-- The options of a command of its own. -/
def specsOf : String → Option (List OptionSpec)
  | "init" =>
    some [⟨"force", some 'f', false⟩, ⟨"toml", none, false⟩, ⟨"output", some 'o', true⟩]
  | "select" =>
    some [⟨"graph", some 'g', true⟩, ⟨"strategy", some 's', true⟩,
      ⟨"parameters", some 'p', true⟩, ⟨"project", none, true⟩, ⟨"message", some 'm', true⟩]
  | "try" => some [⟨"graph", some 'g', true⟩]
  | "strategies" | "validate" => some []
  | _ => none

/-- Reads a command, given its options and words. -/
def readCommand? (name : String) (given : List Given) (words : List String) : Option Command := do
  match name, words with
  | "init", [] =>
    some (.init
      { force := has given "force"
        toml := has given "toml"
        output := ← read? path? given "output" })
  | "select", [] =>
    some (.select
      { graph := ← (← read? path? given "graph")
        strategy := (value? given "strategy").getD "default"
        parameters := ← read? path? given "parameters"
        project := value? given "project"
        message := value? given "message" })
  | "try", [message] => some (.request message (← read? path? given "graph"))
  | "strategies", [] => some .strategies
  | "validate", [] => some .validate
  | _, _ => none

/-- Reads a command line; the environment may name a settings file. -/
def readLine? (environment : Option String) (words : List String) : Option Invocation := do
  let (before, words) ← beforeWord? sharedSpecs (words.length + 1) words
  match words with
  | [] => none
  | name :: words =>
    let specs ← specsOf name
    let (after, words) ← toEnd? (specs ++ sharedSpecs) (words.length + 1) words
    if !isSingle before || !isSingle after then none
    else
      some
        { options := ← readOptions? environment before after
          command := ← readCommand? name after words }

end PushPlan.Command
