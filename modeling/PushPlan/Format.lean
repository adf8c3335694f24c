import PushPlan.FileTree
import PushPlan.Json.Printer
import PushPlan.Json.Reader
import PushPlan.Shape
import PushPlan.Toml.Printer
import PushPlan.Yaml.Printer
import PushPlan.Yaml.Reader

/-!
# PushPlan.Format

The formats of documents.

1. The extension of a file decides its format; one that is not known means
   YAML.
2. A document of texts and a document of values by name differ in YAML alone,
   where a plain scalar is a text in the one and a value in the other.
3. What reads and prints documents is a parameter (`Formats`).  What is done with
   the documents goes by their values alone, whatever reads them.
4. The readers of the program (`Formats.standard`) take all of JSON.  In YAML they
   refuse directives, anchors, tags, block scalars and scalars of several lines; in
   TOML dates, arrays of tables and strings of several lines.
-/

namespace PushPlan

/-- A document format. -/
inductive Format where
  | json
  | yaml
  | toml
deriving DecidableEq

/-- Why a document cannot be used. -/
inductive DocumentError where
  /-- The file cannot be read. -/
  | unreadable (e : FileError)
  /-- The text is not of the format. -/
  | malformed (format : Format)
  /-- The document has another shape. -/
  | misshapen (format : Format) (e : ShapeError)
deriving DecidableEq

namespace Format

/-- The format of a file. -/
def ofPath (path : String) : Format :=
  match Path.extension? path with
  | some "json" => .json
  | some "toml" => .toml
  | _ => .yaml

/-- The word for a format. -/
def word : Format → String
  | .json => "json"
  | .yaml => "yaml"
  | .toml => "toml"

/-- The format of a word. -/
def ofWord? : String → Option Format
  | "json" => some .json
  | "yaml" => some .yaml
  | "toml" => some .toml
  | _ => none

/-- The name of a format. -/
def name : Format → String
  | .json => "JSON"
  | .yaml => "YAML"
  | .toml => "TOML"

/-- What a format allows where structures are read. -/
def dialect : Format → Dialect
  | .json => .json
  | .yaml => .yaml
  | .toml => .toml

/-- Reads the value of a document, if there is one. -/
def decode {α : Type} (format : Format) (read : Shape.Reader α) :
    Option Value → Except DocumentError α
  | none => .error (.malformed format)
  | some v => (read v).mapError (.misshapen format)

end Format

/-! ## Readers and printers -/

/-- What reads and prints documents. -/
class Formats where
  /-- The value of a document of texts. -/
  texts? : Format → String → Option Value
  /-- The value of a document of values by name. -/
  entries? : Format → String → Option Value
  /-- A value in JSON. -/
  json : Value → String
  /-- A value in TOML. -/
  toml : Value → String
  /-- A block in YAML. -/
  yaml : Yaml.Block → String

/-- The readers and printers of the program. -/
instance Formats.standard : Formats where
  texts?
    | .json, text => Json.read? text
    | .yaml, text => (Yaml.read? text).map Yaml.Node.asTexts
    | .toml, text => Toml.read? text
  entries?
    | .json, text => Json.read? text
    | .yaml, text => (Yaml.read? text).bind Yaml.Node.asEntries?
    | .toml, text => Toml.read? text
  json := Json.pretty
  toml := Toml.render
  yaml := Yaml.Block.render

/-- The wording of a failure. -/
def DocumentError.message : DocumentError → String
  | .unreadable e => "IO error reading config: " ++ e.message
  | .malformed format => format.name ++ " parsing error"
  | .misshapen format e => format.name ++ " parsing error: " ++ e.message

end PushPlan
