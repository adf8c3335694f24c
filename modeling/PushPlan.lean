import PushPlan.Word
import PushPlan.Value
import PushPlan.Text.Blank
import PushPlan.Text.Line
import PushPlan.Text.Numeral
import PushPlan.Settings
import PushPlan.Request.Token
import PushPlan.Request.Items
import PushPlan.Request.Warning
import PushPlan.Request.Flag
import PushPlan.Request.Suite
import PushPlan.Request.Selection
import PushPlan.Request.Spec
import PushPlan.Request
import PushPlan.Text.Hex
import PushPlan.Text.Escape
import PushPlan.Text.Bracketed
import PushPlan.Json.Reader
import PushPlan.Json.Printer
import PushPlan.Request.Document
import PushPlan.Text.Printable
import PushPlan.Text.Quoted
import PushPlan.Graph
import PushPlan.Task
import PushPlan.Shape
import PushPlan.Task.Document
import PushPlan.TaskGraph
import PushPlan.Request.Matching
import PushPlan.Path
import PushPlan.FileTree
import PushPlan.TaskGraph.Document
import PushPlan.Settings.Legal
import PushPlan.Settings.Document
import PushPlan.Settings.Template
import PushPlan.Parameters
import PushPlan.Strategy
import PushPlan.Strategy.Registry
import PushPlan.Decimal.Reader
import PushPlan.Yaml.Scalar
import PushPlan.Yaml.Node
import PushPlan.Yaml.Flow
import PushPlan.Yaml.Reader
import PushPlan.Toml.Scalar
import PushPlan.Toml.Table
import PushPlan.Toml.Reader
import PushPlan.Toml.Printer
import PushPlan.Format
import PushPlan.Settings.Search
import PushPlan.Parameters.Document
import PushPlan.Yaml.Printer
import PushPlan.Request.Outline
import PushPlan.Schedule
import PushPlan.Command
import PushPlan.Command.Line
import PushPlan.Command.Outcome
import PushPlan.Command.Run
import PushPlan.Command.Scope
import PushPlan.Main
import PushPlan.Proofs.Sorted
import PushPlan.Proofs.Text.Blank
import PushPlan.Proofs.Text.Numeral
import PushPlan.Proofs.Request.Items
import PushPlan.Proofs.Request.Entry
import PushPlan.Proofs.Request.Suites
import PushPlan.Proofs.Request.Chunk
import PushPlan.Proofs.Request.Grouping
import PushPlan.Proofs.Failure
import PushPlan.Proofs.Request.Walk
import PushPlan.Proofs.Shape
import PushPlan.Proofs.Task.Document
import PushPlan.Proofs.TaskGraph.Constructors
import PushPlan.Proofs.TaskGraph.Document
import PushPlan.Proofs.TaskGraph.NormalForm
import PushPlan.Proofs.TaskGraph.Access
import PushPlan.Proofs.Graph.Reach
import PushPlan.Proofs.Graph.Walk
import PushPlan.Proofs.TaskGraph.Invariant
import PushPlan.Proofs.Strategy.Local
import PushPlan.Proofs.Strategy.Project
import PushPlan.Proofs.Strategy.Registry
import PushPlan.Proofs.Strategy.Schedule
import PushPlan.Proofs.Request.Grammar
import PushPlan.Proofs.Request.Spelling
import PushPlan.Proofs.Request.Runs
import PushPlan.Proofs.Request.Token
import PushPlan.Proofs.Request.Quoted
import PushPlan.Proofs.Request.CommaList
import PushPlan.Proofs.Request.Marker
import PushPlan.Proofs.Request.Matching
import PushPlan.Proofs.Request.Monotone
import PushPlan.Proofs.Settings.Legal
import PushPlan.Proofs.Request.Classes
import PushPlan.Proofs.Command.Settings
import PushPlan.Proofs.Command.Selection
import PushPlan.Proofs.Command.Output
import PushPlan.Proofs.Strategy.History
import PushPlan.Proofs.TaskGraph.Faults
import PushPlan.Proofs.TaskGraph.Collect
import PushPlan.Proofs.TaskGraph.Refusal
import PushPlan.Proofs.Path
import PushPlan.Proofs.FileTree
import PushPlan.Proofs.Settings.Search
import PushPlan.Proofs.Settings.SharedKind
import PushPlan.Proofs.Settings.Fault
import PushPlan.Proofs.Request.Filter
import PushPlan.Proofs.Request.Counts
import PushPlan.Proofs.Request.RideAlong
import PushPlan.Proofs.Request.Pattern
import PushPlan.Proofs.Request.Kept
import PushPlan.Proofs.Request.Repeated
import PushPlan.Proofs.Settings.Template
import PushPlan.Proofs.Command.Init
