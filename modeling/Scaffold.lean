import Scaffold.Text.Basic
import Scaffold.Text.Ranges
import Scaffold.Text.Blank
import Scaffold.Text.Alphanumeric
import Scaffold.Text.Digit
import Scaffold.Text.UpperCase
import Scaffold.Text.Printable
import Scaffold.Text.Quoted
import Scaffold.Text.Utf8
import Scaffold.Number.Double
import Scaffold.Number.Shortest
import Scaffold.Number.Numeral
import Scaffold.Value.Basic
import Scaffold.Value.Display
import Scaffold.Value.Exchange
import Scaffold.Value.Json
import Scaffold.Value.Source
import Scaffold.Token.Basic
import Scaffold.Token.Escape
import Scaffold.Token.Literal
import Scaffold.Token.Lexer
import Scaffold.Expr.Basic
import Scaffold.Expr.Reader
import Scaffold.Log.Record
import Scaffold.Resource.Basic
import Scaffold.Resource.Validation
import Scaffold.Schema.Declaration
import Scaffold.Schema.Extract
import Scaffold.Artifact.Code
import Scaffold.Artifact.Collection
import Scaffold.Artifact.Columns
import Scaffold.Artifact.Form
import Scaffold.Artifact.Analytics
import Scaffold.Artifact.Pages
import Scaffold.Text.Layout
import Scaffold.Text.Operation
import Scaffold.Text.Subject
import Scaffold.Text.Template
import Scaffold.Artifact.Plan
import Scaffold.Project.Disk
import Scaffold.Project.Files
import Scaffold.Yaml.Moment
import Scaffold.Yaml.Basic
import Scaffold.Yaml.Plain
import Scaffold.Yaml.Cursor
import Scaffold.Yaml.Written
import Scaffold.Yaml.Token
import Scaffold.Yaml.Node
import Scaffold.Yaml.Reader
import Scaffold.Settings.Basic
import Scaffold.Settings.Validation
import Scaffold.Hub.Basic
import Scaffold.Hub.Probe
import Scaffold.Hub.Standard
import Scaffold.Log.Sink
import Scaffold.Project.Wiring
import Scaffold.Project.Writing
import Scaffold.Project.Discovery
import Scaffold.Project.Batch
import Scaffold.Command.Line
import Scaffold.Command.Request
import Scaffold.Command.Program
import Scaffold.Main
import Scaffold.Proofs.Text.Lines
import Scaffold.Proofs.Text.Occurrence
import Scaffold.Proofs.Hub.Exactness
import Scaffold.Proofs.Hub.Importing
import Scaffold.Proofs.Hub.Layouts
import Scaffold.Proofs.Project.Insertion
import Scaffold.Proofs.Project.Ledger
import Scaffold.Proofs.Expr.Reading
import Scaffold.Proofs.Schema.Chain
import Scaffold.Proofs.Schema.Constants
import Scaffold.Proofs.Expr.Provenance
import Scaffold.Proofs.Hub.Binding
import Scaffold.Proofs.Project.Binding
import Scaffold.Proofs.Project.Returning
import Scaffold.Proofs.Project.Source
import Scaffold.Proofs.Schema.Extraction
import Scaffold.Proofs.Project.Change
import Scaffold.Proofs.Project.Executing
import Scaffold.Proofs.Project.Regeneration
import Scaffold.Proofs.Project.Isolation
import Scaffold.Proofs.Project.Overwriting
import Scaffold.Proofs.Artifact.Planning
import Scaffold.Proofs.Artifact.Module
import Scaffold.Proofs.Artifact.Interface
import Scaffold.Proofs.Artifact.Linking
import Scaffold.Proofs.Command.Child
import Scaffold.Proofs.Token.Span
import Scaffold.Proofs.Token.Filler
import Scaffold.Proofs.Value.Roundtrip
import Scaffold.Proofs.Expr.Comparison
import Scaffold.Proofs.Text.Wildcard
import Scaffold.Proofs.Project.Discovery
import Scaffold.Proofs.Project.Selection
import Scaffold.Proofs.Project.Absence
import Scaffold.Proofs.Project.Twins
import Scaffold.Proofs.Command.Batch
import Scaffold.Proofs.Token.Substitution
import Scaffold.Proofs.Schema.TypeArguments
import Scaffold.Proofs.Schema.Annotation
import Scaffold.Proofs.Schema.Removal
import Scaffold.Proofs.Schema.Way
import Scaffold.Proofs.Expr.Nesting
import Scaffold.Proofs.Number.Hexadecimal
import Scaffold.Proofs.Token.Escaping
import Scaffold.Proofs.Hub.Presence
import Scaffold.Proofs.Hub.Icons
import Scaffold.Proofs.Artifact.Containment
import Scaffold.Proofs.Hub.Entries
import Scaffold.Proofs.Artifact.Attributes
import Scaffold.Proofs.Artifact.Dashboard
import Scaffold.Proofs.Number.Integer
import Scaffold.Proofs.Token.Division
import Scaffold.Proofs.Artifact.Address
import Scaffold.Proofs.Project.Collision
