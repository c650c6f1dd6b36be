import LintCore.Config.Basic
import LintCore.Config.Document
import LintCore.Config.Load
import LintCore.Decimal.Binary64
import LintCore.Decimal.Shortest
import LintCore.Decimal.Style
import LintCore.Diagnostic.Basic
import LintCore.Diagnostic.Catalogue
import LintCore.Diagnostic.Catalogue.Assignment
import LintCore.Diagnostic.Catalogue.Distinct
import LintCore.Diagnostic.Catalogue.Else
import LintCore.Diagnostic.Catalogue.Entry
import LintCore.Diagnostic.Catalogue.Generator
import LintCore.Diagnostic.Catalogue.Methods
import LintCore.Diagnostic.Catalogue.Number
import LintCore.Diagnostic.Catalogue.Unclosed
import LintCore.Diagnostic.Field
import LintCore.Diagnostic.Json
import LintCore.Diagnostic.Kind
import LintCore.Diagnostic.Label
import LintCore.Diagnostic.Message
import LintCore.Diagnostic.Severity
import LintCore.Diagnostic.Template
import LintCore.EventLoop.Basic
import LintCore.EventLoop.Buffer
import LintCore.Json.Basic
import LintCore.Json.Decode
import LintCore.Json.Number
import LintCore.Json.Printer
import LintCore.Json.Reader
import LintCore.Language.StatementKind
import LintCore.Language.VariableKind
import LintCore.Pipe.Basic
import LintCore.Pipe.Fifo
import LintCore.Pipe.Script
import LintCore.Policy.Basic
import LintCore.Render.Line
import LintCore.Render.Object
import LintCore.Render.Terminal
import LintCore.Report.Reporter
import LintCore.Report.Sink
import LintCore.Report.Stream
import LintCore.Shape.Mismatch
import LintCore.Shape.Row
import LintCore.Source.Identifier
import LintCore.Source.Json
import LintCore.Source.Position
import LintCore.Source.Span
import LintCore.Source.Text
import LintCore.Text.Blank
import LintCore.Text.Digits
import LintCore.Text.Glyph
import LintCore.Text.Offset
import LintCore.Text.Quoted
import LintCore.Text.Spelling
import LintCore.Toml.Basic
import LintCore.Toml.Node
import LintCore.Toml.Reader
import LintCore.Toml.Scalar
import LintCore.Toml.Text
import LintCore.Proofs.EventLoop.Trace
import LintCore.Proofs.EventLoop.Delivery
import LintCore.Proofs.EventLoop.Scripted
import LintCore.Proofs.EventLoop.Waits
import LintCore.Proofs.EventLoop.Retries
import LintCore.Proofs.Source.LineBreaks
import LintCore.Proofs.Diagnostic.Naming
import LintCore.Proofs.Policy.Conflict
import LintCore.Proofs.Source.LineTable
import LintCore.Proofs.Source.Position
import LintCore.Proofs.EventLoop.Course
import LintCore.Proofs.Report.Entries
import LintCore.Proofs.Report.Accounting
import LintCore.Proofs.Report.Fanout
import LintCore.Proofs.Source.Lines
import LintCore.Proofs.Render.Carets
import LintCore.Proofs.Diagnostic.Arguments
import LintCore.Proofs.Diagnostic.Anchors
import LintCore.Proofs.Diagnostic.Templates
import LintCore.Proofs.Json.Records
import LintCore.Proofs.Json.Shapes
import LintCore.Proofs.Json.Text
import LintCore.Proofs.Json.Canonical
import LintCore.Proofs.Diagnostic.Forms
import LintCore.Proofs.Render.Object
import LintCore.Proofs.Render.Agreement
import LintCore.Proofs.Report.Configured
import LintCore.Proofs.EventLoop.Interleaving
import LintCore.Proofs.Render.Underline
import LintCore.Proofs.Render.Layout
import LintCore.Proofs.Diagnostic.Grammar
import LintCore.Proofs.EventLoop.Wakeups
import LintCore.Proofs.Policy.Reading
import LintCore.Proofs.Policy.Steps
import LintCore.Proofs.Source.Partition
import LintCore.Proofs.Report.LineFeeds
import LintCore.Proofs.Diagnostic.Codes
import LintCore.Proofs.Diagnostic.Escapes
import LintCore.Proofs.Diagnostic.Acceptance
import LintCore.Proofs.Toml.Keys
import LintCore.Proofs.Config.Tables
import LintCore.Proofs.Config.Loading
import LintCore.Proofs.Diagnostic.Seams
import LintCore.Proofs.EventLoop.Pieces
import LintCore.Proofs.Source.Locations
import LintCore.Proofs.Diagnostic.Characters
import LintCore.Proofs.Render.Color
import LintCore.Proofs.Source.Snippets
import LintCore.Proofs.Source.Limits
