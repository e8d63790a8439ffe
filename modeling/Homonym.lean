import Homonym.CommandLine.Environment
import Homonym.CommandLine.Phrase
import Homonym.CommandLine.Request
import Homonym.CommandLine.Run
import Homonym.CommandLine.Usage
import Homonym.FileTree.Basic
import Homonym.FileTree.Edit
import Homonym.FileTree.Walk
import Homonym.Json.Basic
import Homonym.Log.Event
import Homonym.Log.Filter
import Homonym.Log.Pattern
import Homonym.Log.Run
import Homonym.Main
import Homonym.Path.Basic
import Homonym.Path.Relative
import Homonym.Report.Basic
import Homonym.Report.Sink
import Homonym.Report.Style
import Homonym.Source.Clash
import Homonym.Source.Definition
import Homonym.Source.Header
import Homonym.Source.Line
import Homonym.Survey.Basic
import Homonym.Survey.Discovery
import Homonym.Survey.Failure
import Homonym.Survey.Findings
import Homonym.Survey.Json
import Homonym.Survey.Run
import Homonym.Survey.Selection
import Homonym.Terminal.Printable
import Homonym.Terminal.Sequence
import Homonym.Text.Alphanumeric
import Homonym.Text.Basic
import Homonym.Text.Space
import Homonym.Text.Utf8
import Homonym.Proofs.Text.Cut
import Homonym.Proofs.Text.Trim
import Homonym.Proofs.Text.Utf8
import Homonym.Proofs.Terminal.Unstyled
import Homonym.Proofs.Source.Lines
import Homonym.Proofs.Source.Header
import Homonym.Proofs.Source.Extent
import Homonym.Proofs.Source.Grouping
import Homonym.Proofs.Source.Names
import Homonym.Proofs.Source.Slots
import Homonym.Proofs.Source.Nesting
import Homonym.Proofs.Source.Concatenation
import Homonym.Proofs.Source.Layout
import Homonym.Proofs.Source.Insertion
import Homonym.Proofs.Source.Excerpt
import Homonym.Proofs.Source.Returns
import Homonym.Proofs.Source.Words
import Homonym.Proofs.Path.Below
import Homonym.Proofs.Path.Relative
import Homonym.Proofs.FileTree.Listing
import Homonym.Proofs.FileTree.Look
import Homonym.Proofs.Json.Grammar
import Homonym.Proofs.Json.Reader
import Homonym.Proofs.Survey.Discovery
import Homonym.Proofs.Survey.Partition
import Homonym.Proofs.Survey.Delivery
import Homonym.Proofs.Survey.Document
import Homonym.Proofs.Report.Rows
import Homonym.Proofs.Report.Reading
import Homonym.Proofs.Report.Styling
import Homonym.Proofs.Report.Numbers
import Homonym.Proofs.Report.Returns
import Homonym.Proofs.Report.Filling
import Homonym.Proofs.Log.Run
import Homonym.Proofs.Log.Events
import Homonym.Proofs.CommandLine.Arguments
import Homonym.Proofs.CommandLine.Status
import Homonym.Proofs.Path.Remainder
import Homonym.Proofs.Survey.Exclusion
import Homonym.Proofs.Survey.Shown
import Homonym.Proofs.Report.Respelling
import Homonym.Proofs.CommandLine.Logging
