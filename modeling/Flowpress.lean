import Flowpress.Binary64
import Flowpress.Binary64.Shortest
import Flowpress.Command.Argument
import Flowpress.Command.Failure
import Flowpress.Command.Program
import Flowpress.Command.Reading
import Flowpress.Command.Report
import Flowpress.Command.Script
import Flowpress.Command.Style
import Flowpress.Command.Usage
import Flowpress.Command.Work
import Flowpress.Document
import Flowpress.Document.Codec
import Flowpress.Document.Emission
import Flowpress.Element
import Flowpress.Emission.Config
import Flowpress.Emission.ConfigCodec
import Flowpress.Emission.Emitter
import Flowpress.Emission.Error
import Flowpress.Emission.Literal
import Flowpress.Emission.Segment
import Flowpress.Emission.Source
import Flowpress.Emission.Statistics
import Flowpress.Emission.Target
import Flowpress.Files.Path
import Flowpress.Files.Tree
import Flowpress.Flow
import Flowpress.Json.Cursor
import Flowpress.Json.Decode
import Flowpress.Json.Fault
import Flowpress.Json.Numeral
import Flowpress.Json.Printer
import Flowpress.Json.Reader
import Flowpress.Json.Record
import Flowpress.Json.StringReader
import Flowpress.Json.Value
import Flowpress.Main
import Flowpress.Pipeline.Action
import Flowpress.Pipeline.Catalogue
import Flowpress.Pipeline.Consumption
import Flowpress.Pipeline.Contention
import Flowpress.Pipeline.Names
import Flowpress.Pipeline.Plan
import Flowpress.Pipeline.Range
import Flowpress.Pipeline.Session
import Flowpress.Pipeline.View
import Flowpress.Project.Settings
import Flowpress.Proofs.Binary64.Comparison
import Flowpress.Proofs.Binary64.Rounding
import Flowpress.Proofs.Command.Generation
import Flowpress.Proofs.Command.Scripts
import Flowpress.Proofs.Command.Verification
import Flowpress.Proofs.Document.Building
import Flowpress.Proofs.Document.Characters
import Flowpress.Proofs.Document.Emittable
import Flowpress.Proofs.Document.Equality
import Flowpress.Proofs.Document.Parts
import Flowpress.Proofs.Document.Results
import Flowpress.Proofs.Document.RoundTrip
import Flowpress.Proofs.Document.Unambiguous
import Flowpress.Proofs.Elements
import Flowpress.Proofs.Emission.Canonical
import Flowpress.Proofs.Emission.Drivers
import Flowpress.Proofs.Emission.Headers
import Flowpress.Proofs.Emission.Layout
import Flowpress.Proofs.Emission.Layout.Rust
import Flowpress.Proofs.Emission.Layout.TypeScript
import Flowpress.Proofs.Emission.Lines
import Flowpress.Proofs.Emission.Listings
import Flowpress.Proofs.Emission.Literals
import Flowpress.Proofs.Emission.Names
import Flowpress.Proofs.Emission.Presentation
import Flowpress.Proofs.Emission.Refusals
import Flowpress.Proofs.Emission.Scopes
import Flowpress.Proofs.Emission.Segments
import Flowpress.Proofs.Emission.Sources
import Flowpress.Proofs.Emission.Statistics
import Flowpress.Proofs.Emission.Tokens
import Flowpress.Proofs.Emission.Units
import Flowpress.Proofs.Files.Replacement
import Flowpress.Proofs.Flow.Agreement
import Flowpress.Proofs.Flow.Chains
import Flowpress.Proofs.Flow.Contents
import Flowpress.Proofs.Flow.Demand
import Flowpress.Proofs.Flow.Merging
import Flowpress.Proofs.Flow.Recast
import Flowpress.Proofs.Flow.Resorting
import Flowpress.Proofs.Flow.SortedSets
import Flowpress.Proofs.Flow.Sorting
import Flowpress.Proofs.Json.Characters
import Flowpress.Proofs.Json.Numerals
import Flowpress.Proofs.Json.Order
import Flowpress.Proofs.Json.Parts
import Flowpress.Proofs.Json.Reading
import Flowpress.Proofs.Json.Records
import Flowpress.Proofs.Json.RoundTrip
import Flowpress.Proofs.Json.Unambiguous
import Flowpress.Proofs.Outcome
import Flowpress.Proofs.Pipeline.Ancestry
import Flowpress.Proofs.Pipeline.Appending
import Flowpress.Proofs.Pipeline.Barriers
import Flowpress.Proofs.Pipeline.Contention
import Flowpress.Proofs.Pipeline.CountCalls
import Flowpress.Proofs.Pipeline.Counting
import Flowpress.Proofs.Pipeline.Demand
import Flowpress.Proofs.Pipeline.DepthFirst
import Flowpress.Proofs.Pipeline.Isolation
import Flowpress.Proofs.Pipeline.Labels
import Flowpress.Proofs.Pipeline.Limits
import Flowpress.Proofs.Pipeline.NormalForms
import Flowpress.Proofs.Pipeline.Openings
import Flowpress.Proofs.Pipeline.Optimize
import Flowpress.Proofs.Pipeline.Orders
import Flowpress.Proofs.Pipeline.Peeks
import Flowpress.Proofs.Pipeline.Ranges
import Flowpress.Proofs.Pipeline.Recast
import Flowpress.Proofs.Pipeline.Running
import Flowpress.Proofs.Pipeline.Sessions
import Flowpress.Proofs.Pipeline.Sources
import Flowpress.Proofs.Pipeline.Stages
import Flowpress.Proofs.Pipeline.Stripping
import Flowpress.Proofs.Pipeline.Sums
import Flowpress.Text.Blank
import Flowpress.Text.Quoted
import Flowpress.Text.Unseen
import Flowpress.Toml.Calendar
import Flowpress.Toml.Decode
import Flowpress.Toml.Document
import Flowpress.Toml.Grammar
import Flowpress.Toml.Numeral
import Flowpress.Toml.Quoted
import Flowpress.Toml.Value
