import SourceMerge.Text
import SourceMerge.Text.Position
import SourceMerge.Text.Blank
import SourceMerge.Text.Printable
import SourceMerge.Text.Identifier
import SourceMerge.Text.CaseMap
import SourceMerge.Text.Quoted
import SourceMerge.Text.Utf8
import SourceMerge.Base64
import SourceMerge.Decimal.Shortest
import SourceMerge.Decimal
import SourceMerge.Data
import SourceMerge.Json.Printer
import SourceMerge.Json.Parser
import SourceMerge.Path
import SourceMerge.Directive
import SourceMerge.Mapping.Quantity
import SourceMerge.Mapping.Segment
import SourceMerge.Log
import SourceMerge.Graph
import SourceMerge.Graph.Cascade
import SourceMerge.Graph.Diagnostic
import SourceMerge.Table
import SourceMerge.Store
import SourceMerge.Store.Memory
import SourceMerge.Store.Tree
import SourceMerge.Store.Disk
import SourceMerge.Banner
import SourceMerge.Hook
import SourceMerge.Mapping.Reference
import SourceMerge.Mapping.Inherited
import SourceMerge.Mapping.Delivery
import SourceMerge.Mapping.Recorder
import SourceMerge.Template.Token
import SourceMerge.Template.Tree
import SourceMerge.Template.Reader
import SourceMerge.Template.Value
import SourceMerge.Template.Operation
import SourceMerge.Calendar
import SourceMerge.Template.Filter
import SourceMerge.Template.Render
import SourceMerge.Template
import SourceMerge.Transform
import SourceMerge.Options
import SourceMerge.Merge
import SourceMerge.Glob.Pattern
import SourceMerge.Glob
import SourceMerge.Sources
import SourceMerge.Project
import SourceMerge.Run
import SourceMerge.Log.Plan
import SourceMerge.Session
import SourceMerge.CommandLine.Switch
import SourceMerge.CommandLine.Invocation
import SourceMerge.CommandLine
import SourceMerge.Main
import SourceMerge.Yaml.Cursor
import SourceMerge.Yaml.Scalar
import SourceMerge.Yaml.Token
import SourceMerge.Yaml.Node
import SourceMerge.Proofs.Graph.Edges
import SourceMerge.Proofs.Graph.Walk
import SourceMerge.Proofs.Graph.Order
import SourceMerge.Proofs.Path.Canonical
import SourceMerge.Proofs.Store.Snapshot
import SourceMerge.Proofs.Merge.Loading
import SourceMerge.Proofs.Mapping.Recording
import SourceMerge.Proofs.Merge.Plan
import SourceMerge.Proofs.Merge.Files
import SourceMerge.Proofs.Merge.Composition
import SourceMerge.Proofs.Directive.Origin
import SourceMerge.Proofs.Mapping.RoundTrip
import SourceMerge.Proofs.Mapping.Document
import SourceMerge.Proofs.Merge.Faithful
import SourceMerge.Proofs.Merge.Return
import SourceMerge.Proofs.Store.Observed
import SourceMerge.Proofs.Merge.Independence
import SourceMerge.Proofs.Base64
import SourceMerge.Proofs.Text.Ascii
import SourceMerge.Proofs.Json.Escape
import SourceMerge.Proofs.Json.RoundTrip
import SourceMerge.Proofs.Json.Visible
import SourceMerge.Proofs.Path.Relative
import SourceMerge.Proofs.Path.Directory
import SourceMerge.Proofs.Mapping.Reference
import SourceMerge.Proofs.Mapping.Inherited
import SourceMerge.Proofs.Merge.Inline
import SourceMerge.Proofs.Directive.Lines
import SourceMerge.Proofs.Mapping.Compose
import SourceMerge.Proofs.Store.Tree
import SourceMerge.Proofs.Store.Disk
import SourceMerge.Proofs.Run.Looking
import SourceMerge.Proofs.Run.Phases
import SourceMerge.Proofs.Run.Maps
import SourceMerge.Proofs.Path.Way
import SourceMerge.Proofs.Mapping.Places
import SourceMerge.Proofs.Mapping.Comment
import SourceMerge.Proofs.Mapping.Ignored
import SourceMerge.Proofs.Merge.Carried
import SourceMerge.Proofs.Merge.Conflict
import SourceMerge.Proofs.Graph.Permutation
import SourceMerge.Proofs.Merge.Unmapped
import SourceMerge.Proofs.Run.Conflict
import SourceMerge.Proofs.Graph.DepthFirst
import SourceMerge.Proofs.Directive.Removal
import SourceMerge.Proofs.Directive.Seams
import SourceMerge.Proofs.Merge.Diagnosis
import SourceMerge.Proofs.Mapping.Walk
import SourceMerge.Proofs.Mapping.Attribution
import SourceMerge.Proofs.Mapping.Steps
import SourceMerge.Proofs.Mapping.Payload
import SourceMerge.Proofs.Mapping.Shift
import SourceMerge.Proofs.Mapping.Cleaning
import SourceMerge.Proofs.Mapping.Broken
import SourceMerge.Proofs.Mapping.Shortest
import SourceMerge.Proofs.Graph.Locality
import SourceMerge.Proofs.Graph.Construction
import SourceMerge.Proofs.Directive.Grammar
import SourceMerge.Proofs.Banner.Block
import SourceMerge.Proofs.Banner.Lines
import SourceMerge.Proofs.Banner.Widening
import SourceMerge.Proofs.Merge.Circular
import SourceMerge.Proofs.Run.Choosing
import SourceMerge.Proofs.Mapping.Replacing
import SourceMerge.Proofs.Path.Spelling
import SourceMerge.Proofs.Options.Values
import SourceMerge.Proofs.Options.Reading
import SourceMerge.Proofs.Path.Resolved
import SourceMerge.Proofs.Project.Reading
import SourceMerge.Proofs.Project.Loading
