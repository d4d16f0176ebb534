import CheckedFlow.Assertion.Iterable
import CheckedFlow.Assertion.Singleton
import CheckedFlow.Bytes
import CheckedFlow.Check.Evidence
import CheckedFlow.Check.Relation
import CheckedFlow.Check.Stage
import CheckedFlow.Check.Verdict
import CheckedFlow.Codec.Basic
import CheckedFlow.Codec.Frame
import CheckedFlow.Codec.Keyed
import CheckedFlow.Counter.Basic
import CheckedFlow.Counter.Cells
import CheckedFlow.Counter.Exposition
import CheckedFlow.Decimal.Layout
import CheckedFlow.Decimal.Reading
import CheckedFlow.Decimal.Shortest
import CheckedFlow.Decoding.Fault
import CheckedFlow.Element.Dictionary
import CheckedFlow.Element.Document
import CheckedFlow.Element.Kind
import CheckedFlow.Element.Plain
import CheckedFlow.Failure.Difference
import CheckedFlow.Failure.Pipeline
import CheckedFlow.Failure.Serialization
import CheckedFlow.Graph.Basic
import CheckedFlow.Graph.Build
import CheckedFlow.Graph.Handle
import CheckedFlow.Graph.Processing
import CheckedFlow.Graph.Source
import CheckedFlow.Graph.Stage
import CheckedFlow.Graph.Transform
import CheckedFlow.Json.Basic
import CheckedFlow.Json.Number
import CheckedFlow.Json.Reader
import CheckedFlow.Json.Render
import CheckedFlow.Options.Basic
import CheckedFlow.Options.Document
import CheckedFlow.Options.Environment
import CheckedFlow.Run.Chunk
import CheckedFlow.Run.Evaluate
import CheckedFlow.Run.Report
import CheckedFlow.Script.Check
import CheckedFlow.Script.Codec
import CheckedFlow.Script.Function
import CheckedFlow.Script.Step
import CheckedFlow.Script.World
import CheckedFlow.Text.Blank
import CheckedFlow.Text.Entries
import CheckedFlow.Text.Extending
import CheckedFlow.Text.Hidden
import CheckedFlow.Text.Numeral
import CheckedFlow.Text.Printing
import CheckedFlow.Text.Quoted
import CheckedFlow.View.Basic
import CheckedFlow.View.Contents
import CheckedFlow.Window
import CheckedFlow.Yaml.Cursor
import CheckedFlow.Yaml.Event
import CheckedFlow.Yaml.Resolve
import CheckedFlow.Yaml.Scalar
import CheckedFlow.Yaml.Tag
import CheckedFlow.Yaml.Token
import CheckedFlow.Proofs.Assertion.AllOrNothing
import CheckedFlow.Proofs.Assertion.BoundedRun
import CheckedFlow.Proofs.Assertion.Call
import CheckedFlow.Proofs.Assertion.Containment
import CheckedFlow.Proofs.Assertion.ExistingView
import CheckedFlow.Proofs.Assertion.FirstFailure
import CheckedFlow.Proofs.Assertion.Mapping
import CheckedFlow.Proofs.Assertion.Terminal
import CheckedFlow.Proofs.Assertion.Unbounded
import CheckedFlow.Proofs.Build.Adding
import CheckedFlow.Proofs.Build.Assembled
import CheckedFlow.Proofs.Build.Calls
import CheckedFlow.Proofs.Build.Exec
import CheckedFlow.Proofs.Build.Expansion
import CheckedFlow.Proofs.Build.Handles
import CheckedFlow.Proofs.Build.Ownership
import CheckedFlow.Proofs.Build.Reach
import CheckedFlow.Proofs.Build.Scope
import CheckedFlow.Proofs.Build.Site
import CheckedFlow.Proofs.Build.Typed
import CheckedFlow.Proofs.Check.Accounting
import CheckedFlow.Proofs.Check.Difference
import CheckedFlow.Proofs.Check.Evidence
import CheckedFlow.Proofs.Check.Firing
import CheckedFlow.Proofs.Check.Isolation
import CheckedFlow.Proofs.Check.Relation
import CheckedFlow.Proofs.Codec.Copies
import CheckedFlow.Proofs.Codec.Cursor
import CheckedFlow.Proofs.Codec.Enumeration
import CheckedFlow.Proofs.Codec.Frames
import CheckedFlow.Proofs.Codec.Grammar
import CheckedFlow.Proofs.Codec.Grouping
import CheckedFlow.Proofs.Counter.Cells
import CheckedFlow.Proofs.Counter.Order
import CheckedFlow.Proofs.Element.Dictionary
import CheckedFlow.Proofs.Run.Capacity
import CheckedFlow.Proofs.Run.Chunks
import CheckedFlow.Proofs.Run.Evaluations
import CheckedFlow.Proofs.Run.Interleaving
import CheckedFlow.Proofs.Run.Parallelism
import CheckedFlow.Proofs.Run.Report
import CheckedFlow.Proofs.Run.Sequential
import CheckedFlow.Proofs.Run.Source
import CheckedFlow.Proofs.Run.Stages
import CheckedFlow.Proofs.Run.Windows
import CheckedFlow.Proofs.Run.Wiring
import CheckedFlow.Proofs.View.Keyed
import CheckedFlow.Proofs.View.PerWindow
import CheckedFlow.Proofs.View.Reading
import CheckedFlow.Proofs.View.SideInputs
import CheckedFlow.Proofs.Window.Join
import CheckedFlow.Proofs.Window.Partition
import CheckedFlow.Proofs.Assertion.Complement
import CheckedFlow.Proofs.Codec.Document
import CheckedFlow.Proofs.Text.Numeral
import CheckedFlow.Proofs.Options.Overrides
import CheckedFlow.Proofs.Text.ByteOrder
import CheckedFlow.Proofs.Counter.Threads
import CheckedFlow.Proofs.Counter.Snapshots
