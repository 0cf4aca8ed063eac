import NodeRun.Backend.Evaluation
import NodeRun.Backend.Passage
import NodeRun.Backend.Reply
import NodeRun.Canned
import NodeRun.Coercion
import NodeRun.Command
import NodeRun.Distinct
import NodeRun.Engine.Basic
import NodeRun.Engine.Config
import NodeRun.Error
import NodeRun.Event
import NodeRun.Execution.Basic
import NodeRun.Execution.Gate
import NodeRun.Execution.Poll
import NodeRun.Execution.Site
import NodeRun.Execution.State
import NodeRun.Execution.Task
import NodeRun.Execution.Work
import NodeRun.Field
import NodeRun.Journal
import NodeRun.Json.Basic
import NodeRun.Json.Decode
import NodeRun.Json.Doc
import NodeRun.Json.Encode
import NodeRun.Json.Place
import NodeRun.Json.Printer
import NodeRun.Json.Reader
import NodeRun.Model.Completion
import NodeRun.Model.Config
import NodeRun.Model.Language
import NodeRun.Model.Schema
import NodeRun.Module.Basic
import NodeRun.Module.Compiler
import NodeRun.Module.Context
import NodeRun.Module.Forward
import NodeRun.Module.Invocation
import NodeRun.Module.Prediction
import NodeRun.Proofs.Cancellation
import NodeRun.Proofs.Flushing
import NodeRun.Proofs.Forward
import NodeRun.Proofs.Journal
import NodeRun.Proofs.Milestones
import NodeRun.Proofs.Protocol
import NodeRun.Proofs.Registration
import NodeRun.Proofs.Relay
import NodeRun.Proofs.Reporting
import NodeRun.Proofs.Run
import NodeRun.Proofs.Sequential
import NodeRun.Proofs.Silence
import NodeRun.Proofs.Transition
import NodeRun.Real64.Basic
import NodeRun.Real64.Notation
import NodeRun.Real64.Shortest
import NodeRun.Scalar
import NodeRun.Service.Basic
import NodeRun.Service.Running
import NodeRun.Service.Schedule
import NodeRun.Service.Session
import NodeRun.Table
import NodeRun.Text.Blank
import NodeRun.Text.Hidden
import NodeRun.Text.Quoted
import NodeRun.Trace.Options
import NodeRun.Trace.Scope
import NodeRun.Trace.Span
import NodeRun.Workflow.Basic
import NodeRun.Workflow.Dataset
import NodeRun.Workflow.Node
import NodeRun.Proofs.Gating
import NodeRun.Proofs.Permits
import NodeRun.Proofs.Unwinding
import NodeRun.Proofs.Ending
import NodeRun.Proofs.Independence
import NodeRun.Proofs.Tally
import NodeRun.Proofs.Progress
import NodeRun.Proofs.Ambiguity
import NodeRun.Proofs.Wire.Value
import NodeRun.Proofs.Wire.Decoder
import NodeRun.Proofs.Wire.Record
import NodeRun.Proofs.Wire.Workflow
import NodeRun.Proofs.Wire.Message
import NodeRun.Proofs.Wire.Collaborator
import NodeRun.Proofs.Wire.RoundTrip
import NodeRun.Proofs.Wire.Framing
import NodeRun.Proofs.Wire.Nesting
import NodeRun.Proofs.Wire.EditorNode
import NodeRun.Proofs.Coercion.Fields
import NodeRun.Proofs.Spans
import NodeRun.Proofs.Buffering
import NodeRun.Proofs.Outputs
import NodeRun.Proofs.Transposition
import NodeRun.Proofs.Coercion.Kinds
import NodeRun.Proofs.Resolution
import NodeRun.Proofs.Retrieval
import NodeRun.Proofs.Caching
