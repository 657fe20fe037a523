import Workflow.Main
import Workflow.Rehearsal.Step
import Workflow.Proofs.Data.Dict
import Workflow.Proofs.Storage.FileTree
import Workflow.Proofs.Digest.Framing
import Workflow.Proofs.Tracker.Sharing
import Workflow.Proofs.Graph.Basic
import Workflow.Proofs.Graph.Reach
import Workflow.Proofs.Graph.Parents
import Workflow.Proofs.Graph.Cycle
import Workflow.Proofs.Graph.Shortest
import Workflow.Proofs.Graph.Order
import Workflow.Proofs.Artifact.Store
import Workflow.Proofs.Artifact.Registry
import Workflow.Proofs.Value.Fits
import Workflow.Proofs.Pipeline.Built
import Workflow.Proofs.Pipeline.Fresh
import Workflow.Proofs.Pipeline.Assembly
import Workflow.Proofs.Pipeline.Names
import Workflow.Proofs.Pipeline.Sealed
import Workflow.Proofs.Pipeline.Declared
import Workflow.Proofs.Manifest.Basic
import Workflow.Proofs.Manifest.Coherent
import Workflow.Proofs.Manifest.Typed
import Workflow.Proofs.Manifest.Checked
import Workflow.Proofs.Manifest.Compiled
import Workflow.Proofs.Pipeline.Operations
import Workflow.Proofs.Pipeline.Phases
import Workflow.Proofs.Pipeline.Sealable
import Workflow.Proofs.Pipeline.Elaboration
import Workflow.Proofs.Pipeline.Backward
import Workflow.Proofs.Schedule.Step
import Workflow.Proofs.Schedule.Ledger
import Workflow.Proofs.Schedule.Values
import Workflow.Proofs.Schedule.Loop
import Workflow.Proofs.Schedule.Admission
import Workflow.Proofs.Schedule.Decision
import Workflow.Proofs.Schedule.Exit
import Workflow.Proofs.Schedule.Reads
import Workflow.Proofs.Schedule.Sequential
import Workflow.Proofs.Schedule.Simulation
import Workflow.Proofs.Schedule.Typing
import Workflow.Proofs.Schedule.History
import Workflow.Proofs.Schedule.Records
import Workflow.Proofs.Schedule.DataFlow
import Workflow.Proofs.Schedule.Progress
import Workflow.Proofs.Schedule.Termination
import Workflow.Proofs.Schedule.Parameters
import Workflow.Proofs.Resource.Rendering
import Workflow.Proofs.Orchestrator.Timeline
import Workflow.Proofs.Tracker.Memory
import Workflow.Proofs.Tracker.Order
import Workflow.Proofs.Tracker.Shelf
import Workflow.Proofs.Tracker.Equivalence
import Workflow.Proofs.Manifest.Canonical
import Workflow.Proofs.Orchestrator.Traffic
import Workflow.Proofs.Orchestrator.Keeping
import Workflow.Proofs.Orchestrator.Attended
import Workflow.Proofs.Orchestrator.WriteThrough
import Workflow.Proofs.Digest.Key
import Workflow.Proofs.Store.Fetch
import Workflow.Proofs.Document.RoundTrip
import Workflow.Proofs.Task.Location
import Workflow.Proofs.Schedule.Advisory
import Workflow.Proofs.Orchestrator.Refusal
import Workflow.Proofs.Orchestrator.Waiting
import Workflow.Proofs.Orchestrator.Course
import Workflow.Proofs.Orchestrator.Completion
import Workflow.Proofs.Value.Equality
import Workflow.Proofs.Task.Variables
import Workflow.Proofs.Manifest.Drawing
import Workflow.Proofs.Document.Pipelines
