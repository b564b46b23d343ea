import ControlPlane.Storage.Specs
import ControlPlane.Storage.Statements
import ControlPlane.Controller.Records
import ControlPlane.Controller.Invariant
import ControlPlane.Controller.AwaitPoints
import ControlPlane.Controller.Discipline
import ControlPlane.Controller.Scenario
import ControlPlane.Controller.Walk
import ControlPlane.Controller.Changes
import ControlPlane.Controller.Outcomes
import ControlPlane.Controller.Visits
import ControlPlane.Controller.Untimed
import ControlPlane.Controller.Schedules
import ControlPlane.Deadlines
import ControlPlane.Guarantees.Binding
import ControlPlane.Guarantees.Agreement
import ControlPlane.Guarantees.Readiness
import ControlPlane.Guarantees.Intent
import ControlPlane.Guarantees.Isolation
import ControlPlane.Guarantees.Schedules
import ControlPlane.Guarantees.Parking
import ControlPlane.Guarantees.Mutators
import ControlPlane.Guarantees.RoundTrip
import ControlPlane.Guarantees.Listing
import ControlPlane.Guarantees.BusyLoop
import ControlPlane.Guarantees.Deletion
import ControlPlane.Storage.Views
import ControlPlane.Keyed
import ControlPlane.Calendar
import ControlPlane.Timestamps
import ControlPlane.Lexicographic
import ControlPlane.Storage.Operations
import ControlPlane.Interaction.System
import ControlPlane.Interaction.Transaction
import ControlPlane.Controller.World
import ControlPlane.Selection
import ControlPlane.Provider.FakeTables
import ControlPlane.Interaction.Evaluation
import ControlPlane.Provider.Fake
import ControlPlane.Provider.FakeSpecs
import ControlPlane.Guarantees.Answers
import ControlPlane.Guarantees.Plans
import ControlPlane.Provider.FakeModel
import ControlPlane.Guarantees.Assignment
import ControlPlane.Controller.FakeScenario
import ControlPlane.Guarantees.Ownership
import ControlPlane.Interaction.Order
import ControlPlane.Interaction.Notify
import ControlPlane.Controller.Attention
import ControlPlane.Controller.Loop
import ControlPlane.Guarantees.WakeUps
import ControlPlane.Guarantees.Stopping
import ControlPlane.Controller.Failures
import ControlPlane.Guarantees.Backoff
import ControlPlane.Ascending
import ControlPlane.Guarantees.Conditions
import ControlPlane.Interaction.Parties
import ControlPlane.Rpc.Socket
import ControlPlane.Guarantees.LiveSocket
import ControlPlane.Guarantees.Healing
import ControlPlane.Provider.FakeCalm
import ControlPlane.Guarantees.Provenance
import ControlPlane.Settling
import ControlPlane.Guarantees.Stages
import ControlPlane.Guarantees.Progress
import ControlPlane.Guarantees.Convergence
import ControlPlane.Interaction.Refinement
import ControlPlane.Ledger
import ControlPlane.Controller.Snapshots
import ControlPlane.Guarantees.Lifecycle
import ControlPlane.Guarantees.Courses
import ControlPlane.Storage.Store
import ControlPlane.Guarantees.Refinement
import ControlPlane.Json
import ControlPlane.Protocol.Wire
import ControlPlane.Protocol.Lossless
import ControlPlane.Rpc.Methods
import ControlPlane.Interaction.Requests
import ControlPlane.Storage.Calls
import ControlPlane.Rpc.Server
import ControlPlane.Guarantees.Requests
import ControlPlane.Guarantees.Acknowledged
import ControlPlane.Rpc.Client
import ControlPlane.Guarantees.Calls
import ControlPlane.Process
import ControlPlane.Process.Walk
import ControlPlane.Guarantees.OneDaemon
import ControlPlane.Process.Tasks
import ControlPlane.Guarantees.Shutdown
