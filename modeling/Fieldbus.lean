import Fieldbus.Device.Access
import Fieldbus.Device.Basic
import Fieldbus.Device.Memory
import Fieldbus.Device.Operation
import Fieldbus.Device.Service
import Fieldbus.Device.Statistics
import Fieldbus.Files.Path
import Fieldbus.Files.Tree
import Fieldbus.Journal.Entry
import Fieldbus.Journal.Event
import Fieldbus.Journal.Filter
import Fieldbus.Journal.Line
import Fieldbus.Journal.Outcome
import Fieldbus.Json.Document
import Fieldbus.Json.Failure
import Fieldbus.Json.Number
import Fieldbus.Json.Reader
import Fieldbus.Json.Schema
import Fieldbus.Json.Skip
import Fieldbus.Json.Text
import Fieldbus.Lifecycle
import Fieldbus.Line.Basic
import Fieldbus.Line.Pipe
import Fieldbus.Main
import Fieldbus.Network.Address
import Fieldbus.Network.Basic
import Fieldbus.Network.Script
import Fieldbus.Program.Checker
import Fieldbus.Program.Failure
import Fieldbus.Program.Interface.Basic
import Fieldbus.Program.Interface.Reading
import Fieldbus.Program.Interface.Text
import Fieldbus.Program.Machine
import Fieldbus.Program.Simulator
import Fieldbus.Program.Sinks
import Fieldbus.Proofs.Device.Accounting
import Fieldbus.Proofs.Device.Admission
import Fieldbus.Proofs.Device.Attempts
import Fieldbus.Proofs.Device.Bounds
import Fieldbus.Proofs.Device.Cells
import Fieldbus.Proofs.Device.Counter
import Fieldbus.Proofs.Device.Exceptions
import Fieldbus.Proofs.Device.History
import Fieldbus.Proofs.Device.Independence
import Fieldbus.Proofs.Device.Observation
import Fieldbus.Proofs.Device.ReadAfterWrite
import Fieldbus.Proofs.Device.Replay
import Fieldbus.Proofs.Device.Seeding
import Fieldbus.Proofs.Device.Updates
import Fieldbus.Proofs.Files.Growth
import Fieldbus.Proofs.Files.Writing
import Fieldbus.Proofs.Journal.Process
import Fieldbus.Proofs.Json.Field
import Fieldbus.Proofs.Json.Grammar
import Fieldbus.Proofs.Json.Number
import Fieldbus.Proofs.Json.Overlay
import Fieldbus.Proofs.Json.Reader
import Fieldbus.Proofs.Json.Schema
import Fieldbus.Proofs.Json.Skip
import Fieldbus.Proofs.Json.Text
import Fieldbus.Proofs.Json.Value
import Fieldbus.Proofs.Json.Writing
import Fieldbus.Proofs.Line.Conservation
import Fieldbus.Proofs.Line.Reads
import Fieldbus.Proofs.Line.Turns
import Fieldbus.Proofs.Line.Waits
import Fieldbus.Proofs.Line.Wakes
import Fieldbus.Proofs.Network.Clients
import Fieldbus.Proofs.Network.Deliveries
import Fieldbus.Proofs.Network.Limit
import Fieldbus.Proofs.Network.Slots
import Fieldbus.Proofs.Network.Stop
import Fieldbus.Proofs.Network.Streams
import Fieldbus.Proofs.Settings.Loading
import Fieldbus.Proofs.Settings.Reading
import Fieldbus.Proofs.Settings.Writing
import Fieldbus.Proofs.Supervisor.Balance
import Fieldbus.Proofs.Supervisor.Checks
import Fieldbus.Proofs.Supervisor.Clock
import Fieldbus.Proofs.Supervisor.Deadline
import Fieldbus.Proofs.Supervisor.Health
import Fieldbus.Proofs.Supervisor.Lapse
import Fieldbus.Proofs.Supervisor.Ledger
import Fieldbus.Proofs.Supervisor.Passage
import Fieldbus.Proofs.Supervisor.Schedule
import Fieldbus.Proofs.Supervisor.Shutdown
import Fieldbus.Proofs.Supervisor.Start
import Fieldbus.Proofs.Supervisor.Ticks
import Fieldbus.Proofs.Supervisor.Tracking
import Fieldbus.Proofs.Supervisor.Transitions
import Fieldbus.Proofs.Supervisor.Twins
import Fieldbus.Proofs.Supervisor.Waits
import Fieldbus.Proofs.Wire.Answers
import Fieldbus.Proofs.Wire.Frames
import Fieldbus.Proofs.Wire.Queries
import Fieldbus.Settings.Basic
import Fieldbus.Settings.Document
import Fieldbus.Settings.Load
import Fieldbus.Supervisor.Lifecycle
import Fieldbus.Supervisor.Loop
import Fieldbus.Supervisor.Plan
import Fieldbus.Supervisor.Script
import Fieldbus.Supervisor.Stage
import Fieldbus.Supervisor.World
import Fieldbus.Table
import Fieldbus.Text.Duration
import Fieldbus.Text.Invisible
import Fieldbus.Text.Quoted
import Fieldbus.Text.Shortest
import Fieldbus.Text.Similarity
import Fieldbus.Text.Unsigned
import Fieldbus.Wire.Breach
import Fieldbus.Wire.Bytes
import Fieldbus.Wire.Connection
import Fieldbus.Wire.Frame
import Fieldbus.Wire.Pdu
import Fieldbus.Wire.Request
