import KeyroCore.Platform
import KeyroCore.System
import KeyroCore.Storage.Regions
import KeyroCore.Effect.Clients
import KeyroCore.Storage.ActiveProfile
import KeyroCore.Effect.Crash
import KeyroCore.Storage.AllOrNothing
import KeyroCore.Data.ListMap
import KeyroCore.Storage.AssignmentMap
import KeyroCore.Effect.Paths
import KeyroCore.Routing
import KeyroCore.VirtualInput
import KeyroCore.Data.Json
import KeyroCore.Data.Serde
import KeyroCore.Protocol.Decode
import KeyroCore.Ipc.Session
import KeyroCore.Connection
import KeyroCore.Handshake
import KeyroCore.Output
import KeyroCore.Rename
import KeyroCore.Logging.Disk
import KeyroCore.Logging.Filesystem
import KeyroCore.Logging.Writer
import KeyroCore.Data.Greedy
import KeyroCore.Effect.Monitor
import KeyroCore.Logging.Cleanup
import KeyroCore.Logging.Rotation
import KeyroCore.Logging.Limits
import KeyroCore.Effect.Failure
import KeyroCore.Logging.Failure
import KeyroCore.Logging.Handle
import KeyroCore.Logging.Progress
import KeyroCore.Logging.Layout
import KeyroCore.Logging.Tail
import KeyroCore.Logging.Order
import KeyroCore.Logging.Threads
import KeyroCore.Protocol.Encode
import KeyroCore.Data.Lines
import KeyroCore.Protocol.Wire
import KeyroCore.Connections
import KeyroCore.Replay
import KeyroCore.Provenance
import KeyroCore.Effect.Relation
import KeyroCore.Memory
import KeyroCore.Simulation
import KeyroCore.Agreement
import KeyroCore.Controls
import KeyroCore.Logging.Shift
import KeyroCore.Admission
import KeyroCore.Listener
import KeyroCore.Framing
import KeyroCore.Storage.Redaction
import KeyroCore.Secrets
import KeyroCore.Data.Schema
import KeyroCore.Protocol.Schema
import KeyroCore.Grammar
import KeyroCore.Conformance
import KeyroCore.Data.Catalog
import KeyroCore.Storage.Profiles
import KeyroCore.Storage.Catalog
import KeyroCore.Linearization
import KeyroCore.Visibility
import KeyroCore.Restarts
import KeyroCore.Effect.Processes
import KeyroCore.Effect.Locks
import KeyroCore.Startup
import KeyroCore.Discipline
import KeyroCore.SingleInstance
import KeyroCore.Data.Exact
import KeyroCore.Coverage
