import HexAgent.Programs
import HexAgent.Dicts
import HexAgent.Journals
import HexAgent.Values
import HexAgent.Json
import HexAgent.JsonGate
import HexAgent.Board
import HexAgent.Budgets
import HexAgent.Commands
import HexAgent.Events
import HexAgent.Redaction
import HexAgent.Rag
import HexAgent.Replacement
import HexAgent.Uploads
import HexAgent.Schemas
import HexAgent.Contracts
import HexAgent.Roles
import HexAgent.Supervisor
import HexAgent.CommandBridge
import HexAgent.Graph
import HexAgent.Loop
import HexAgent.Moves
import HexAgent.Nodes
import HexAgent.Restarts
import HexAgent.Scripted
import HexAgent.Acceptance
import HexAgent.Turns
import HexAgent.Roster
import HexAgent.Requests
import HexAgent.Wiring
import HexAgent.Rounds
import HexAgent.Artifacts
import HexAgent.Bookkeeping
import HexAgent.Kernel
import HexAgent.Envelopes
import HexAgent.Middleware
import HexAgent.Effects
import HexAgent.DelegationStore
import HexAgent.Sessions
import HexAgent.Delegation
import HexAgent.Conclusions
import HexAgent.Lineage
import HexAgent.Grants
import HexAgent.Sequences
import HexAgent.Entries
import HexAgent.Repeats
import HexAgent.Reloading
import HexAgent.Briefings
import HexAgent.Assignments
import HexAgent.Paths
import HexAgent.RunPaths
import HexAgent.Embedded
import HexAgent.Attribution
import HexAgent.Conversions
import HexAgent.Gateway
import HexAgent.Policy
import HexAgent.GitGate
import HexAgent.Escapes
import HexAgent.Chunks
import HexAgent.Notifications
import HexAgent.EventLog
import HexAgent.Codecs
import HexAgent.Skills
import HexAgent.ToolKeys
import HexAgent.Projection
import HexAgent.Completion
import HexAgent.ChildRuns
import HexAgent.ParallelIngests
import HexAgent.LogReading
import HexAgent.Resuming
import HexAgent.Jobs
import HexAgent.Snapshots
import HexAgent.Workspace
import HexAgent.Outages
