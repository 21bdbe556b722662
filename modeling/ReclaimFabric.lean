import ReclaimFabric.Lib.Prog
import ReclaimFabric.Lib.Table
import ReclaimFabric.Lib.Assoc
import ReclaimFabric.Lib.Result
import ReclaimFabric.Lib.Sql
import ReclaimFabric.Lib.Scan
import ReclaimFabric.Lib.Replay
import ReclaimFabric.Lib.Search
import ReclaimFabric.Lib.Stream
import ReclaimFabric.Model.Basic
import ReclaimFabric.Model.Object
import ReclaimFabric.Model.Lineage
import ReclaimFabric.Model.Store
import ReclaimFabric.Model.World
import ReclaimFabric.Model.Coordinator.Core
import ReclaimFabric.Model.Coordinator.Objects
import ReclaimFabric.Model.Journal
import ReclaimFabric.Model.Coordinator.Reclaim
import ReclaimFabric.Model.Coordinator.Tiers
import ReclaimFabric.Model.Recovery
import ReclaimFabric.Model.System
import ReclaimFabric.Model.Text
import ReclaimFabric.Authority.Lease
import ReclaimFabric.Logic.Triple
import ReclaimFabric.Logic.Command
import ReclaimFabric.Logic.Core
import ReclaimFabric.Logic.Pool
import ReclaimFabric.Logic.Tables
import ReclaimFabric.Logic.Recovery
import ReclaimFabric.Protocol.State
import ReclaimFabric.Protocol.Guarantee
import ReclaimFabric.Protocol.Names
import ReclaimFabric.Protocol.Invariant
import ReclaimFabric.Protocol.Rely
import ReclaimFabric.Protocol.Preserve
import ReclaimFabric.Protocol.Return
import ReclaimFabric.Protocol.Discipline
import ReclaimFabric.Protocol.Steps
import ReclaimFabric.Protocol.Objects
import ReclaimFabric.Protocol.Attempt
import ReclaimFabric.Recovery.Recount
import ReclaimFabric.Protocol.Reclaim
import ReclaimFabric.Protocol.Schedule
import ReclaimFabric.Protocol.Reserve
import ReclaimFabric.Protocol.Survey
import ReclaimFabric.Protocol.Recover
import ReclaimFabric.Protocol.Reconcile
import ReclaimFabric.Protocol.Registration
import ReclaimFabric.Protocol.Tiers
import ReclaimFabric.Protocol.Sound
import ReclaimFabric.Protocol.Script
import ReclaimFabric.Recovery.Truth
import ReclaimFabric.Recovery.Frame
import ReclaimFabric.Recovery.Again
import ReclaimFabric.Protocol.Guards
import ReclaimFabric.Safety.Modes
import ReclaimFabric.Safety.Acknowledged
import ReclaimFabric.Safety.Guards
import ReclaimFabric.Safety.Audit
import ReclaimFabric.Safety.Lifecycle
import ReclaimFabric.Safety.Reclaim
import ReclaimFabric.Recovery.Tables
import ReclaimFabric.Nodes.Registry
import ReclaimFabric.Nodes.Fencing
import ReclaimFabric.Wire.Frame
import ReclaimFabric.Wire.Error
import ReclaimFabric.Archive.LocalFs
import ReclaimFabric.Persistence.Decode
import ReclaimFabric.Persistence.Rows
import ReclaimFabric.Persistence.Database
import ReclaimFabric.Persistence.RoundTrip
import ReclaimFabric.Planning.Economics
import ReclaimFabric.Safety.Indeterminate
import ReclaimFabric.Planning.Policy
import ReclaimFabric.Planning.Exact
import ReclaimFabric.Planning.Candidates
import ReclaimFabric.Planning.Restart
import ReclaimFabric.Lib.Topological
import ReclaimFabric.Lineage.Graph
import ReclaimFabric.Lineage.Validate
import ReclaimFabric.Lineage.Build
import ReclaimFabric.Lineage.Load
import ReclaimFabric.Planning.Resolution
import ReclaimFabric.Recovery.Lineage
import ReclaimFabric.Recovery.Repair
import ReclaimFabric.Logic.Alone
import ReclaimFabric.Compensation.Archive
import ReclaimFabric.Compensation.Single
import ReclaimFabric.Compensation.Compress
import ReclaimFabric.Compensation.Restore
import ReclaimFabric.Compensation.Careful
import ReclaimFabric.Compensation.Register
import ReclaimFabric.Dedup.Registry
import ReclaimFabric.Protocol.Journal
import ReclaimFabric.Safety.Store
import ReclaimFabric.Safety.Journal
import ReclaimFabric.Safety.Replay
import ReclaimFabric.Safety.Checked
import ReclaimFabric.Safety.Progress
import ReclaimFabric.Safety.Records
import ReclaimFabric.Wire.Session
import ReclaimFabric.Backends.Atomic
import ReclaimFabric.Nodes.Operation
import ReclaimFabric.Recovery.Refine
import ReclaimFabric.Recovery.Resume
import ReclaimFabric.Recovery.Restart
import ReclaimFabric.Recovery.Outcome
