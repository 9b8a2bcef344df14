import Hocuspocus.Lib.Run
import Hocuspocus.Lib.Trace
import Hocuspocus.Lib.Table
import Hocuspocus.Lib.Ranked
import Hocuspocus.Lib.Rest
import Hocuspocus.Lib.Channel
import Hocuspocus.Lib.Slack
import Hocuspocus.Lib.Keyed
import Hocuspocus.Lib.WriteBehind
import Hocuspocus.Lib.Causal
import Hocuspocus.Lib.Codec
import Hocuspocus.Lib.Clocked
import Hocuspocus.Lib.Lease
import Hocuspocus.Lib.Debounce
import Hocuspocus.Lib.Window
import Hocuspocus.Lib.Utf8
import Hocuspocus.Lib.Glob
import Hocuspocus.Yrs
import Hocuspocus.Yrs.Laws
import Hocuspocus.Protocol
import Hocuspocus.Document.State
import Hocuspocus.Document.Handlers
import Hocuspocus.Document.Run
import Hocuspocus.OneWriter
import Hocuspocus.OneWriter.Presence
import Hocuspocus.Protocol.RoundTrip
import Hocuspocus.Document.Frame
import Hocuspocus.Document.Delivery
import Hocuspocus.Extensions.Database
import Hocuspocus.Extensions.Storage
import Hocuspocus.Document.Store
import Hocuspocus.Document.Unload
import Hocuspocus.Document.Growth
import Hocuspocus.Document.Book
import Hocuspocus.Document.Retry
import Hocuspocus.Document.Deadline
import Hocuspocus.Document.Coalesce
import Hocuspocus.Document.Evict
import Hocuspocus.Document.Close
import Hocuspocus.Document.Idle
import Hocuspocus.Document.Status
import Hocuspocus.Document.Known
import Hocuspocus.Document.Turn
import Hocuspocus.Document.Disconnect
import Hocuspocus.Document.Presence
import Hocuspocus.Document.Shared
import Hocuspocus.Document.Ownership
import Hocuspocus.Document.Mirror
import Hocuspocus.Document.Peers
import Hocuspocus.Extensions.StoreLock
import Hocuspocus.Extensions.StoreHooks
import Hocuspocus.Extensions.Priority
import Hocuspocus.Extensions.Redis
import Hocuspocus.Extensions.Namespace
import Hocuspocus.Document.ReadOnly
import Hocuspocus.Document.Provenance
import Hocuspocus.Document.Lifecycle
import Hocuspocus.Document.Hooks
import Hocuspocus.Cluster.State
import Hocuspocus.OneWriter.Nodes
import Hocuspocus.Cluster.Questions
import Hocuspocus.Cluster.Spread
import Hocuspocus.Cluster.Replicas
import Hocuspocus.Cluster.Presence
import Hocuspocus.Cluster.Joining
import Hocuspocus.Server.Capacity
import Hocuspocus.Server.Connection
import Hocuspocus.Server.State
import Hocuspocus.OneWriter.Sockets
import Hocuspocus.Server.Cases
import Hocuspocus.Server.Ghosts
import Hocuspocus.Server.Steps
import Hocuspocus.Server.Rounds
import Hocuspocus.Server.Names
import Hocuspocus.Server.Registry
import Hocuspocus.Server.Handles
import Hocuspocus.Server.Persisted
import Hocuspocus.Server.Backlog
import Hocuspocus.Server.Rest
import Hocuspocus.Server.Numbers
import Hocuspocus.Server.Commands
import Hocuspocus.Server.Residents
import Hocuspocus.Server.Traces
import Hocuspocus.Server.Closed
import Hocuspocus.Server.Admission
import Hocuspocus.Server.Provenance
import Hocuspocus.Server.Durable
import Hocuspocus.Server.Lives
import Hocuspocus.Server.Content
import Hocuspocus.Server.Stored
import Hocuspocus.Server.Delivery
import Hocuspocus.Server.InOrder
import Hocuspocus.Server.Timeouts
import Hocuspocus.Server.DirectApply
import Hocuspocus.Server.Request
import Hocuspocus.Server.Query
import Hocuspocus.Server.FormEncoding
import Hocuspocus.Extensions.Throttle
