import Nanocap.Foundation.Program
import Nanocap.Foundation.CircularBuffer
import Nanocap.PacketHandler.HandleTcp
import Nanocap.Database.Effects
import Nanocap.Database.Refinement
import Nanocap.Database.Independence
import Nanocap.Database.ContentReferences
import Nanocap.PacketHandler.Progress
import Nanocap.PacketHandler.Termination
import Nanocap.PacketHandler.Frontiers
import Nanocap.PacketHandler.BulkPull
import Nanocap.PacketHandler.BulkPullAccount
import Nanocap.PacketHandler.BulkPush
import Nanocap.PacketHandler.LiveMessages
import Nanocap.Database.Threads
import Nanocap.Database.PeriodicCheck
import Nanocap.PacketHandler.ParentReferences
import Nanocap.PacketHandler.PacketCounts
import Nanocap.PacketHandler.Destroying
import Nanocap.PacketHandler.Import
import Nanocap.PacketHandler.Capture
import Nanocap.Webserver.DefaultResource
import Nanocap.Util.Decoding
import Nanocap.Foundation.Chunks
import Nanocap.PacketHandler.Misalignment
import Nanocap.PacketHandler.TwinRuns
import Nanocap.Database.BlockRows
import Nanocap.Database.VoteRows
import Nanocap.PacketHandler.LossDetection
import Nanocap.PacketHandler.Eviction
import Nanocap.PacketHandler.RequestSide
import Nanocap.PacketHandler.Dispatch
import Nanocap.PacketHandler.Statistics
import Nanocap.PacketHandler.QueryText
import Nanocap.Public.Bookmarks
import Nanocap.PacketHandler.FlowState
import Nanocap.Database.Crashes
import Nanocap.Database.PacketFields
import Nanocap.Database.Recorded
import Nanocap.PacketHandler.Isolation
import Nanocap.PacketHandler.RecordedMessages
import Nanocap.Protocol.Grammar
import Nanocap.Util.Digests
import Nanocap.Public.QueryHistory
import Nanocap.Webserver.RequestDelivery
import Nanocap.Webserver.ScopeRunner
