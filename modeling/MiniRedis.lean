import MiniRedis.Base.Dict
import MiniRedis.Base.Effect
import MiniRedis.Base.Outcome
import MiniRedis.Base.Stream
import MiniRedis.Base.Starvation
import MiniRedis.Base.Cursor
import MiniRedis.Base.Eviction
import MiniRedis.Base.LruCache
import MiniRedis.Base.Window
import MiniRedis.Base.Lockstep
import MiniRedis.Base.Trace
import MiniRedis.Base.Journal
import MiniRedis.Base.Grouping
import MiniRedis.Base.Ranking
import MiniRedis.Base.Document
import MiniRedis.Base.Pool
import MiniRedis.Base.History
import MiniRedis.Base.Deque
import MiniRedis.Base.Cycle
import MiniRedis.Python.Text
import MiniRedis.Python.Number
import MiniRedis.Python.Decimal
import MiniRedis.Python.Json
import MiniRedis.Python.TextSize
import MiniRedis.Python.Rounding
import MiniRedis.Python.FloatText
import MiniRedis.Python.Binary64
import MiniRedis.Python.FloatRepr
import MiniRedis.Protocol.Types
import MiniRedis.Protocol.RequestDecoder
import MiniRedis.Protocol.ResponseEncoder
import MiniRedis.Protocol.RequestSizes
import MiniRedis.Protocol.IndexedDecoder
import MiniRedis.Command.Validator
import MiniRedis.Service.State
import MiniRedis.Service.CommandService
import MiniRedis.Service.Operation
import MiniRedis.Service.Invariant
import MiniRedis.Service.Memory
import MiniRedis.Service.Failure
import MiniRedis.Service.Live
import MiniRedis.Service.Expiry
import MiniRedis.Service.Enforcement
import MiniRedis.Service.Recency
import MiniRedis.Service.Locality
import MiniRedis.Service.Presence
import MiniRedis.Service.FreshStart
import MiniRedis.Service.Sweeping
import MiniRedis.Service.Interleaving
import MiniRedis.Service.Stamps
import MiniRedis.Service.Containers
import MiniRedis.Service.LruStore
import MiniRedis.Service.Counting
import MiniRedis.Service.ListDeque
import MiniRedis.Service.BulkReads
import MiniRedis.Service.ScoreOrder
import MiniRedis.Service.ScoreText
import MiniRedis.Service.Deadlines
import MiniRedis.Client.MiniRedisCli
import MiniRedis.Client.MiniRedisClient
import MiniRedis.Client.RequestRoundTrip
import MiniRedis.Client.ResponseRoundTrip
import MiniRedis.Client.RequestTrees
import MiniRedis.Client.CliConnections
import MiniRedis.Client.CutReplies
import MiniRedis.Server.SessionHandler
import MiniRedis.Server.Replies
import MiniRedis.Server.Segmentation
import MiniRedis.Server.Negotiation
import MiniRedis.Server.Limits
import MiniRedis.Server.MiniRedisServer
import MiniRedis.Client.SendCommand
import MiniRedis.Arena.RedisClient
import MiniRedis.Arena.Repository
import MiniRedis.Arena.Lanes
import MiniRedis.Arena.Eviction
import MiniRedis.Arena.Refill
import MiniRedis.Arena.Coherence
import MiniRedis.Arena.StringLanes
import MiniRedis.Arena.FailedCalls
import MiniRedis.Arena.RedisPyClient
import MiniRedis.Arena.LiveTable
import MiniRedis.Arena.ExpiryAgreement
import MiniRedis.Arena.EvictionAgreement
import MiniRedis.Arena.PyMongoRepository
import MiniRedis.Arena.RepositoryAgreement
import MiniRedis.Arena.LaneRoutes
import MiniRedis.Arena.Workloads
import MiniRedis.Arena.Gateway
import MiniRedis.Arena.GatewayRuns
import MiniRedis.Arena.ResetRace
import MiniRedis.Arena.LaneHistories
import MiniRedis.Arena.MemoryLock
import MiniRedis.Arena.EventStream
import MiniRedis.Arena.ScenarioRunner
import MiniRedis.Arena.ReadMix
import MiniRedis.App.RunConfig
import MiniRedis.App.JsonText
import MiniRedis.App.JsonRoundTrip
import MiniRedis.App.Controller
import MiniRedis.App.ActiveRun
import MiniRedis.App.FinishedRun
import MiniRedis.App.Runner
import MiniRedis.App.EventLog
import MiniRedis.App.Timeline
import MiniRedis.App.RequestIdentity
import MiniRedis.App.LaneSummary
import MiniRedis.App.CacheAccounting
import MiniRedis.App.Summary
import MiniRedis.App.EventGroups
import MiniRedis.App.RunScript
import MiniRedis.App.TimelineOrder
import MiniRedis.App.RunFiles
import MiniRedis.App.RunJournal
import MiniRedis.App.ClearRedis
import MiniRedis.App.HitRate
import MiniRedis.App.BaselineDetails
