import TidePool.Schemes.Table
import TidePool.Schemes.Machine
import TidePool.Schemes.TwoLevel
import TidePool.Schemes.Durable
import TidePool.Schemes.Numeral
import TidePool.Schemes.Fnv
import TidePool.Schemes.Adaptive
import TidePool.Schemes.Chrono
import TidePool.Api.Types
import TidePool.Api.BlockKey
import TidePool.Store.Tier
import TidePool.Store.LocalIndex
import TidePool.Store.DramTier
import TidePool.Store.EvictionPolicy
import TidePool.Store.Lru
import TidePool.Store.Arc
import TidePool.Store.Reservation
import TidePool.Store.ArcRuns
import TidePool.Store.PolicyTrace
import TidePool.Store.ColdTier
import TidePool.Store.StorageNode
import TidePool.Store.TwoTier
import TidePool.Store.Demotion
import TidePool.Store.PutPath
import TidePool.Store.GetPath
import TidePool.Store.MakeRoom
import TidePool.Store.Opening
import TidePool.Store.Agreement
import TidePool.Store.Restart
import TidePool.Store.Replies
import TidePool.Store.SsdOnly
import TidePool.Store.Setups
import TidePool.Store.Processes
import TidePool.Store.Layouts
import TidePool.Store.CostAware
import TidePool.Store.DramOnly
import TidePool.Store.ArcBounds
import TidePool.Store.ArcRefinement
import TidePool.Store.Recency
import TidePool.Api.BlockCodec
import TidePool.Store.Admission
import TidePool.Store.Logged
import TidePool.Store.Traffic
import TidePool.Store.Conservation
import TidePool.Store.SsdRecovery
import TidePool.Store.TierContract
import TidePool.Protocol.PayloadLaws
import TidePool.Transport.TimedConnect
import TidePool.Transport.Descriptors
import TidePool.Transport.Interruption
import TidePool.Transport.Threads
import TidePool.Transport.TimedSession
import TidePool.Transport.Promptness
import TidePool.Rpc.Session
import TidePool.Rpc.Delivery
import TidePool.Schemes.OrderedMap
import TidePool.Schemes.Once
import TidePool.Schemes.Ownership
import TidePool.Cluster.HashRing
import TidePool.Cluster.Routing
import TidePool.Cluster.Requests
import TidePool.Cluster.Sites
import TidePool.Cluster.Pool
