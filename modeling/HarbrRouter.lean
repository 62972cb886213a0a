import HarbrRouter.Lib.Transition
import HarbrRouter.Lib.Progress
import HarbrRouter.Lib.TaskPool
import HarbrRouter.Lib.Filtered
import HarbrRouter.Lib.Isolation
import HarbrRouter.Lib.PointRing
import HarbrRouter.Lib.Rotation
import HarbrRouter.Lib.Tally
import HarbrRouter.Lib.Queues
import HarbrRouter.Lib.Reader
import HarbrRouter.Lib.Broadcast
import HarbrRouter.Lib.SlidingWindow
import HarbrRouter.Lib.CounterInterval
import HarbrRouter.Lib.Linearization
import HarbrRouter.Lib.Exposition
import HarbrRouter.Lib.SampleReader
import HarbrRouter.Basic
import HarbrRouter.AddrParser
import HarbrRouter.Counter
import HarbrRouter.Config
import HarbrRouter.Metrics
import HarbrRouter.Metrics.Totals
import HarbrRouter.Metrics.Prometheus
import HarbrRouter.Metrics.Families
import HarbrRouter.Metrics.Labels
import HarbrRouter.Routing.Upstream
import HarbrRouter.Routing.Ring
import HarbrRouter.Routing.Router
import HarbrRouter.Routing.Selection
import HarbrRouter.Routing.Locality
import HarbrRouter.Routing.HealthAware
import HarbrRouter.Routing.ScoreShare
import HarbrRouter.Routing.ScoreCount
import HarbrRouter.Routing.Disruption
import HarbrRouter.Routing.Availability
import HarbrRouter.Routing.Concurrent
import HarbrRouter.Routing.ConcurrentProgress
import HarbrRouter.Routing.ConcurrentSelect
import HarbrRouter.Routing.Registry
import HarbrRouter.Routing.ConcurrentOrder
import HarbrRouter.Routing.ConcurrentStats
import HarbrRouter.Routing.ConcurrentHealth
import HarbrRouter.Routing.Average
import HarbrRouter.Routing.Fairness
import HarbrRouter.Routing.Steady
import HarbrRouter.Routing.Priority
import HarbrRouter.Proxy.Manager
import HarbrRouter.Proxy.TcpStream
import HarbrRouter.Proxy.TcpCopy
import HarbrRouter.Proxy.Udp
import HarbrRouter.Proxy.UdpTurns
import HarbrRouter.Proxy.UdpLocks
import HarbrRouter.Proxy.UdpIsolation
import HarbrRouter.Proxy.UdpBooks
import HarbrRouter.Proxy.UdpCounters
import HarbrRouter.Proxy.UdpRemoval
import HarbrRouter.Proxy.UdpSweep
import HarbrRouter.Proxy.UdpListeners
import HarbrRouter.Proxy.UdpFrozen
import HarbrRouter.Proxy.UdpAffinity
import HarbrRouter.Proxy.UdpProgress
import HarbrRouter.Proxy.UdpLingering
import HarbrRouter.Proxy.UdpShutdown
import HarbrRouter.Proxy.UdpReplies
import HarbrRouter.Proxy.TcpPool
import HarbrRouter.Proxy.UpstreamAddress
import HarbrRouter.Proxy.TcpPoolNames
import HarbrRouter.Proxy.TcpPoolAge
import HarbrRouter.Proxy.TcpPoolLocks
import HarbrRouter.Proxy.TcpPoolOwnership
import HarbrRouter.Proxy.TcpConnection
import HarbrRouter.Proxy.LeastConnections
import HarbrRouter.Proxy.TcpCounters
import HarbrRouter.Proxy.TcpBytes
import HarbrRouter.Proxy.TcpUnpooled
import HarbrRouter.Proxy.HttpMessage
import HarbrRouter.Proxy.UpstreamUri
import HarbrRouter.Proxy.Validation
import HarbrRouter.Proxy.HeaderOrder
import HarbrRouter.Proxy.Cookies
import HarbrRouter.Proxy.Http
import HarbrRouter.Proxy.HttpCounters
import HarbrRouter.Proxy.HttpDurations
import HarbrRouter.Proxy.HttpLockout
import HarbrRouter.Proxy.HttpServing
import HarbrRouter.Proxy.HttpIsolation
import HarbrRouter.Proxy.HttpExchange
import HarbrRouter.Proxy.Health
import HarbrRouter.Proxy.Books
import HarbrRouter.Proxy.Outcomes
import HarbrRouter.Startup
import HarbrRouter.FailedStart
import HarbrRouter.Reload
import HarbrRouter.GlobalValidation
import HarbrRouter.Shutdown
import HarbrRouter.Proxy.StickySessions
import HarbrRouter.Reporting
import HarbrRouter.Monitoring
