import FuturesCellProxy.Server.ContentLength
import FuturesCellProxy.Server.FirstRequest
import FuturesCellProxy.Server.KeepAlive
import FuturesCellProxy.Server.ReceivedBytes
import FuturesCellProxy.Server.ConnectionLife
import FuturesCellProxy.Server.ServerBase
import FuturesCellProxy.Proxy.SessionGate
import FuturesCellProxy.Proxy.TradeSignature
import FuturesCellProxy.Proxy.OrderSafety
import FuturesCellProxy.Proxy.MalformedBody
import FuturesCellProxy.Rpc.Pool
import FuturesCellProxy.Proxy.OrderFidelity
import FuturesCellProxy.Proxy.Paging
import FuturesCellProxy.Proxy.Routing
import FuturesCellProxy.Rpc.Retry
import FuturesCellProxy.Proxy.HttpSearch
import FuturesCellProxy.Server.LengthHeaders
import FuturesCellProxy.Server.Deciding
import FuturesCellProxy.Server.CommandCase
import FuturesCellProxy.Server.UrlCoding
import FuturesCellProxy.Common.Digest
import FuturesCellProxy.Common.FileStream
import FuturesCellProxy.Server.ReplyFraming
import FuturesCellProxy.Proxy.SearchResult
import FuturesCellProxy.Server.Persistence
import FuturesCellProxy.Proxy.UniqueIds
import FuturesCellProxy.Proxy.Presentation
import FuturesCellProxy.Server.HeaderLoop
import FuturesCellProxy.Proxy.OrderLedger
import FuturesCellProxy.Proxy.Serving
import FuturesCellProxy.Server.Reclaim
import FuturesCellProxy.Server.FormerParser
import FuturesCellProxy.Proxy.OrderOrigins
