import FuturesCellProxy.Text

/-! The flags of the proxy that its operations read, with their defaults. -/
namespace FuturesCellProxy

def checkoutConfig : Bytes := ascii "please checkout the config file"

structure Flags where
  mRetryTimes : Nat := 3
  rpcCallTimes : Nat := 1
  futuresAccountOpenUrl : Bytes := checkoutConfig
  futuresSearchUrl : Bytes := checkoutConfig
  buyIconUrl : Bytes := checkoutConfig
  sellIconUrl : Bytes := checkoutConfig
  fundInIconUrl : Bytes := checkoutConfig
  fundOutIconUrl : Bytes := checkoutConfig
  futuresFundInUrl : Bytes := checkoutConfig
  futuresFundOutUrl : Bytes := checkoutConfig

end FuturesCellProxy
