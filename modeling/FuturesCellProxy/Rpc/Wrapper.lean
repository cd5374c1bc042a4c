import FuturesCellProxy.Config
import FuturesCellProxy.Rpc.Interface

/-! The client wrappers with their retry loops, and the pools they are kept in. -/
namespace FuturesCellProxy.Rpc
open Foundation Program

namespace Wrapper

def unopened : Wrapper := {mIsInited := false}

/-- The body of every retry loop: a client that is not ready ends the attempt, and so
does a call that throws, which also leaves the client to be made anew. -/
def attempt {α : Type} (initClient : Wrapper → Prog (Wrapper × Bool))
    (rpc : Option Nat → Prog (Option α)) (wrapper : Wrapper) : Prog (Wrapper × Option α) := do
  let (wrapper,ready) ← initClient wrapper
  if ready then
    match ← rpc wrapper.mClient with
    | some answer => return (wrapper,some answer)
    | none => return ({wrapper with mIsInited := false},none)
  else return (wrapper,none)

end Wrapper

namespace SPTradeInfoWrapper

def initClient (wrapper : Wrapper) : Prog (Wrapper × Bool) := do
  if wrapper.mIsInited then return (wrapper,true)
  let transport := wrapper.made
  let wrapper := {wrapper with mClient := none,mTransport := some transport,made := wrapper.made + 1}
  if ← ask (.openTransport .spTradeInfo transport) then
    return ({wrapper with mClient := some transport,mIsInited := true},true)
  else return ({wrapper with mIsInited := false},false)

/-- `while (retry_time--)` around one call. -/
def callWithRetry (retryTime : Nat) (request : TradeCall) (wrapper : Wrapper) :
    Prog (Wrapper × Option (Response request.Body)) :=
  retry (Wrapper.attempt initClient fun client => ask (.tradeCall client request)) retryTime wrapper

section
variable (flags : Flags)

def getAccInfo (req : GetAccInfoReq) := callWithRetry flags.mRetryTimes (.getAccInfo req)
def addOrder (req : AddOrderReq) := callWithRetry flags.rpcCallTimes (.addOrder req)
def getOrderByNo (req : GetOrderByNoReq) := callWithRetry flags.mRetryTimes (.getOrderByNo req)
def getActiveOrder (req : GetActiveOrderReq) := callWithRetry flags.mRetryTimes (.getActiveOrder req)
def getPosition (req : GetPositionReq) := callWithRetry flags.mRetryTimes (.getPosition req)
def deleteOrder (req : DeleteOrderReq) := callWithRetry flags.rpcCallTimes (.deleteOrder req)
def getUserAccountStatus (req : GetUserAccountStatusReq) :=
  callWithRetry flags.mRetryTimes (.getUserAccountStatus req)
def getHisOrder (req : GetHisOrderReq) := callWithRetry flags.mRetryTimes (.getHisOrder req)
def getFundInOutRecord (req : GetFundInOutRecordReq) :=
  callWithRetry flags.mRetryTimes (.getFundInOutRecord req)
def getFuturesQuoteFeeInfo (req : GetFuturesQuoteFeeInfoReq) :=
  callWithRetry flags.mRetryTimes (.getFuturesQuoteFeeInfo req)

end

end SPTradeInfoWrapper

namespace AuthenServerWrapper

/-- Unlike the other wrapper, this one keeps its old client while it opens a new one. -/
def initClient (wrapper : Wrapper) : Prog (Wrapper × Bool) := do
  if wrapper.mIsInited then return (wrapper,true)
  let transport := wrapper.made
  let wrapper := {wrapper with mTransport := some transport,made := wrapper.made + 1}
  if ← ask (.openTransport .authen transport) then
    return ({wrapper with mClient := some transport,mIsInited := true},true)
  else return (wrapper,false)

/-- The wrapper, `*ret` and the value returned. -/
def validateSession (flags : Flags) (session : SessionInfo) (wrapper : Wrapper) :
    Prog (Wrapper × Errno × Bool) := do
  let (wrapper,answer) ← retry
    (Wrapper.attempt initClient fun client => ask (.validateSession client session))
    flags.mRetryTimes wrapper
  return (wrapper,answer.getD .unknown,answer.isSome)

end AuthenServerWrapper

namespace ClientPool

def initClient : Service → Wrapper → Prog (Wrapper × Bool)
  | .authen => AuthenServerWrapper.initClient
  | .spTradeInfo => SPTradeInfoWrapper.initClient

def newClientPtr (service : Service) : Prog Client := do
  let address ← ask (.newClient service)
  let (wrapper,_) ← initClient service .unopened
  return {address,wrapper}

def getClientPtr (service : Service) : Prog Client := do
  match ← ask (.getClient service) with
  | some client => return client
  | none => newClientPtr service

def freeClientPtr (service : Service) (client : Client) (usable : Bool) : Prog Unit :=
  ask (.freeClient service client usable)

end ClientPool

structure Called where
  request : TradeCall
  answer : Option (Response request.Body)

def called : Step → Option Called
  | ⟨.tradeCall _ request,answer⟩ => some ⟨request,answer⟩
  | _ => none

def validated : Step → Option (SessionInfo × Option Errno)
  | ⟨.validateSession _ session,answer⟩ => some (session,answer)
  | _ => none

/-- The two services are asked for something more than a connection. -/
def Query.isRpc : Query → Bool
  | validateSession _ _ => true
  | tradeCall _ _ => true
  | _ => false

/-- What is asked on behalf of the pools: a client, its transport, and the client taken back. -/
def Query.isPooling : Query → Bool
  | getClient _ | newClient _ | openTransport _ _ | freeClient _ _ _ => true
  | _ => false

theorem ask_run (query : Query) (answer : query.Answer) : Run (ask query) [⟨query,answer⟩] answer :=
  (Run.call_iff _ _ _).mpr rfl

/-- What shows calls of the services only shows nothing of the pools. -/
theorem pooling_ignored {β : Type} {observe : Step → Option β}
    (ignores : ∀ event, event.query.isRpc = false → observe event = none) (event : Step)
    (pooling : event.query.isPooling) : observe event = none := by
  apply ignores
  obtain ⟨query,answer⟩ := event
  cases query with
  | getClient _ | newClient _ | openTransport _ _ | freeClient _ _ _ => rfl
  | _ => cases pooling

section Observed
variable {β : Type} {observe : Step → Option β}
  (ignores : ∀ event, event.query.isPooling → observe event = none)
include ignores

theorem initClient_silent (service : Service) (wrapper : Wrapper) :
    Silent observe (ClientPool.initClient service wrapper) := by
  have opening (service : Service) (transport : Nat) : Silent observe (ask (.openTransport service transport)) :=
    Silent.call fun _ => ignores _ rfl
  cases service <;>
    simp only [ClientPool.initClient,AuthenServerWrapper.initClient,SPTradeInfoWrapper.initClient]
  all_goals
    split
    · exact .pure _
    · apply Silent.bind (opening _ _)
      intro opened
      cases opened <;> exact .pure _

theorem getClientPtr_silent (service : Service) : Silent observe (ClientPool.getClientPtr service) := by
  apply Silent.bind (Silent.call fun _ => ignores _ rfl)
  intro pooled
  cases pooled with
  | some client => exact .pure _
  | none =>
    apply Silent.bind (Silent.call fun _ => ignores _ rfl)
    intro address
    exact Silent.bind (initClient_silent ignores service _) fun _ => .pure _

theorem freeClientPtr_silent (service : Service) (client : Client) (usable : Bool) :
    Silent observe (ClientPool.freeClientPtr service client usable) :=
  Silent.call fun _ => ignores _ rfl

theorem attempt_observed {α : Type} (service : Service) {rpc : Option Nat → Prog (Option α)}
    (seen : Option α → β)
    (rpcSeen : ∀ client trace answer, Run (rpc client) trace answer → trace.filterMap observe = [seen answer])
    (wrapper : Wrapper) (trace : Trace) (after : Wrapper) (answer : Option α)
    (run : Run (Wrapper.attempt (ClientPool.initClient service) rpc wrapper) trace (after,answer)) :
    trace.filterMap observe = [seen answer] ∨ trace.filterMap observe = [] ∧ answer = none := by
  obtain ⟨opening,⟨opened,ready⟩,_,first,rest,rfl⟩ := (Run.bind_iff _ _ _ _).mp run
  rw [List.filterMap_append,initClient_silent ignores service wrapper _ _ first,List.nil_append]
  cases ready with
  | false =>
    obtain ⟨rfl,same⟩ := (Run.pure_iff _ _ _).mp rest
    cases same
    exact .inr ⟨rfl,rfl⟩
  | true =>
    obtain ⟨calling,outcome,_,second,last,rfl⟩ := (Run.bind_iff _ _ _ _).mp rest
    rw [List.filterMap_append,rpcSeen _ _ _ second]
    cases outcome <;>
    · obtain ⟨rfl,same⟩ := (Run.pure_iff _ _ _).mp last
      cases same
      exact .inl rfl

theorem attempt_silent {α : Type} (service : Service) {rpc : Option Nat → Prog (Option α)}
    (quiet : ∀ client, Silent observe (rpc client)) (wrapper : Wrapper) :
    Silent observe (Wrapper.attempt (ClientPool.initClient service) rpc wrapper) := by
  apply Silent.bind (initClient_silent ignores service wrapper)
  rintro ⟨opened,ready⟩
  cases ready with
  | false => exact .pure _
  | true =>
    apply Silent.bind (quiet _)
    intro outcome
    cases outcome <;> exact .pure _

end Observed

theorem called_ignores (event : Step) (other : event.query.isRpc = false) : called event = none := by
  obtain ⟨query,answer⟩ := event
  cases query with
  | tradeCall client request => cases other
  | _ => rfl

theorem validated_ignores (event : Step) (other : event.query.isRpc = false) : validated event = none := by
  obtain ⟨query,answer⟩ := event
  cases query with
  | validateSession client session => cases other
  | _ => rfl

namespace SPTradeInfoWrapper

theorem callWithRetry_called {bound : Nat} {request : TradeCall} {wrapper : Wrapper} {trace : Trace}
    {result : Wrapper × Option (Response request.Body)}
    (run : Run (callWithRetry bound request wrapper) trace result) :
    Attempted (Called.mk request) bound result.2 (trace.filterMap called) := by
  apply retry_observed (Called.mk request) _ run
  apply attempt_observed (pooling_ignored called_ignores) .spTradeInfo
  intro client trace answer calling
  rw [(Run.call_iff _ _ _).mp calling]
  rfl

theorem callWithRetry_silent {β : Type} {observe : Step → Option β}
    (ignores : ∀ event, event.query.isPooling → observe event = none) {request : TradeCall}
    (quiet : ∀ client answer, observe ⟨.tradeCall client request,answer⟩ = none) (bound : Nat)
    (wrapper : Wrapper) : Silent observe (callWithRetry bound request wrapper) :=
  Silent.retry (attempt_silent ignores .spTradeInfo fun _ => Silent.call (quiet _)) bound wrapper

theorem callWithRetry_returns (bound : Nat) (request : TradeCall) (wrapper : Wrapper)
    (ready : wrapper.mIsInited = true) (answer : Response request.Body) :
    Run (callWithRetry (bound+1) request wrapper)
      [⟨.tradeCall wrapper.mClient request,some answer⟩] (wrapper,some answer) := by
  simp [callWithRetry,retry,Run.bind_iff',Wrapper.attempt,initClient,ready,ask]

end SPTradeInfoWrapper

namespace AuthenServerWrapper

theorem validateSession_validated {flags : Flags} {session : SessionInfo} {wrapper : Wrapper} {trace : Trace}
    {result : Wrapper × Errno × Bool} (run : Run (validateSession flags session wrapper) trace result) :
    ∃ answer, Attempted (Prod.mk session) flags.mRetryTimes answer (trace.filterMap validated) ∧
      result.2 = (answer.getD .unknown,answer.isSome) := by
  obtain ⟨trying,⟨after,answer⟩,_,tries,last,rfl⟩ := (Run.bind_iff _ _ _ _).mp run
  obtain ⟨rfl,rfl⟩ := (Run.pure_iff _ _ _).mp last
  refine ⟨answer,?_,rfl⟩
  rw [List.append_nil]
  apply retry_observed (Prod.mk session) _ tries
  apply attempt_observed (pooling_ignored validated_ignores) .authen
  intro client trace answer calling
  rw [(Run.call_iff _ _ _).mp calling]
  rfl

theorem validateSession_silent {β : Type} {observe : Step → Option β}
    (ignores : ∀ event, event.query.isPooling → observe event = none) (flags : Flags) {session : SessionInfo}
    (quiet : ∀ client answer, observe ⟨.validateSession client session,answer⟩ = none) (wrapper : Wrapper) :
    Silent observe (validateSession flags session wrapper) := by
  apply Silent.bind
  · exact Silent.retry (attempt_silent ignores .authen fun _ => Silent.call (quiet _)) _ _
  · exact fun _ => .pure _

theorem validateSession_returns (flags : Flags) (session : SessionInfo) (wrapper : Wrapper)
    (ready : wrapper.mIsInited = true) (some_try : flags.mRetryTimes ≠ 0) (answer : Errno) :
    Run (validateSession flags session wrapper)
      [⟨.validateSession wrapper.mClient session,some answer⟩] (wrapper,answer,true) := by
  obtain ⟨bound,tries⟩ := Nat.exists_eq_succ_of_ne_zero some_try
  simp [validateSession,tries,retry,Run.bind_iff',Wrapper.attempt,initClient,ready,ask]

end AuthenServerWrapper

end FuturesCellProxy.Rpc
