import FuturesCellProxy.Rpc.PoolRefinement
import FuturesCellProxy.Proxy.Reporting
import FuturesCellProxy.Proxy.UniqueIds

/-! The requests of all connections side by side, on the two pools that they share. -/
namespace FuturesCellProxy.Proxy
open Foundation Rpc FuturesProxy

section Asks

theorem asks_call {query : Query} (aside : Rpc.Aside query) : Asks Rpc.Aside (ask query) := Asks.call aside

theorem clockText_asks : Asks Rpc.Aside clockText := Asks.bind (asks_call ⟨rfl,rfl⟩) fun _ => .pure _

theorem generateUniqueID_asks (name : Bytes) (type : AccessType) : Asks Rpc.Aside (generateUniqueID name type) :=
  Asks.bind clockText_asks fun _ => .pure _

theorem performUntilOk_asks (url : Bytes) (tryNums res : Nat) (strRst : Bytes) :
    Asks Rpc.Aside (performUntilOk url tryNums res strRst) := by
  induction tryNums generalizing res strRst with
  | zero => exact .pure _
  | succ tryNums ih =>
    apply Asks.bind (asks_call ⟨rfl,rfl⟩)
    intro transfer
    dsimp only
    split
    · exact .pure _
    · exact ih _ _

theorem fnDoCurl_asks (strURL strRst : Bytes) : Asks Rpc.Aside (fnDoCurl strURL strRst) := by
  apply Asks.bind (asks_call ⟨rfl,rfl⟩)
  intro ready
  dsimp only
  split
  · exact .pure _
  apply Asks.bind (performUntilOk_asks _ _ _ _)
  rintro ⟨res,strRst⟩
  dsimp only
  split
  · exact .pure _
  split
  · apply Asks.bind (asks_call ⟨rfl,rfl⟩)
    intro rspCode
    split <;> exact .pure _
  · exact .pure _

end Asks

section Leases
variable {Body : Type} {flags : Flags}

/-- From no client to no client that could still be given back. -/
abbrev GivesBack {α : Type} (program : Prog α) : Prop := Leases (fun _ after => after.Settled) program .nothing

theorem callTradeInfo_givesBack {bound : Nat} {request : TradeCall} {convert : request.Body → Body → Body}
    {error : FuturesError} {message : String} {resp : Return Body} :
    GivesBack (callTradeInfo (SPTradeInfoWrapper.callWithRetry bound request) convert error message resp) := by
  apply Keeps.bind _ (getClientPtr_leases bound)
  rintro client _ rfl
  apply Keeps.bind _ (retry_leases (rpc_trade request) bound client.wrapper)
  rintro ⟨wrapper,answer⟩ _ rfl
  cases answer with
  | none => exact trivial
  | some answer =>
    apply Keeps.bind _ (freeClientPtr_leases wrapper)
    rintro _ _ rfl
    split <;> exact trivial

/-- A session that is found valid leaves no client behind. -/
theorem validateSession_givesBack (session : LoginSession) : Leases (fun thriftRet after =>
    after.Settled ∧ (thriftRet = .success → after = .nothing)) (validateSession flags session) .nothing := by
  apply Keeps.bind _ (getClientPtr_leases flags.mRetryTimes)
  rintro client _ rfl
  apply Keeps.bind'
  apply Keeps.bind _ (retry_leases (rpc_validate session.sessionInfo) flags.mRetryTimes client.wrapper)
  rintro ⟨wrapper,answer⟩ _ rfl
  cases answer with
  | none => exact ⟨trivial,fun success => nomatch success⟩
  | some answer =>
    apply Keeps.bind _ (freeClientPtr_leases wrapper)
    rintro _ _ rfl
    exact ⟨trivial,fun _ => rfl⟩

theorem checkSession_givesBack {session : LoginSession} {resp : Return Body} {operation : Prog (Return Body)}
    (returns : GivesBack operation) : GivesBack (checkSession flags session resp operation) := by
  apply Keeps.bind _ (validateSession_givesBack session)
  rintro thriftRet after ⟨settled,valid⟩
  split
  next => exact settled
  next success =>
    obtain rfl := valid (not_not.mp success)
    exact returns

theorem requireSession_givesBack {session : Option LoginSession} {refused : Return Body}
    {operation : LoginSession → Prog (Return Body)} (returns : ∀ session, GivesBack (operation session)) :
    GivesBack (requireSession session refused operation) := by
  cases session with
  | none => exact trivial
  | some session => exact returns session

theorem uniqueCall_givesBack {bound : Nat} {request : AccessInfo → TradeCall}
    {convert : ∀ accessInfo, (request accessInfo).Body → Body → Body} {error : FuturesError} {message : String}
    {resp : Return Body} : GivesBack (generateUniqueID accessName .cellProxy >>= fun accessInfo =>
      callTradeInfo (SPTradeInfoWrapper.callWithRetry bound (request accessInfo)) (convert accessInfo)
        error message resp) :=
  Leases.aside (generateUniqueID_asks _ _) fun _ => callTradeInfo_givesBack

variable (flags) (platform : Platform)

theorem handle_givesBack (op : Operation) (req : op.Request) : GivesBack (op.handle flags platform req) := by
  cases op with
  | queryFuturesAccountConfig => exact Keeps.map (requireSession_givesBack fun _ => trivial)
  | symbolTypeRecommend | symbolListByType | queryFifthOrder | querySymbolQuotations | futuresGraph | futuresKLine =>
    exact trivial
  | queryUserStatus | tradeConfirmInfo | querySymbolTradeInfo =>
    exact Keeps.map (requireSession_givesBack fun _ => uniqueCall_givesBack)
  | futuresTrade =>
    apply Keeps.map
    apply requireSession_givesBack
    intro session
    split
    · exact trivial
    apply checkSession_givesBack
    apply Leases.aside (generateUniqueID_asks _ _)
    intro accessInfo
    exact Leases.aside clockText_asks fun _ => callTradeInfo_givesBack
  | querySymbolByName =>
    apply Leases.aside (fnDoCurl_asks _ _)
    rintro ⟨ret,retOut⟩
    dsimp only
    split
    · exact trivial
    split <;> exact trivial
  | _ => exact Keeps.map (requireSession_givesBack fun _ => checkSession_givesBack uniqueCall_givesBack)

theorem serve_givesBack (codec : Codec) (incoming : Incoming) : GivesBack (incoming.serve flags platform codec) := by
  rw [Incoming.serve,proccessReq]
  cases (Server.findHandle Operation.registered incoming.req incoming.reqPath).bind Operation.find with
  | none => exact trivial
  | some op => exact Keeps.map (Keeps.map (handle_givesBack flags platform op _))

end Leases

section Within
variable {Body : Type} {flags : Flags}

theorem ask_within (query : Query) : Within (ask query) 1 := Within.call query

theorem clockText_within : Within clockText 1 :=
  Within.bind 0 rfl (ask_within _) fun _ => Within.pure _ 0

theorem generateUniqueID_within (name : Bytes) (type : AccessType) : Within (generateUniqueID name type) 1 :=
  Within.bind 0 rfl clockText_within fun _ => Within.pure _ 0

theorem initClient_within (service : Service) (wrapper : Wrapper) : Within (ClientPool.initClient service wrapper) 1 := by
  rw [initClient_eq]
  split
  · exact Within.pure _ 1
  · exact Within.bind 0 rfl (ask_within _) fun _ => Within.pure _ 0

theorem attempt_within {α : Type} (service : Service) {rpc : Option Nat → Prog (Option α)}
    (once : ∀ client, Within (rpc client) 1) (wrapper : Wrapper) :
    Within (Wrapper.attempt (ClientPool.initClient service) rpc wrapper) 2 := by
  apply Within.bind 1 rfl (initClient_within service wrapper)
  rintro ⟨wrapper,ready⟩
  cases ready with
  | false => exact Within.pure _ 1
  | true =>
    apply Within.bind 0 rfl (once wrapper.mClient)
    intro answer
    cases answer <;> exact Within.pure _ 0

theorem getClientPtr_within (service : Service) : Within (ClientPool.getClientPtr service) 3 := by
  apply Within.bind 2 rfl (ask_within _)
  intro pooled
  cases pooled with
  | some client => exact Within.pure _ 2
  | none =>
    apply Within.bind 1 rfl (ask_within _)
    intro address
    exact Within.bind 0 rfl (initClient_within service _) fun _ => Within.pure _ 0

theorem freeClientPtr_within (service : Service) (client : Client) (usable : Bool) :
    Within (ClientPool.freeClientPtr service client usable) 1 :=
  ask_within _

/-- A client, so many attempts, and the client back. -/
def calls (bound : Nat) : Nat := 3 + (bound * 2 + 1)

theorem callTradeInfo_within {bound : Nat} {request : TradeCall} {convert : request.Body → Body → Body}
    {error : FuturesError} {message : String} {resp : Return Body} :
    Within (callTradeInfo (SPTradeInfoWrapper.callWithRetry bound request) convert error message resp) (calls bound) := by
  apply Within.bind (bound * 2 + 1) rfl (getClientPtr_within _)
  intro client
  have attempts : Within (SPTradeInfoWrapper.callWithRetry bound request client.wrapper) (bound * 2) :=
    Within.retry (attempt_within .spTradeInfo fun _ => ask_within _) bound client.wrapper
  apply Within.bind 1 rfl attempts
  rintro ⟨wrapper,answer⟩
  cases answer with
  | none => exact Within.pure _ 1
  | some answer =>
    apply Within.bind 0 rfl (freeClientPtr_within _ _ _)
    intro freed
    split <;> exact Within.pure _ 0

theorem validateSession_within (session : LoginSession) :
    Within (validateSession flags session) (calls flags.mRetryTimes) := by
  apply Within.bind (flags.mRetryTimes * 2 + 1) rfl (getClientPtr_within _)
  intro client
  have attempts : Within (AuthenServerWrapper.validateSession flags session.sessionInfo client.wrapper)
      (flags.mRetryTimes * 2) := by
    apply Within.bind 0 rfl (Within.retry (attempt_within .authen fun _ => ask_within _) flags.mRetryTimes client.wrapper)
    exact fun _ => Within.pure _ 0
  apply Within.bind 1 rfl attempts
  rintro ⟨wrapper,ret,valided⟩
  cases valided with
  | false => exact Within.pure _ 1
  | true => exact Within.bind 0 rfl (freeClientPtr_within _ _ _) fun _ => Within.pure _ 0

theorem checkSession_within {session : LoginSession} {resp : Return Body} {operation : Prog (Return Body)} {bound : Nat}
    (within : Within operation bound) :
    Within (checkSession flags session resp operation) (calls flags.mRetryTimes + bound) := by
  apply Within.bind bound rfl (validateSession_within session)
  intro thriftRet
  split
  · exact Within.pure _ bound
  · exact within

theorem requireSession_within {session : Option LoginSession} {refused : Return Body}
    {operation : LoginSession → Prog (Return Body)} {bound : Nat} (within : ∀ session, Within (operation session) bound) :
    Within (requireSession session refused operation) bound := by
  cases session with
  | none => exact Within.pure _ bound
  | some session => exact within session

theorem uniqueCall_within {bound : Nat} {request : AccessInfo → TradeCall}
    {convert : ∀ accessInfo, (request accessInfo).Body → Body → Body} {error : FuturesError} {message : String}
    {resp : Return Body} : Within (generateUniqueID accessName .cellProxy >>= fun accessInfo =>
      callTradeInfo (SPTradeInfoWrapper.callWithRetry bound (request accessInfo)) (convert accessInfo)
        error message resp) (1 + calls bound) :=
  Within.bind _ rfl (generateUniqueID_within _ _) fun _ => callTradeInfo_within

theorem performUntilOk_within (url : Bytes) (tryNums res : Nat) (strRst : Bytes) :
    Within (performUntilOk url tryNums res strRst) tryNums := by
  induction tryNums generalizing res strRst with
  | zero => trivial
  | succ tryNums ih =>
    apply Within.bind tryNums (Nat.add_comm 1 tryNums) (ask_within _)
    intro transfer
    dsimp only
    split
    · exact Within.pure _ tryNums
    · exact ih _ _

theorem fnDoCurl_within (strURL strRst : Bytes) : Within (fnDoCurl strURL strRst) 4 := by
  apply Within.bind 3 rfl (ask_within _)
  intro ready
  dsimp only
  split
  · exact Within.pure _ 3
  apply Within.bind 1 rfl (performUntilOk_within _ 2 _ _)
  rintro ⟨res,strRst⟩
  dsimp only
  split
  · exact Within.pure _ 1
  split
  · apply Within.bind 0 rfl (ask_within _)
    intro rspCode
    split <;> exact Within.pure _ 0
  · exact Within.pure _ 1

variable (flags) (platform : Platform)

/-- The most that an operation asks of the world. -/
def Operation.events : Operation → Nat
  | queryFuturesAccountConfig | symbolTypeRecommend | symbolListByType | queryFifthOrder | querySymbolQuotations
  | futuresGraph | futuresKLine => 0
  | querySymbolByName => 4
  | queryUserStatus | tradeConfirmInfo | querySymbolTradeInfo => 1 + calls flags.mRetryTimes
  | futuresTrade => calls flags.mRetryTimes + (1 + (1 + calls flags.rpcCallTimes))
  | cancelPendingOrder => calls flags.mRetryTimes + (1 + calls flags.rpcCallTimes)
  | queryMyFuturesAssets | queryPendingOrders | queryHoldingOrders | queryOrderDetail | queryTransactionRecord
  | queryHistoryOrders => calls flags.mRetryTimes + (1 + calls flags.mRetryTimes)

theorem handle_within (op : Operation) (req : op.Request) : Within (op.handle flags platform req) (op.events flags) := by
  cases op with
  | queryFuturesAccountConfig => exact Within.map (requireSession_within fun _ => Within.pure _ 0) some
  | symbolTypeRecommend | symbolListByType | queryFifthOrder | querySymbolQuotations | futuresGraph | futuresKLine =>
    exact Within.map (Within.pure _ 0) some
  | queryUserStatus | tradeConfirmInfo | querySymbolTradeInfo =>
    exact Within.map (requireSession_within fun _ => uniqueCall_within) some
  | futuresTrade =>
    apply Within.map
    apply requireSession_within
    intro session
    split
    · exact Within.pure _ _
    apply checkSession_within
    apply Within.bind _ rfl (generateUniqueID_within _ _)
    intro accessInfo
    exact Within.bind _ rfl clockText_within fun _ => callTradeInfo_within
  | querySymbolByName =>
    apply Within.bind 0 rfl (fnDoCurl_within _ _)
    rintro ⟨ret,retOut⟩
    dsimp only
    split
    · exact Within.pure _ 0
    split <;> exact Within.pure _ 0
  | _ => exact Within.map (requireSession_within fun _ => checkSession_within uniqueCall_within) some

/-- The operation that a request is for. -/
def Incoming.operation (incoming : Incoming) : Option Operation :=
  (Server.findHandle Operation.registered incoming.req incoming.reqPath).bind Operation.find

def Incoming.events (incoming : Incoming) : Nat := incoming.operation.elim 0 (Operation.events flags)

theorem serve_within (codec : Codec) (incoming : Incoming) :
    Within (incoming.serve flags platform codec) (incoming.events flags) := by
  rw [Incoming.serve,proccessReq,Incoming.events,Incoming.operation]
  cases (Server.findHandle Operation.registered incoming.req incoming.reqPath).bind Operation.find with
  | none => exact Within.pure _ 0
  | some op => exact Within.map (Within.map (handle_within flags platform op _) _) _

end Within

section Serving
variable {ι : Type} [DecidableEq ι] (flags : Flags) (platform : Platform) (codec : Codec)

/-- Only the search can end in an exception. -/
theorem handle_throws {op : Operation} {req : op.Request} {trace : Trace}
    (run : Run (op.handle flags platform req) trace none) : op = .querySymbolByName := by
  cases op with
  | querySymbolByName => rfl
  | _ =>
    obtain ⟨_,_,absurd⟩ := (Run.map_iff _ _ _ _).mp run
    cases absurd

/-- What leaves a request as an exception has left its operation. -/
theorem serve_raises {incoming : Incoming} {trace : Trace} (run : Run (incoming.serve flags platform codec) trace none) :
    ∃ op req, incoming.operation = some op ∧ Run (op.handle flags platform req) trace none := by
  rw [Incoming.serve,proccessReq] at run
  rw [Incoming.operation]
  cases named : (Server.findHandle Operation.registered incoming.req incoming.reqPath).bind Operation.find with
  | none =>
    rw [named] at run
    cases ((Run.pure_iff _ _ _).mp run).2
  | some op =>
    rw [named] at run
    obtain ⟨handled,run,absent⟩ := (Run.map_iff _ _ _ _).mp run
    obtain rfl := Option.map_eq_none_iff.mp absent.symm
    obtain ⟨returned,run,absent⟩ := (Run.map_iff _ _ _ _).mp run
    obtain rfl := Option.map_eq_none_iff.mp absent.symm
    exact ⟨op,_,rfl,run⟩

theorem serve_throws {incoming : Incoming} {trace : Trace} (run : Run (incoming.serve flags platform codec) trace none) :
    incoming.operation = some .querySymbolByName := by
  obtain ⟨op,req,operation,run⟩ := serve_raises flags platform codec run
  rw [operation,handle_throws flags platform run]

/-- However requests interleave, every client of the two pools is in one place, and what is
done with the clients is a run of the pools' machines, whose wrappers are in one memory. -/
theorem pools_shared (requests : ι → Incoming) (history : History ι)
    (state : (ι → Prog (Option Server.Reply)) × Pools ι)
    (run : follow serve (serveAll flags platform codec requests,{}) history = some state) :
    state.2.Sound ∧ ∃ events machines, follow poolsStep (fun _ => {}) events = some machines ∧
      state.2.Same machines ∧ events.filterMap showsOf = history.filterMap seenOf ∧
      ∀ service, (machines service).Sound ∧ Pool.FreedOnce (eventsAt service events) := by
  obtain ⟨events,machines,steps,⟨holdings,_,agree⟩,shown⟩ :=
    serve_refines (fun i => serve_givesBack flags platform codec (requests i)) run
  refine ⟨agree.sound,events,machines,steps,agree.same,shown,fun service => ⟨?_,?_⟩⟩
  · exact (agree.mirrors service).ordered.sound
  · exact Pool.freedOnce_run (follow_eventsAt steps service)

/-- Requests do not stop each other for good: each can go on unless it waits for the one who
makes a client, all come to an end within so many events, and then each has what it would have
got alone from the same answers. The others go on here after one has ended in an exception, which
ends a real process: `Process` says what is left of this then. -/
theorem requests_complete [Fintype ι] (requests : ι → Incoming) (history : History ι)
    (state : (ι → Prog (Option Server.Reply)) × Pools ι)
    (run : follow serve (serveAll flags platform codec requests,{}) history = some state) :
    history.length ≤ ∑ i, (requests i).events flags ∧
    (∀ i, (state.1 i).finished = false → CanGo state i ∨ ∃ service other, other ≠ i ∧
      state.2.clientsMutex service = some other ∧ CanGo state other) ∧
    ∃ rest final, follow serve state rest = some final ∧ ∀ i, ∃ reply, final.1 i = .ret reply ∧
      Run (serveAll flags platform codec requests i) (own i (history ++ rest)) reply ∧
      (reply = none → (requests i).operation = some .querySymbolByName) := by
  obtain ⟨_,machines,_,refines,_⟩ := serve_refines (fun i => serve_givesBack flags platform codec (requests i)) run
  obtain ⟨left,within,total⟩ := Within.interleave (fun i => serve_within flags platform codec (requests i))
    (serve_interleaves run)
  refine ⟨by omega,fun i => refines.goes,?_⟩
  obtain ⟨rest,final,onward,finished⟩ := refines.completes within
  refine ⟨rest,final,onward,fun i => ?_⟩
  have whole := serve_interleaves ((follow_append _ _ _ _).mpr ⟨state,run,onward⟩)
  have ends := finished i
  cases last : final.1 i with
  | ask query next => simp [last,Program.finished] at ends
  | ret reply =>
    have alone := own_run whole i (last ▸ Run.ret reply)
    rw [List.append_nil] at alone
    refine ⟨reply,rfl,alone,?_⟩
    rintro rfl
    exact serve_throws flags platform codec alone

end Serving

/-- Two requests: each makes a client to have its session validated, the second waiting for
the first one to be made, and the second trades with the client of the first. -/
def sharing : History Bool :=
  let ready := {mIsInited := true,mTransport := some 0,mClient := some 0,made := 1}
  let session := ⟨ascii "token",7⟩
  [(false,⟨.getClient .authen,none⟩),(false,⟨.newClient .authen,(1 : Nat)⟩),(false,⟨.openTransport .authen 0,true⟩),
    (true,⟨.getClient .authen,none⟩),(false,⟨.validateSession (some 0) session,some .success⟩),
    (true,⟨.newClient .authen,(2 : Nat)⟩),(true,⟨.openTransport .authen 0,true⟩),
    (false,⟨.freeClient .authen ⟨1,ready⟩ true,()⟩),(true,⟨.validateSession (some 0) session,some .success⟩),
    (true,⟨.freeClient .authen ⟨2,ready⟩ true,()⟩),(false,⟨.systemClock,(3 : Int)⟩),(false,⟨.systemClock,(4 : Int)⟩),
    (true,⟨.systemClock,(5 : Int)⟩),(true,⟨.systemClock,(6 : Int)⟩),
    (false,⟨.getClient .spTradeInfo,none⟩),(false,⟨.newClient .spTradeInfo,(3 : Nat)⟩),
    (false,⟨.openTransport .spTradeInfo 0,true⟩),
    (false,⟨.tradeCall (some 0) (.addOrder (tickOrder 3)),some ⟨.success,()⟩⟩),
    (false,⟨.freeClient .spTradeInfo ⟨3,ready⟩ true,()⟩),(true,⟨.getClient .spTradeInfo,some ⟨3,ready⟩⟩),
    (true,⟨.tradeCall (some 0) (.addOrder (tickOrder 5)),some ⟨.success,()⟩⟩),
    (true,⟨.freeClient .spTradeInfo ⟨3,ready⟩ true,()⟩)]

theorem sharing_taken : ∃ state, follow serve (serveAll {} .sample tradeCodec fun _ => incomingTrade,{}) sharing =
    some state :=
  Option.isSome_iff_exists.mp (by decide +kernel)

theorem pools_shared_two :
    ∃ state, follow serve (serveAll {} .sample tradeCodec fun _ => incomingTrade,{}) sharing = some state ∧
      state.2.Sound := by
  obtain ⟨state,run⟩ := sharing_taken
  exact ⟨state,run,(pools_shared {} .sample tradeCodec _ sharing state run).1⟩

theorem requests_complete_two :
    ∃ state, follow serve (serveAll {} .sample tradeCodec fun _ => incomingTrade,{}) sharing = some state ∧
      ∃ rest final, follow serve state rest = some final ∧ ∀ i, (final.1 i).finished = true := by
  obtain ⟨state,run⟩ := sharing_taken
  obtain ⟨_,_,rest,final,onward,ends⟩ := requests_complete {} .sample tradeCodec _ sharing state run
  refine ⟨state,run,rest,final,onward,fun i => ?_⟩
  obtain ⟨reply,last,_⟩ := ends i
  rw [last]
  rfl

end FuturesCellProxy.Proxy
