import FuturesCellProxy.Proxy.FuturesProxy

/-! The runs of the parts that the operations are made of: the validation of a session,
the gate in front of an operation, and the call of the trading service. -/
namespace FuturesCellProxy.Proxy.FuturesProxy
open Foundation Rpc

def Validates (session : SessionInfo) (event : Step) : Prop := validated event = some (session,some .success)

theorem validates_of_attempted {session : SessionInfo} {bound : Nat} {trace : Trace}
    (attempted : Attempted (Prod.mk session) bound (some .success) (trace.filterMap validated)) :
    ∃ event ∈ trace, Validates session event := by
  obtain ⟨failures,shape,_⟩ := attempted.success
  have shown : (session,some .success) ∈ trace.filterMap validated := by simp [shape]
  exact List.mem_filterMap.mp shown

/-- What the client is told when a call came to this answer. -/
def tradeReply {Body Resp : Type} (convert : Resp → Body → Body) (error : FuturesError) (message : String)
    (resp : Return Body) : Option (Response Resp) → Return Body
  | none => fillStatusInfo resp .futuresInfoBusy "FUTURES INFO BUSY"
  | some answer =>
    if answer.errNo = .success then fillStatusInfo {resp with body := convert answer.body resp.body} .success "SUCCESS"
    else fillStatusInfo resp error message

section
variable {Body : Type}

theorem clockText_silent {β : Type} {observe : Step → Option β}
    (ignores : ∀ event, event.query.isRpc = false → observe event = none) : Silent observe clockText :=
  Silent.bind (Silent.call fun _ => ignores _ rfl) fun _ => .pure _

theorem generateUniqueID_silent {β : Type} {observe : Step → Option β}
    (ignores : ∀ event, event.query.isRpc = false → observe event = none) (name : Bytes) (type : AccessType) :
    Silent observe (generateUniqueID name type) :=
  Silent.bind (clockText_silent ignores) fun _ => .pure _

section Search
variable {β : Type} {observe : Step → Option β}
  (ignores : ∀ event, event.query.isRpc = false → observe event = none)
include ignores

theorem performUntilOk_silent (url : Bytes) (tryNums res : Nat) (strRst : Bytes) :
    Silent observe (performUntilOk url tryNums res strRst) := by
  induction tryNums generalizing res strRst with
  | zero => exact .pure _
  | succ tryNums ih =>
    apply Silent.bind (Silent.call fun _ => ignores _ rfl)
    intro transfer
    dsimp only
    split
    · exact .pure _
    · exact ih _ _

theorem fnDoCurl_silent (strURL strRst : Bytes) : Silent observe (fnDoCurl strURL strRst) := by
  apply Silent.bind (Silent.call fun _ => ignores _ rfl)
  intro ready
  dsimp only
  split
  · exact .pure _
  apply Silent.bind (performUntilOk_silent ignores _ _ _ _)
  rintro ⟨res,strRst⟩
  dsimp only
  split
  · exact .pure _
  split
  · apply Silent.bind (Silent.call fun _ => ignores _ rfl)
    intro rspCode
    split <;> exact .pure _
  · exact .pure _

theorem querySymbolByName_silent (flags : Flags) (platform : Platform) (req : QuerySymbolByNameRequest) :
    Silent observe (querySymbolByName flags platform req) := by
  apply Silent.bind (fnDoCurl_silent ignores _ _)
  rintro ⟨ret,retOut⟩
  dsimp only
  split
  · exact .pure _
  split <;> exact .pure _

end Search

theorem callTradeInfo_run {bound : Nat} {request : TradeCall} {convert : request.Body → Body → Body}
    {error : FuturesError} {message : String} {resp : Return Body} {trace : Trace} {result : Return Body}
    (run : Run (callTradeInfo (SPTradeInfoWrapper.callWithRetry bound request) convert error message resp) trace result) :
    ∃ answer, Attempted (Called.mk request) bound answer (trace.filterMap called) ∧
      trace.filterMap validated = [] ∧ result = tradeReply convert error message resp answer := by
  obtain ⟨getting,client,_,get,rest,rfl⟩ := (Run.bind_iff _ _ _ _).mp run
  obtain ⟨calling,⟨wrapper,answer⟩,_,calls,rest,rfl⟩ := (Run.bind_iff _ _ _ _).mp rest
  have attempted := SPTradeInfoWrapper.callWithRetry_called calls
  refine ⟨answer,?_⟩
  have unvalidated := SPTradeInfoWrapper.callWithRetry_silent (pooling_ignored validated_ignores) (fun _ _ => rfl)
    _ _ _ _ calls
  rw [List.filterMap_append,List.filterMap_append,List.filterMap_append,List.filterMap_append,
    getClientPtr_silent (pooling_ignored called_ignores) _ _ _ get,
    getClientPtr_silent (pooling_ignored validated_ignores) _ _ _ get,unvalidated,
    List.nil_append,List.nil_append,List.nil_append]
  cases answer with
  | none =>
    obtain ⟨rfl,rfl⟩ := (Run.pure_iff _ _ _).mp rest
    exact ⟨by simpa using attempted,rfl,rfl⟩
  | some answer =>
    obtain ⟨freeing,_,_,free,last,rfl⟩ := (Run.bind_iff _ _ _ _).mp rest
    rw [List.filterMap_append,List.filterMap_append,
      freeClientPtr_silent (pooling_ignored called_ignores) _ _ _ _ _ free,
      freeClientPtr_silent (pooling_ignored validated_ignores) _ _ _ _ _ free,List.nil_append,List.nil_append]
    simp only [tradeReply]
    split at last
    all_goals
      next outcome =>
      obtain ⟨rfl,rfl⟩ := (Run.pure_iff _ _ _).mp last
      exact ⟨by simpa using attempted,rfl,by simp [outcome]⟩

def pooled : Client := ⟨0,{mIsInited := true,mTransport := some 0,mClient := some 0,made := 1}⟩

theorem getClientPtr_pooled (service : Service) :
    Run (ClientPool.getClientPtr service) [⟨.getClient service,some pooled⟩] pooled :=
  Run.bind (ask_run (.getClient service) (some pooled)) (.ret pooled)

/-- If there is an attempt to spend, then some run makes the one call and gets any answer. -/
theorem callTradeInfo_reaches {bound : Nat} (positive : bound ≠ 0) (request : TradeCall)
    (convert : request.Body → Body → Body) (error : FuturesError) (message : String) (resp : Return Body)
    (answer : Response request.Body) :
    ∃ trace, Run (callTradeInfo (SPTradeInfoWrapper.callWithRetry bound request) convert error message resp)
        trace (tradeReply convert error message resp (some answer)) ∧
      trace.filterMap called = [⟨request,some answer⟩] := by
  obtain ⟨tries,rfl⟩ := Nat.exists_eq_succ_of_ne_zero positive
  refine ⟨[⟨.getClient .spTradeInfo,some pooled⟩] ++ ([⟨.tradeCall (some 0) request,some answer⟩] ++
    ([⟨.freeClient .spTradeInfo pooled true,()⟩] ++ [])),?run,rfl⟩
  apply Run.bind (getClientPtr_pooled .spTradeInfo)
  apply Run.bind (SPTradeInfoWrapper.callWithRetry_returns tries request pooled.wrapper rfl answer)
  apply Run.bind (ask_run (.freeClient .spTradeInfo pooled true) ())
  simp only [tradeReply]
  split <;> exact .ret _

theorem generateUniqueID_reaches (name : Bytes) (type : AccessType) :
    ∃ trace accessInfo, Run (generateUniqueID name type) trace accessInfo :=
  ⟨_,_,Run.bind (Run.bind (ask_run .systemClock 0) (.ret _)) (.ret _)⟩

theorem requireSession_run {session : Option LoginSession} {refused : Return Body}
    {operation : LoginSession → Prog (Return Body)} {trace : Trace} {result : Return Body}
    (run : Run (requireSession session refused operation) trace result) :
    session = none ∧ trace = [] ∧ result = fillStatusInfo refused .futuresReqErr "REQ ERROR" ∨
      ∃ present, session = some present ∧ Run (operation present) trace result := by
  cases session with
  | none =>
    obtain ⟨rfl,rfl⟩ := (Run.pure_iff _ _ _).mp run
    exact .inl ⟨rfl,rfl,rfl⟩
  | some present => exact .inr ⟨present,rfl,run⟩

variable {flags : Flags} {session : LoginSession}

theorem validateSession_run {trace : Trace} {thriftRet : Errno} (run : Run (validateSession flags session) trace thriftRet) :
    ∃ answer, Attempted (Prod.mk session.sessionInfo) flags.mRetryTimes answer (trace.filterMap validated) ∧
      trace.filterMap called = [] ∧ thriftRet = answer.getD .unknown := by
  obtain ⟨getting,client,_,get,rest,rfl⟩ := (Run.bind_iff _ _ _ _).mp run
  obtain ⟨validating,⟨wrapper,ret,valided⟩,freeing,validate,rest,rfl⟩ := (Run.bind_iff _ _ _ _).mp rest
  obtain ⟨answer,attempted,outcome⟩ := AuthenServerWrapper.validateSession_validated validate
  cases outcome
  have last : thriftRet = answer.getD .unknown ∧ ∀ {β : Type} {observe : Step → Option β},
      (∀ event, event.query.isRpc = false → observe event = none) → freeing.filterMap observe = [] := by
    cases answer with
    | none =>
      obtain ⟨rfl,rfl⟩ := (Run.pure_iff _ _ _).mp rest
      exact ⟨rfl,fun _ => rfl⟩
    | some answer =>
      obtain ⟨first,_,_,free,last,rfl⟩ := (Run.bind_iff _ _ _ _).mp rest
      obtain ⟨rfl,rfl⟩ := (Run.pure_iff _ _ _).mp last
      rw [List.append_nil]
      exact ⟨rfl,fun ignores => freeClientPtr_silent (pooling_ignored ignores) _ _ _ _ _ free⟩
  refine ⟨answer,?_,?_,last.1⟩
  · simpa [List.filterMap_append,getClientPtr_silent (pooling_ignored validated_ignores) _ _ _ get,
      last.2 validated_ignores] using attempted
  · have uncalled := AuthenServerWrapper.validateSession_silent (pooling_ignored called_ignores) _ (fun _ _ => rfl)
      _ _ _ validate
    simp [List.filterMap_append,getClientPtr_silent (pooling_ignored called_ignores) _ _ _ get,uncalled,
      last.2 called_ignores]

theorem validateSession_reaches (positive : flags.mRetryTimes ≠ 0) (session : LoginSession) (thriftRet : Errno) :
    ∃ trace, Run (validateSession flags session) trace thriftRet ∧
      (session.sessionInfo,some thriftRet) ∈ trace.filterMap validated := by
  refine ⟨[⟨.getClient .authen,some pooled⟩] ++ ([⟨.validateSession (some 0) session.sessionInfo,some thriftRet⟩] ++
    ([⟨.freeClient .authen pooled true,()⟩] ++ [])),?run,by simp [validated]⟩
  apply Run.bind (getClientPtr_pooled .authen)
  apply Run.bind (AuthenServerWrapper.validateSession_returns flags _ pooled.wrapper rfl positive thriftRet)
  apply Run.bind (ask_run (.freeClient .authen pooled true) ())
  exact .ret _

/-- The gate opens only for a session that the authentication server has called valid,
and nothing is asked of the trading service before. -/
theorem checkSession_run {resp : Return Body} {operation : Prog (Return Body)} {trace : Trace} {result : Return Body}
    (run : Run (checkSession flags session resp operation) trace result) :
    ∃ answer first second, trace = first ++ second ∧
      Attempted (Prod.mk session.sessionInfo) flags.mRetryTimes answer (first.filterMap validated) ∧
      first.filterMap called = [] ∧
      (answer ≠ some .success ∧ second = [] ∧ result = fillStatusInfo resp .futuresSessionErr "SESSION ERROR" ∨
        answer = some .success ∧ Run operation second result) := by
  obtain ⟨first,thriftRet,second,validate,rest,rfl⟩ := (Run.bind_iff _ _ _ _).mp run
  obtain ⟨answer,attempted,quiet,rfl⟩ := validateSession_run validate
  refine ⟨answer,first,second,rfl,attempted,quiet,?_⟩
  split at rest
  next refused =>
    obtain ⟨rfl,rfl⟩ := (Run.pure_iff _ _ _).mp rest
    refine .inl ⟨?_,rfl,rfl⟩
    rintro rfl
    exact refused rfl
  next passed =>
    refine .inr ⟨?_,rest⟩
    cases answer with
    | none => cases of_not_not passed
    | some answer => rw [show answer = .success from of_not_not passed]

theorem callTradeInfo_shows {bound : Nat} {request : TradeCall} {convert : request.Body → Body → Body}
    {error : FuturesError} {message : String} {resp : Return Body} {allowed : Called → Prop}
    (each : ∀ answer, allowed ⟨request,answer⟩) :
    Shows called allowed (callTradeInfo (SPTradeInfoWrapper.callWithRetry bound request) convert error message resp) := by
  intro trace result run call member
  obtain ⟨answer,attempted,_,_⟩ := callTradeInfo_run run
  obtain ⟨outcome,rfl⟩ := attempted.mem member
  exact each outcome

/-- What the gated operation calls is what is called, if anything is. -/
theorem checkSession_called {resp : Return Body} {operation : Prog (Return Body)} {trace : Trace} {result : Return Body}
    (run : Run (checkSession flags session resp operation) trace result) :
    trace.filterMap called = [] ∧ result = fillStatusInfo resp .futuresSessionErr "SESSION ERROR" ∨
      flags.mRetryTimes ≠ 0 ∧
        ∃ second, Run operation second result ∧ trace.filterMap called = second.filterMap called := by
  obtain ⟨answer,first,second,rfl,attempted,uncalled,outcome⟩ := checkSession_run run
  rw [List.filterMap_append,uncalled,List.nil_append]
  rcases outcome with ⟨_,rfl,refused⟩ | ⟨rfl,run⟩
  · exact .inl ⟨rfl,refused⟩
  · obtain ⟨failures,_,within⟩ := attempted.success
    exact .inr ⟨by omega,second,run,rfl⟩

theorem checkSession_passes (positive : flags.mRetryTimes ≠ 0) (session : LoginSession) (resp : Return Body)
    {operation : Prog (Return Body)} {second : Trace} {result : Return Body} (run : Run operation second result) :
    ∃ trace, Run (checkSession flags session resp operation) trace result ∧
      trace.filterMap called = second.filterMap called := by
  obtain ⟨first,validates,_⟩ := validateSession_reaches positive session .success
  obtain ⟨_,_,uncalled,_⟩ := validateSession_run validates
  exact ⟨first ++ second,Run.bind validates run,by rw [List.filterMap_append,uncalled,List.nil_append]⟩

theorem uniqueCall_run {bound : Nat} {request : AccessInfo → TradeCall}
    {convert : ∀ accessInfo, (request accessInfo).Body → Body → Body} {error : FuturesError} {message : String}
    {resp : Return Body} {trace : Trace} {result : Return Body}
    (run : Run (generateUniqueID accessName .cellProxy >>= fun accessInfo =>
      callTradeInfo (SPTradeInfoWrapper.callWithRetry bound (request accessInfo)) (convert accessInfo)
        error message resp) trace result) :
    ∃ accessInfo answer, Attempted (Called.mk (request accessInfo)) bound answer (trace.filterMap called) ∧
      trace.filterMap validated = [] ∧ result = tradeReply (convert accessInfo) error message resp answer := by
  obtain ⟨first,accessInfo,second,unique,calls,rfl⟩ := (Run.bind_iff _ _ _ _).mp run
  obtain ⟨answer,attempted,unvalidated,rfl⟩ := callTradeInfo_run calls
  refine ⟨accessInfo,answer,?_,?_,rfl⟩
  · rwa [List.filterMap_append,generateUniqueID_silent called_ignores _ _ _ _ unique]
  · rw [List.filterMap_append,generateUniqueID_silent validated_ignores _ _ _ _ unique,unvalidated,List.append_nil]

theorem uniqueCall_reaches {bound : Nat} (calls : bound ≠ 0) (request : AccessInfo → TradeCall)
    (convert : ∀ accessInfo, (request accessInfo).Body → Body → Body) (error : FuturesError) (message : String)
    (resp : Return Body) (answer : ∀ accessInfo, Response (request accessInfo).Body) :
    ∃ accessInfo trace, Run (generateUniqueID accessName .cellProxy >>= fun accessInfo =>
        callTradeInfo (SPTradeInfoWrapper.callWithRetry bound (request accessInfo)) (convert accessInfo)
          error message resp) trace (tradeReply (convert accessInfo) error message resp (some (answer accessInfo))) ∧
      trace.filterMap called = [⟨request accessInfo,some (answer accessInfo)⟩] := by
  obtain ⟨first,accessInfo,unique⟩ := generateUniqueID_reaches accessName .cellProxy
  obtain ⟨second,run,shown⟩ := callTradeInfo_reaches calls (request accessInfo) (convert accessInfo) error message resp
    (answer accessInfo)
  refine ⟨accessInfo,first ++ second,Run.bind unique run,?_⟩
  rw [List.filterMap_append,generateUniqueID_silent called_ignores _ _ _ _ unique,List.nil_append,shown]

theorem gatedCall_run {bound : Nat} {request : AccessInfo → TradeCall}
    {convert : ∀ accessInfo, (request accessInfo).Body → Body → Body} {error : FuturesError} {message : String}
    {resp : Return Body} {trace : Trace} {result : Return Body}
    (run : Run (checkSession flags session resp do
      let accessInfo ← generateUniqueID accessName .cellProxy
      callTradeInfo (SPTradeInfoWrapper.callWithRetry bound (request accessInfo)) (convert accessInfo)
        error message resp) trace result) :
    trace.filterMap called = [] ∧ result = fillStatusInfo resp .futuresSessionErr "SESSION ERROR" ∨
      flags.mRetryTimes ≠ 0 ∧ ∃ accessInfo answer,
        Attempted (Called.mk (request accessInfo)) bound answer (trace.filterMap called) ∧
        result = tradeReply (convert accessInfo) error message resp answer := by
  rcases checkSession_called run with refused | ⟨tries,second,run,same⟩
  · exact .inl refused
  obtain ⟨accessInfo,answer,attempted,_,reply⟩ := uniqueCall_run run
  rw [same]
  exact .inr ⟨tries,accessInfo,answer,attempted,reply⟩

theorem gatedCall_reaches {bound : Nat} (tries : flags.mRetryTimes ≠ 0) (calls : bound ≠ 0) (session : LoginSession)
    (request : AccessInfo → TradeCall) (convert : ∀ accessInfo, (request accessInfo).Body → Body → Body)
    (error : FuturesError) (message : String) (resp : Return Body) (answer : ∀ accessInfo, Response (request accessInfo).Body) :
    ∃ accessInfo trace, Run (checkSession flags session resp do
        let accessInfo ← generateUniqueID accessName .cellProxy
        callTradeInfo (SPTradeInfoWrapper.callWithRetry bound (request accessInfo)) (convert accessInfo)
          error message resp) trace (tradeReply (convert accessInfo) error message resp (some (answer accessInfo))) ∧
      trace.filterMap called = [⟨request accessInfo,some (answer accessInfo)⟩] := by
  obtain ⟨accessInfo,second,sends,shown⟩ := uniqueCall_reaches calls request convert error message resp answer
  obtain ⟨trace,gated,same⟩ := checkSession_passes tries session resp sends
  exact ⟨accessInfo,trace,gated,same.trans shown⟩

theorem checkSession_reaches (positive : flags.mRetryTimes ≠ 0) (session : LoginSession) (resp : Return Body)
    (operation : Prog (Return Body)) :
    ∃ trace result, Run (checkSession flags session resp operation) trace result ∧ trace.filterMap validated ≠ [] := by
  obtain ⟨trace,run,member⟩ := validateSession_reaches positive session .unknown
  refine ⟨trace ++ [],_,Run.bind run (.ret _),?_⟩
  rw [List.append_nil]
  exact List.ne_nil_of_mem member

end

/-- An order with the signature that the client sends. -/
def sampleTrade : FuturesTradeRequest where
  futuresId := ascii "1001"
  symbol := ascii "HSI"
  volume := ascii "1"
  type := 1
  price := ascii "25000"
  signature := ascii "FP2dzUO/16FL+Cv//wEZp5Zqy0QPucqas8HlAdePT38="
  session := some ⟨ascii "token",7⟩

def obliging : Trace → (query : Query) → query.Answer
  | _, .systemClock => 1488787200000000000
  | _, .getClient _ => none
  | _, .newClient _ => 0
  | _, .openTransport _ _ => true
  | _, .validateSession _ _ => some .success
  | _, .tradeCall _ (.addOrder _) => some ⟨.success,()⟩
  | _, .tradeCall _ _ => none
  | _, .freeClient _ _ _ => ()
  | _, .curlInit => true
  | _, .curlPerform _ => ⟨[],curleOk⟩
  | _, .curlResponseCode => 200

end FuturesCellProxy.Proxy.FuturesProxy
