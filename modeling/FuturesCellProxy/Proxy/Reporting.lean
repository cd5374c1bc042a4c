import FuturesCellProxy.Proxy.OperationRuns
import FuturesCellProxy.Proxy.RequestHandler

/-! What a reply tells the client. For every operation but the search, status and message are
a function of the request and of what the two services have answered, and data comes only
with a success, from the response that brought it. -/
namespace FuturesCellProxy.Proxy
open Foundation Rpc FuturesProxy

/-- What came of the last validation, if it returned. -/
def lastValidation (trace : Trace) : Option Errno := (trace.filterMap validated).getLast?.bind Prod.snd

def lastCall (trace : Trace) : Option Called := (trace.filterMap called).getLast?

/-- What came of the last call of the trading service, if it returned. -/
def lastErrNo (trace : Trace) : Option Errno := (lastCall trace).bind fun call => call.answer.map Response.errNo

namespace Operation

/-- The operation asks for a session. -/
def needsSession : Operation → Bool
  | symbolTypeRecommend | symbolListByType | querySymbolByName | queryFifthOrder
  | querySymbolQuotations | futuresGraph | futuresKLine => false
  | _ => true

/-- It calls the trading service. -/
def trades (op : Operation) : Bool := op.needsSession && op ≠ queryFuturesAccountConfig

/-- It does so behind a validation of the session. -/
def validates (op : Operation) : Bool :=
  op.trades && op ∉ [queryUserStatus,tradeConfirmInfo,querySymbolTradeInfo]

/-- What is told when the trading service has answered with an error. -/
def refusal : Operation → FuturesError × String
  | futuresTrade => (.futuresTradeErr,"TRADE ERROR")
  | cancelPendingOrder | queryHistoryOrders => (.futuresReturnErr,"DELETE ERROR")
  | _ => (.futuresReturnErr,"RETURN ERROR")

section
variable (flags : Flags) (platform : Platform)

def signed : (op : Operation) → op.Request → Bool
  | futuresTrade, req => signatureOf platform req == req.signature
  | _, _ => true

/-- What the client is told, by the request and the answers in the run. -/
def told (op : Operation) (req : op.Request) (trace : Trace) : FuturesError × String :=
  if op.needsSession ∧ op.session req = none then (.futuresReqErr,"REQ ERROR")
  else if signed platform op req = false then (.futuresSessionErr,"VALIDATE ERROR")
  else if op.validates ∧ lastValidation trace ≠ some .success then (.futuresSessionErr,"SESSION ERROR")
  else if op.trades = false ∨ lastErrNo trace = some .success then (.success,"SUCCESS")
  else if lastErrNo trace = none then (.futuresInfoBusy,"FUTURES INFO BUSY")
  else op.refusal

/-- The body of a reply that reports no success. -/
def blank : (op : Operation) → op.Request → op.Body
  | queryMyFuturesAssets, _ | queryFuturesAccountConfig, _ | queryPendingOrders, _ | queryHoldingOrders, _
  | queryOrderDetail, _ | queryTransactionRecord, _ | queryHistoryOrders, _ | querySymbolByName, _
  | tradeConfirmInfo, _ | querySymbolTradeInfo, _ => {}
  | queryUserStatus, req => if req.loginSession = none then {statusUrl := some flags.futuresAccountOpenUrl} else {}
  | futuresTrade, _ | cancelPendingOrder, _ | symbolTypeRecommend, _ | symbolListByType, _ | queryFifthOrder, _
  | querySymbolQuotations, _ | futuresGraph, _ | futuresKLine, _ => ()

/-- The body that a call with its response makes. -/
def data : (op : Operation) → op.Request → Called → Option op.Body
  | queryMyFuturesAssets, _, ⟨.getAccInfo _,answer⟩ =>
    answer.map fun response => FuturesConvert.toProtoMyFuturesAsset platform response.body {}
  | queryUserStatus, _, ⟨.getUserAccountStatus _,answer⟩ =>
    answer.map fun response => accountStatusUrl flags response.body {}
  | queryPendingOrders, _, ⟨.getActiveOrder _,answer⟩ =>
    answer.map fun response => FuturesConvert.toProtoActiveOrders platform response.body {}
  | queryHoldingOrders, _, ⟨.getPosition _,answer⟩ =>
    answer.map fun response => FuturesConvert.toProtoPosition platform response.body {}
  | queryOrderDetail, _, ⟨.getOrderByNo _,answer⟩ =>
    answer.map fun response => FuturesConvert.toProtoOrderDetail platform response.body {}
  | queryTransactionRecord, _, ⟨.getFundInOutRecord _,answer⟩ =>
    answer.map fun response => FuturesConvert.toProtoFundRecord response.body {}
  | queryHistoryOrders, _, ⟨.getHisOrder _,answer⟩ =>
    answer.map fun response => FuturesConvert.toProtoHistoryOrders response.body {}
  | tradeConfirmInfo, _, ⟨.getFuturesQuoteFeeInfo _,answer⟩ =>
    answer.map fun response => FuturesConvert.toProtoQuoteFeeInfo platform response.body {}
  | querySymbolTradeInfo, req, ⟨.getFuturesQuoteFeeInfo _,answer⟩ =>
    answer.map fun response => symbolTradeInfo platform req.symbol response.body {}
  | futuresTrade, _, ⟨.addOrder _,answer⟩ => answer.map fun _ => ()
  | cancelPendingOrder, _, ⟨.deleteOrder _,answer⟩ => answer.map fun _ => ()
  | _, _, _ => none

/-- The body of a reply that reports success. -/
def shown : (op : Operation) → op.Request → Trace → op.Body
  | queryFuturesAccountConfig, req, _ => FuturesConvert.toProtoFuturesAccountConfig flags req {}
  | op, req, trace => ((lastCall trace).bind (data flags platform op req)).getD (blank flags op req)

/-- The reply says what has happened, and shows data only with a success. -/
structure Reported (op : Operation) (req : op.Request) (trace : Trace) (ret : Return op.Body) : Prop where
  status : ret.statusInfo = some ⟨(told platform op req trace).1.code,ascii (told platform op req trace).2⟩
  body : ret.body =
    if (told platform op req trace).1 = .success then shown flags platform op req trace else blank flags op req

variable {flags platform} {op : Operation} {req : op.Request} {trace : Trace}

theorem Reported.of_refusal {error : FuturesError} {message : String} (tells : told platform op req trace = (error,message))
    (failure : error ≠ .success) {resp : Return op.Body} (empty : resp.body = blank flags op req) :
    Reported flags platform op req trace (fillStatusInfo resp error message) := by
  constructor
  · rw [tells]
    rfl
  · rw [tells,if_neg failure]
    exact empty

theorem Reported.of_success (tells : told platform op req trace = (.success,"SUCCESS")) {resp : Return op.Body}
    (full : resp.body = shown flags platform op req trace) :
    Reported flags platform op req trace (fillStatusInfo resp .success "SUCCESS") := by
  constructor
  · rw [tells]
    rfl
  · rw [tells,if_pos rfl]
    exact full

theorem lastErrNo_of_attempted {request : TradeCall} {bound : Nat} {answer : Option (Response request.Body)}
    (attempted : Attempted (Called.mk request) bound answer (trace.filterMap called)) :
    lastErrNo trace = answer.map Response.errNo :=
  attempted.read_last fun _ => rfl

theorem lastValidation_of_attempted {session : SessionInfo} {bound : Nat} {answer : Option Errno}
    (attempted : Attempted (Prod.mk session) bound answer (trace.filterMap validated)) : lastValidation trace = answer := by
  have read : lastValidation trace = answer.map id := attempted.read_last fun outcome => by simp
  rwa [Option.map_id,id] at read

theorem refusal_ne_success (op : Operation) : op.refusal.1 ≠ .success := by
  cases op <;> decide

/-- Past the checks, the answer of the trading service is what is reported. -/
theorem Reported.of_call {request : TradeCall} {bound : Nat} {answer : Option (Response request.Body)}
    (attempted : Attempted (Called.mk request) bound answer (trace.filterMap called)) (trades : op.trades = true)
    (present : op.session req ≠ none) (signature : signed platform op req = true)
    (valid : op.validates = true → lastValidation trace = some .success)
    {convert : request.Body → op.Body → op.Body} {resp : Return op.Body} (empty : resp.body = blank flags op req)
    (converts : ∀ outcome, data flags platform op req ⟨request,outcome⟩ =
      outcome.map fun response => convert response.body resp.body) :
    Reported flags platform op req trace (tradeReply convert op.refusal.1 op.refusal.2 resp answer) := by
  have tells : told platform op req trace =
      if lastErrNo trace = some .success then (.success,"SUCCESS")
      else if lastErrNo trace = none then (.futuresInfoBusy,"FUTURES INFO BUSY") else op.refusal := by
    rw [told,if_neg (fun missing => present missing.2),if_neg (by simp [signature]),
      if_neg (fun refused => refused.2 (valid refused.1))]
    simp only [trades,Bool.true_eq_false,false_or]
  rw [lastErrNo_of_attempted attempted] at tells
  cases answer with
  | none => exact .of_refusal tells (by decide) empty
  | some response =>
    simp only [tradeReply]
    split
    next ok =>
      have body : (lastCall trace).bind (data flags platform op req) = some (convert response.body resp.body) :=
        attempted.read_last converts
      apply Reported.of_success (by simpa [ok] using tells)
      cases op with
      | queryFuturesAccountConfig => cases trades
      | _ => simp only [shown,body,Option.getD_some]
    next failed => exact .of_refusal (by simpa [failed] using tells) (refusal_ne_success op) empty

theorem Reported.of_absent (needs : op.needsSession = true) (absent : op.session req = none) {resp : Return op.Body}
    (empty : resp.body = blank flags op req) :
    Reported flags platform op req trace (fillStatusInfo resp .futuresReqErr "REQ ERROR") :=
  .of_refusal (if_pos ⟨needs,absent⟩) (by decide) empty

theorem Reported.of_invalid {session : LoginSession} (present : op.session req = some session)
    (signature : signed platform op req = true) (validates : op.validates = true)
    (invalid : lastValidation trace ≠ some .success) {resp : Return op.Body} (empty : resp.body = blank flags op req) :
    Reported flags platform op req trace (fillStatusInfo resp .futuresSessionErr "SESSION ERROR") := by
  apply Reported.of_refusal _ (by decide) empty
  rw [told,if_neg (by simp [present]),if_neg (by simp [signature]),if_pos ⟨validates,invalid⟩]

/-- The gate, and behind it an operation that validates nothing more. -/
theorem Reported.of_gate {session : LoginSession} {operation : Prog (Return op.Body)} {ret : Return op.Body}
    (present : op.session req = some session) (signature : signed platform op req = true) (validates : op.validates = true)
    {resp : Return op.Body} (empty : resp.body = blank flags op req) (quiet : Silent validated operation)
    (calls : ∀ trace second, Run operation second ret → lastValidation trace = some .success →
      trace.filterMap called = second.filterMap called → Reported flags platform op req trace ret)
    (run : Run (checkSession flags session resp operation) trace ret) : Reported flags platform op req trace ret := by
  obtain ⟨answer,first,second,rfl,attempted,uncalled,outcome⟩ := checkSession_run run
  have last : lastValidation first = answer := lastValidation_of_attempted attempted
  rcases outcome with ⟨refused,rfl,rfl⟩ | ⟨rfl,run⟩
  · rw [List.append_nil]
    exact .of_invalid present signature validates (by rwa [last]) empty
  · apply calls _ second run
    · rw [lastValidation,List.filterMap_append,quiet _ _ run,List.append_nil]
      exact last
    · rw [List.filterMap_append,uncalled,List.nil_append]

theorem Reported.of_session (op : Operation) (req : op.Request) {refused : Return op.Body} {operation : LoginSession → Prog (Return op.Body)}
    {ret : Return op.Body} (needs : op.needsSession = true) (empty : op.session req = none → refused.body = blank flags op req)
    (operates : ∀ session, op.session req = some session → Run (operation session) trace ret →
      Reported flags platform op req trace ret)
    (run : Run (requireSession (op.session req) refused operation) trace ret) : Reported flags platform op req trace ret := by
  rcases requireSession_run run with ⟨absent,rfl,rfl⟩ | ⟨session,present,run⟩
  · exact .of_absent needs absent (empty absent)
  · exact operates session present run

/-- One call with an identifier of its own, behind the gate or without it. -/
theorem Reported.of_uniqueCall (op : Operation) (req : op.Request) {bound : Nat} (request : AccessInfo → TradeCall)
    {convert : ∀ accessInfo, (request accessInfo).Body → op.Body → op.Body} {resp ret : Return op.Body}
    {session : LoginSession} (trades : op.trades = true) (present : op.session req = some session)
    (signature : signed platform op req = true) (empty : resp.body = blank flags op req)
    (converts : ∀ accessInfo outcome, data flags platform op req ⟨request accessInfo,outcome⟩ =
      outcome.map fun response => convert accessInfo response.body resp.body)
    (run : Run (do
      let unique : Prog (Return op.Body) := generateUniqueID accessName .cellProxy >>= fun accessInfo =>
        callTradeInfo (SPTradeInfoWrapper.callWithRetry bound (request accessInfo)) (convert accessInfo)
          op.refusal.1 op.refusal.2 resp
      if op.validates then checkSession flags session resp unique else unique) trace ret) :
    Reported flags platform op req trace ret := by
  have some_session : op.session req ≠ none := by simp [present]
  split at run
  next validates =>
    apply Reported.of_gate present signature validates empty _ _ run
    · intro trace ret run
      obtain ⟨_,_,_,unvalidated,_⟩ := uniqueCall_run run
      exact unvalidated
    · intro trace second run valid same
      obtain ⟨accessInfo,answer,attempted,_,rfl⟩ := uniqueCall_run run
      exact .of_call (same ▸ attempted) trades some_session signature (fun _ => valid) empty (converts accessInfo)
  next unchecked =>
    obtain ⟨accessInfo,answer,attempted,_,rfl⟩ := uniqueCall_run run
    exact .of_call attempted trades some_session signature (fun validates => absurd validates unchecked) empty
      (converts accessInfo)

/-- An order also has an identifier of its own, for which the clock is read once more. -/
theorem orderCall_run {flags : Flags} (order : AccessInfo → Bytes → AddOrderReq) {ret : FuturesTradeReturn}
    (run : Run (do
      let accessInfo ← generateUniqueID accessName .cellProxy
      let clOrderId ← clockText
      callTradeInfo (SPTradeInfoWrapper.addOrder flags (order accessInfo clOrderId)) (fun _ body => body)
        .futuresTradeErr "TRADE ERROR" ⟨none,()⟩) trace ret) :
    ∃ order answer, Attempted (Called.mk (.addOrder order)) flags.rpcCallTimes answer (trace.filterMap called) ∧
      trace.filterMap validated = [] ∧
      ret = tradeReply (fun _ body => body) .futuresTradeErr "TRADE ERROR" ⟨none,()⟩ answer := by
  obtain ⟨first,accessInfo,_,unique,rest,rfl⟩ := (Run.bind_iff _ _ _ _).mp run
  obtain ⟨second,clOrderId,third,clock,calls,rfl⟩ := (Run.bind_iff _ _ _ _).mp rest
  obtain ⟨answer,attempted,unvalidated,reply⟩ := callTradeInfo_run calls
  refine ⟨_,answer,?_,?_,reply⟩
  · rwa [List.filterMap_append,List.filterMap_append,generateUniqueID_silent called_ignores _ _ _ _ unique,
      clockText_silent called_ignores _ _ clock]
  · rw [List.filterMap_append,List.filterMap_append,generateUniqueID_silent validated_ignores _ _ _ _ unique,
      clockText_silent validated_ignores _ _ clock,unvalidated,List.nil_append,List.nil_append]

end

theorem futuresTrade_reported {flags : Flags} {platform : Platform} {req : FuturesTradeRequest} {trace : Trace}
    {ret : FuturesTradeReturn} (run : Run (FuturesProxy.futuresTrade flags platform req) trace ret) :
    Reported flags platform .futuresTrade req trace ret := by
  refine .of_session .futuresTrade req rfl (fun _ => rfl) (fun session present run => ?_) run
  split at run
  next forged =>
    obtain ⟨rfl,rfl⟩ := (Run.pure_iff _ _ _).mp run
    have signature : signed platform .futuresTrade req = false := beq_eq_false_iff_ne.mpr forged
    exact .of_refusal (by rw [told,if_neg (by simp [present]),if_pos signature]) (by decide) rfl
  next genuine =>
    have signature : signed platform .futuresTrade req = true := beq_iff_eq.mpr (not_not.mp genuine)
    refine @Reported.of_gate _ _ .futuresTrade req _ session _ ret present signature rfl _ rfl ?_ ?_ run
    · intro trace ret run
      obtain ⟨_,_,_,unvalidated,_⟩ := orderCall_run (addOrderReq platform req session) run
      exact unvalidated
    · intro trace second run valid same
      obtain ⟨order,answer,attempted,_,rfl⟩ := orderCall_run (addOrderReq platform req session) run
      rw [← same] at attempted
      exact @Reported.of_call flags platform .futuresTrade req trace (.addOrder order) _ answer attempted rfl
        (by simp [present]) signature (fun _ => valid) (fun _ body => body) ⟨none,()⟩ rfl (fun _ => rfl)

end Operation

open Operation

/-- Every reply but that of the search reports what has happened. -/
theorem reported (flags : Flags) (platform : Platform) (op : Operation) (other : op ≠ .querySymbolByName)
    (req : op.Request) (trace : Trace) (ret : Return op.Body)
    (run : Run (op.handle flags platform req) trace (some ret)) : Reported flags platform op req trace ret := by
  cases op
  case querySymbolByName => exact absurd rfl other
  all_goals
    obtain ⟨_,run,same⟩ := (Run.map_iff _ _ _ _).mp run
    cases same
  case queryMyFuturesAssets =>
    refine .of_session .queryMyFuturesAssets req rfl (fun _ => rfl) (fun session present run => ?_) run
    exact .of_uniqueCall .queryMyFuturesAssets req (fun _ => .getAccInfo _) rfl present rfl rfl (fun _ _ => rfl) run
  case queryPendingOrders =>
    refine .of_session .queryPendingOrders req rfl (fun _ => rfl) (fun session present run => ?_) run
    exact .of_uniqueCall .queryPendingOrders req (fun _ => .getActiveOrder _) rfl present rfl rfl (fun _ _ => rfl) run
  case queryHoldingOrders =>
    refine .of_session .queryHoldingOrders req rfl (fun _ => rfl) (fun session present run => ?_) run
    exact .of_uniqueCall .queryHoldingOrders req (fun _ => .getPosition _) rfl present rfl rfl (fun _ _ => rfl) run
  case queryOrderDetail =>
    refine .of_session .queryOrderDetail req rfl (fun _ => rfl) (fun session present run => ?_) run
    exact .of_uniqueCall .queryOrderDetail req (fun _ => .getOrderByNo _) rfl present rfl rfl (fun _ _ => rfl) run
  case queryTransactionRecord =>
    refine .of_session .queryTransactionRecord req rfl (fun _ => rfl) (fun session present run => ?_) run
    exact .of_uniqueCall .queryTransactionRecord req (fun _ => .getFundInOutRecord _) rfl present rfl rfl
      (fun _ _ => rfl) run
  case cancelPendingOrder =>
    refine .of_session .cancelPendingOrder req rfl (fun _ => rfl) (fun session present run => ?_) run
    exact .of_uniqueCall .cancelPendingOrder req (fun _ => .deleteOrder _) rfl present rfl rfl (fun _ _ => rfl) run
  case queryHistoryOrders =>
    refine .of_session .queryHistoryOrders req rfl (fun _ => rfl) (fun session present run => ?_) run
    exact .of_uniqueCall .queryHistoryOrders req (fun _ => .getHisOrder _) rfl present rfl rfl (fun _ _ => rfl) run
  -- the three operations without a validation
  case queryUserStatus =>
    refine .of_session .queryUserStatus req rfl (fun absent => (if_pos absent).symm) (fun session present run => ?_) run
    have blank : (⟨none,{}⟩ : Return UserStatus).body = blank flags .queryUserStatus req :=
      (if_neg (by simp [show req.loginSession = some session from present])).symm
    exact .of_uniqueCall .queryUserStatus req (fun _ => .getUserAccountStatus _) rfl present rfl blank (fun _ _ => rfl) run
  case tradeConfirmInfo =>
    refine .of_session .tradeConfirmInfo req rfl (fun _ => rfl) (fun session present run => ?_) run
    exact .of_uniqueCall .tradeConfirmInfo req (fun _ => .getFuturesQuoteFeeInfo _) rfl present rfl rfl (fun _ _ => rfl) run
  case querySymbolTradeInfo =>
    refine .of_session .querySymbolTradeInfo req rfl (fun _ => rfl) (fun session present run => ?_) run
    exact .of_uniqueCall .querySymbolTradeInfo req (fun _ => .getFuturesQuoteFeeInfo _) rfl present rfl rfl
      (fun _ _ => rfl) run
  case futuresTrade => exact futuresTrade_reported run
  case queryFuturesAccountConfig =>
    refine .of_session .queryFuturesAccountConfig req rfl (fun _ => rfl) (fun session present run => ?_) run
    obtain ⟨rfl,rfl⟩ := (Run.pure_iff _ _ _).mp run
    exact .of_success (by simp [told,present,signed,validates,trades]) rfl
  case symbolTypeRecommend | symbolListByType | queryFifthOrder | querySymbolQuotations | futuresGraph | futuresKLine =>
    obtain ⟨rfl,rfl⟩ := (Run.pure_iff _ _ _).mp run
    exact .of_success rfl rfl

theorem reported_sample :
    let run := (FuturesProxy.futuresTrade {} .sample sampleTrade).play obliging []
    told .sample .futuresTrade sampleTrade run.1 = (.success,"SUCCESS") ∧
    Reported {} .sample .futuresTrade sampleTrade run.1 run.2 :=
  ⟨by decide +kernel,reported {} .sample .futuresTrade (by decide) sampleTrade _ _
    ((Run.map_iff _ _ _ _).mpr ⟨_,Run.play obliging _ [],rfl⟩)⟩

end FuturesCellProxy.Proxy
