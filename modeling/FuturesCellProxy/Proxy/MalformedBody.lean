import FuturesCellProxy.Proxy.OperationRuns
import FuturesCellProxy.Proxy.RequestHandler

/-! Which operations a body that does not parse leaves without effect. The handler goes on
with whatever message the parser has filled, so only the operation's own checks can
stop it. -/
namespace FuturesCellProxy.Proxy
open Foundation Rpc FuturesProxy

/-- Neither service is asked for more than a connection. -/
def NoRpc (trace : Trace) : Prop := ∀ event ∈ trace, event.query.isRpc = false

instance : DecidablePred NoRpc :=
  fun trace => inferInstanceAs (Decidable (∀ event ∈ trace, event.query.isRpc = false))

/-- The client receives a status, and it is not the one of success. -/
def Refuses {Body : Type} (ret : Return Body) : Prop :=
  ∃ info, ret.statusInfo = some info ∧ info.statusNo ≠ FuturesError.success.code

def Effectless {Body : Type} (operation : Prog (Return Body)) : Prop :=
  ∀ trace ret, Run operation trace ret → NoRpc trace ∧ Refuses ret

section
variable {Body : Type} {flags : Flags}

theorem noRpc_iff (trace : Trace) :
    NoRpc trace ↔ trace.filterMap called = [] ∧ trace.filterMap validated = [] := by
  constructor
  · intro quiet
    exact ⟨List.filterMap_eq_nil_iff.mpr fun event member => called_ignores event (quiet event member),
      List.filterMap_eq_nil_iff.mpr fun event member => validated_ignores event (quiet event member)⟩
  · rintro ⟨uncalled,unvalidated⟩ ⟨query,answer⟩ member
    have noCall := List.filterMap_eq_nil_iff.mp uncalled _ member
    have noValidation := List.filterMap_eq_nil_iff.mp unvalidated _ member
    cases query with
    | validateSession client session => cases noValidation
    | tradeCall client request => cases noCall
    | _ => rfl

theorem fillStatusInfo_refuses (resp : Return Body) {error : FuturesError} (failure : error ≠ .success)
    (message : String) : Refuses (fillStatusInfo resp error message) :=
  ⟨_,rfl,fun same => failure ((FuturesError.code_eq_success_iff error).mp same)⟩

theorem not_refuses_success (resp : Return Body) (message : String) :
    ¬ Refuses (fillStatusInfo resp .success message) := by
  rintro ⟨info,given,other⟩
  cases given
  exact other rfl

theorem effectless_refusal (resp : Return Body) {error : FuturesError} (failure : error ≠ .success)
    (message : String) : Effectless (pure (fillStatusInfo resp error message)) := by
  intro trace ret run
  obtain ⟨rfl,rfl⟩ := (Run.pure_iff _ _ _).mp run
  exact ⟨fun _ member => absurd member List.not_mem_nil,fillStatusInfo_refuses resp failure message⟩

theorem not_effectless_success (resp : Return Body) (message : String) :
    ¬ Effectless (pure (fillStatusInfo resp .success message)) :=
  fun effectless => not_refuses_success resp message (effectless [] _ (.ret _)).2

theorem effectless_requireSession_iff (session : Option LoginSession) (refused : Return Body)
    {operation : LoginSession → Prog (Return Body)} {condition : Prop}
    (behind : ∀ present, Effectless (operation present) ↔ condition) :
    Effectless (requireSession session refused operation) ↔ session = none ∨ condition := by
  cases session with
  | none => exact iff_of_true (effectless_refusal refused (by decide) _) (.inl rfl)
  | some present => exact (behind present).trans (by simp)

theorem effectless_checkSession_iff (session : LoginSession) (resp : Return Body) (operation : Prog (Return Body)) :
    Effectless (checkSession flags session resp operation) ↔ flags.mRetryTimes = 0 := by
  constructor
  · intro effectless
    by_contra tries
    obtain ⟨trace,result,run,validates⟩ := checkSession_reaches tries session resp operation
    exact validates ((noRpc_iff trace).mp (effectless trace result run).1).2
  · intro idle trace ret run
    obtain ⟨answer,first,second,rfl,attempted,uncalled,outcome⟩ := checkSession_run run
    have unvalidated := attempted.length_le
    rw [idle,Nat.le_zero,List.length_eq_zero_iff] at unvalidated
    rcases outcome with ⟨_,rfl,rfl⟩ | ⟨rfl,_⟩
    · rw [List.append_nil]
      exact ⟨(noRpc_iff first).mpr ⟨uncalled,unvalidated⟩,fillStatusInfo_refuses resp (by decide) _⟩
    · obtain ⟨failures,shape,_⟩ := attempted.success
      simp [unvalidated] at shape

theorem effectless_bare_iff (request : AccessInfo → TradeCall)
    (convert : ∀ accessInfo, (request accessInfo).Body → Body → Body)
    (answer : ∀ accessInfo, Response (request accessInfo).Body) (error : FuturesError) (message : String)
    (resp : Return Body) :
    Effectless (do
        let accessInfo ← generateUniqueID accessName .cellProxy
        callTradeInfo (SPTradeInfoWrapper.callWithRetry flags.mRetryTimes (request accessInfo))
          (convert accessInfo) error message resp) ↔ flags.mRetryTimes = 0 := by
  constructor
  · intro effectless
    by_contra tries
    obtain ⟨_,_,run,calls⟩ := uniqueCall_reaches tries request convert error message resp answer
    have uncalled := ((noRpc_iff _).mp (effectless _ _ run).1).1
    exact List.cons_ne_nil _ _ (calls.symm.trans uncalled)
  · intro idle trace ret run
    obtain ⟨accessInfo,answer,attempted,unvalidated,rfl⟩ := uniqueCall_run run
    have uncalled := attempted.length_le
    rw [idle,Nat.le_zero,List.length_eq_zero_iff] at uncalled
    refine ⟨(noRpc_iff trace).mpr ⟨uncalled,unvalidated⟩,?_⟩
    cases answer with
    | none => exact fillStatusInfo_refuses resp (by decide) _
    | some answer =>
      obtain ⟨failures,shape,_⟩ := attempted.success
      simp [uncalled] at shape

end

/-- The same for an operation that may end in an exception, which leaves no status. -/
def Contained {Body : Type} (operation : Prog (Option (Return Body))) : Prop :=
  ∀ trace result, Run operation trace result → NoRpc trace ∧ ∃ ret, result = some ret ∧ Refuses ret

theorem contained_map_iff {Body : Type} (operation : Prog (Return Body)) :
    Contained (some <$> operation) ↔ Effectless operation := by
  constructor
  · intro contained trace ret run
    obtain ⟨quiet,_,same,refuses⟩ := contained trace _ ((Run.map_iff _ _ _ _).mpr ⟨ret,run,rfl⟩)
    cases same
    exact ⟨quiet,refuses⟩
  · intro effectless trace result run
    obtain ⟨ret,returned,rfl⟩ := (Run.map_iff _ _ _ _).mp run
    obtain ⟨quiet,refuses⟩ := effectless trace ret returned
    exact ⟨quiet,ret,rfl,refuses⟩

section
variable (flags : Flags) (platform : Platform)

theorem effectless_futuresTrade_iff (req : FuturesTradeRequest) :
    Effectless (futuresTrade flags platform req) ↔
      req.session = none ∨ signatureOf platform req ≠ req.signature ∨ flags.mRetryTimes = 0 := by
  apply effectless_requireSession_iff
  intro present
  by_cases forged : signatureOf platform req ≠ req.signature
  · rw [if_pos forged]
    exact iff_of_true (effectless_refusal _ (by decide) _) (.inl forged)
  · rw [if_neg forged,or_iff_right forged]
    exact effectless_checkSession_iff _ _ _

theorem fnDoCurl_reaches (url chunk : Bytes) (some_chunk : chunk ≠ []) :
    ∃ trace, Run (fnDoCurl url []) trace (curleOk,chunk) := by
  refine ⟨[⟨.curlInit,true⟩,⟨.curlPerform (upTo nul url),⟨[chunk],curleOk⟩⟩],?_⟩
  simp [fnDoCurl,performUntilOk,ask,some_chunk]

theorem not_contained_search (reads : platform.parseJson (ascii "[]") = some (.array []))
    (req : QuerySymbolByNameRequest) : ¬ Contained (querySymbolByName flags platform req) := by
  intro contained
  obtain ⟨trace,run⟩ := fnDoCurl_reaches (flags.futuresSearchUrl ++ ascii "futures/" ++ req.key) (ascii "[]") (by decide)
  have found : Run (querySymbolByName flags platform req) (trace ++ [])
      (some (fillStatusInfo {body := {}} .success "SUCCESS")) := by
    apply Run.bind run
    simp only [ne_eq,not_true_eq_false,if_false,reads]
    exact .ret _
  obtain ⟨_,ret,given,refuses⟩ := contained _ _ found
  cases given
  exact not_refuses_success _ _ refuses

/-- The condition under which a request, however it was filled, is without effect. -/
def Inert : (op : Operation) → op.Request → Prop
  | .symbolTypeRecommend, _ | .symbolListByType, _ | .queryFifthOrder, _ | .querySymbolQuotations, _
  | .futuresGraph, _ | .futuresKLine, _ | .querySymbolByName, _ => False
  | .queryFuturesAccountConfig, req => req.loginSession = none
  | .futuresTrade, req => req.session = none ∨ signatureOf platform req ≠ req.signature ∨ flags.mRetryTimes = 0
  | op, req => op.session req = none ∨ flags.mRetryTimes = 0

theorem contained_handle_iff (reads : platform.parseJson (ascii "[]") = some (.array []))
    (op : Operation) (req : op.Request) :
    Contained (op.handle flags platform req) ↔ Inert flags platform op req := by
  cases op
  case querySymbolByName => exact iff_of_false (not_contained_search flags platform reads req) id
  case symbolTypeRecommend | symbolListByType | queryFifthOrder | querySymbolQuotations | futuresGraph | futuresKLine =>
    exact (contained_map_iff _).trans (iff_of_false (not_effectless_success _ _) id)
  case queryFuturesAccountConfig =>
    apply (contained_map_iff _).trans
    apply (effectless_requireSession_iff _ _ fun _ => iff_of_false (not_effectless_success _ _) id).trans
    exact or_iff_left id
  case futuresTrade => exact (contained_map_iff _).trans (effectless_futuresTrade_iff flags platform req)
  case queryUserStatus =>
    apply (contained_map_iff _).trans
    apply effectless_requireSession_iff
    exact fun present => effectless_bare_iff (fun _ => .getUserAccountStatus _) (fun _ => accountStatusUrl flags)
      (fun _ => ⟨.success,⟨5⟩⟩) _ _ _
  case tradeConfirmInfo =>
    apply (contained_map_iff _).trans
    apply effectless_requireSession_iff
    exact fun present => effectless_bare_iff (fun _ => .getFuturesQuoteFeeInfo _)
      (fun _ => FuturesConvert.toProtoQuoteFeeInfo platform) (fun _ => ⟨.success,⟨0,0,0,0⟩⟩) _ _ _
  case querySymbolTradeInfo =>
    apply (contained_map_iff _).trans
    apply effectless_requireSession_iff
    exact fun present => effectless_bare_iff (fun _ => .getFuturesQuoteFeeInfo _)
      (fun _ => symbolTradeInfo platform req.symbol) (fun _ => ⟨.success,⟨0,0,0,0⟩⟩) _ _ _
  all_goals
    apply (contained_map_iff _).trans
    apply effectless_requireSession_iff
    exact fun present => effectless_checkSession_iff _ _ _

theorem addHandle_iff (codec : Codec) (op : Operation) (inData : Bytes) :
    (∀ trace result, Run (op.addHandle flags platform codec inData) trace result →
      NoRpc trace ∧ ∃ handled, result = some handled ∧ Refuses handled.outProto) ↔
    Contained (op.handle flags platform (codec.parseFromString op inData).2) := by
  constructor
  · intro contained trace result run
    have handled := contained (trace ++ []) _ (Run.bind run (.ret _))
    rw [List.append_nil] at handled
    obtain ⟨quiet,handled,same,refuses⟩ := handled
    cases result with
    | none => cases same
    | some ret =>
      cases same
      exact ⟨quiet,ret,rfl,refuses⟩
  · intro contained trace result run
    obtain ⟨first,ret,_,handled,last,rfl⟩ := (Run.bind_iff _ _ _ _).mp run
    obtain ⟨rfl,rfl⟩ := (Run.pure_iff _ _ _).mp last
    obtain ⟨quiet,ret,rfl,refuses⟩ := contained first ret handled
    rw [List.append_nil]
    exact ⟨quiet,_,rfl,refuses⟩

/-- A body that does not parse is without effect exactly when the message that the parser
has filled is stopped by the operation's own checks. `AddHandle` never looks at the flag that
`ParseFromString` returns, so the same holds of the bodies that do parse. -/
theorem malformed_body (codec : Codec) (op : Operation) (inData : Bytes)
    (_malformed : (codec.parseFromString op inData).1 = false)
    (reads : platform.parseJson (ascii "[]") = some (.array [])) :
    (∀ trace result, Run (op.addHandle flags platform codec inData) trace result →
      NoRpc trace ∧ ∃ handled, result = some handled ∧ Refuses handled.outProto) ↔
    Inert flags platform op (codec.parseFromString op inData).2 :=
  (addHandle_iff flags platform codec op inData).trans (contained_handle_iff flags platform reads op _)

end

/-- The sample order on the wire, without the fields of its kind, which are required. -/
def strippedTrade : Bytes :=
  [0x0a,4] ++ ascii "1001" ++ [0x12,3] ++ ascii "HSI" ++ [0x1a,1] ++ ascii "1" ++ [0x20,1] ++ [0x2a,5] ++ ascii "25000" ++
    [0x32,44] ++ sampleTrade.signature ++ [0x3a,9,0x12,5] ++ ascii "token" ++ [0x18,7]

/-- The parser fails for want of the required fields, and has filled the others. -/
def strippedCodec : Codec where
  parseFromString
    | .futuresTrade, inData => (false,if inData = strippedTrade then sampleTrade else {})
    | op, _ => (false,op.emptyRequest)
  serializeToString _ _ := []

theorem malformed_body_stripped :
    (∀ trace result, Run (Operation.futuresTrade.addHandle {} .sample strippedCodec strippedTrade) trace result →
      NoRpc trace ∧ ∃ handled, result = some handled ∧ Refuses handled.outProto) ↔
    Inert {} .sample .futuresTrade (strippedCodec.parseFromString .futuresTrade strippedTrade).2 :=
  malformed_body {} .sample strippedCodec .futuresTrade strippedTrade rfl rfl

theorem stripped_trade_ordered :
    let run := (Operation.futuresTrade.addHandle {} .sample strippedCodec strippedTrade).play obliging []
    (strippedCodec.parseFromString .futuresTrade strippedTrade).1 = false ∧
    Run (Operation.futuresTrade.addHandle {} .sample strippedCodec strippedTrade) run.1 run.2 ∧
    ¬ NoRpc run.1 ∧ ¬ ∃ handled, run.2 = some handled ∧ Refuses handled.outProto := by
  intro run
  refine ⟨rfl,Run.play obliging _ [],by decide +kernel,?_⟩
  rintro ⟨handled,given,info,shown,other⟩
  have status : run.2.bind (fun handled => handled.outProto.statusInfo.map StatusInfo.statusNo) =
      some FuturesError.success.code := by decide +kernel
  rw [given,Option.bind_some,shown] at status
  exact other (Option.some.inj status)

end FuturesCellProxy.Proxy
