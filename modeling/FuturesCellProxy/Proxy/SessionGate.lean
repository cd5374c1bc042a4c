import FuturesCellProxy.Proxy.OperationRuns
import FuturesCellProxy.Proxy.RequestHandler

/-! The trading service is called in the name of a user only after that user's session has
been validated, except by the three operations that do without the validation. -/
namespace FuturesCellProxy.Proxy
open Foundation Rpc FuturesProxy

def Carries (uid : Int) (event : Step) : Prop := ∃ call ∈ called event, call.request.userId = uid

/-- Every trading call comes after a successful validation of the session for its user. -/
def SessionGated (sessionStr : Bytes) (trace : Trace) : Prop :=
  ∀ uid, Guarded (Validates ⟨sessionStr,uid⟩) (Carries uid) trace

def Gates {α : Type} (sessionStr : Bytes) (program : Prog α) : Prop :=
  ∀ trace result, Run program trace result → SessionGated sessionStr trace

section
variable {Body : Type}

theorem sessionGated_of_uncalled {trace : Trace} (sessionStr : Bytes) (uncalled : trace.filterMap called = []) :
    SessionGated sessionStr trace := by
  intro uid
  apply Guarded.of_absent
  rintro event member ⟨call,seen,_⟩
  rw [List.filterMap_eq_nil_iff.mp uncalled event member] at seen
  cases seen

theorem not_sessionGated {trace : Trace} {call : Called} (sessionStr : Bytes) (calls : call ∈ trace.filterMap called)
    (unvalidated : trace.filterMap validated = []) : ¬ SessionGated sessionStr trace := by
  intro gated
  obtain ⟨event,member,seen⟩ := List.mem_filterMap.mp calls
  obtain ⟨before,after,rfl⟩ := List.append_of_mem member
  obtain ⟨earlier,inside,validates⟩ := gated call.request.userId before event after rfl ⟨call,seen,rfl⟩
  have none := List.filterMap_eq_nil_iff.mp unvalidated earlier (List.mem_append_left _ inside)
  rw [Validates,none] at validates
  cases validates

theorem Gates.of_silent {α : Type} {program : Prog α} (sessionStr : Bytes) (quiet : Silent called program) :
    Gates sessionStr program :=
  fun trace result run => sessionGated_of_uncalled sessionStr (quiet trace result run)

@[simp] theorem gates_map {α β : Type} (sessionStr : Bytes) (program : Prog α) (f : α → β) :
    Gates sessionStr (f <$> program) ↔ Gates sessionStr program := by
  constructor
  · intro gates trace value run
    exact gates trace _ ((Run.map_iff _ _ _ _).mpr ⟨value,run,rfl⟩)
  · intro gates trace result run
    obtain ⟨value,run,_⟩ := (Run.map_iff _ _ _ _).mp run
    exact gates trace value run

theorem Gates.requireSession {session : Option LoginSession} {refused : Return Body}
    {operation : LoginSession → Prog (Return Body)}
    (gates : ∀ present, session = some present → Gates present.sessionStr (operation present)) :
    Gates (session.getD {}).sessionStr (requireSession session refused operation) := by
  intro trace result run
  rcases requireSession_run run with ⟨_,rfl,_⟩ | ⟨present,rfl,run⟩
  · exact sessionGated_of_uncalled _ rfl
  · exact gates present rfl trace result run

theorem Gates.checkSession {flags : Flags} {session : LoginSession} {resp : Return Body}
    {operation : Prog (Return Body)} (inName : Shows called (fun call => call.request.userId = session.uid) operation) :
    Gates session.sessionStr (checkSession flags session resp operation) := by
  intro trace result run
  obtain ⟨answer,first,second,rfl,attempted,uncalled,outcome⟩ := checkSession_run run
  rcases outcome with ⟨_,rfl,_⟩ | ⟨rfl,run⟩
  · apply sessionGated_of_uncalled
    rw [List.append_nil,uncalled]
  intro uid
  by_cases own : uid = session.uid
  · subst own
    apply Guarded.append_of_guard
    · rintro event member ⟨call,seen,_⟩
      rw [List.filterMap_eq_nil_iff.mp uncalled event member] at seen
      cases seen
    · exact validates_of_attempted attempted
  · apply Guarded.of_absent
    rintro event member ⟨call,seen,user⟩
    have shown : call ∈ (first ++ second).filterMap called := List.mem_filterMap.mpr ⟨event,member,seen⟩
    rw [List.filterMap_append,uncalled,List.nil_append] at shown
    exact own (user ▸ inName second result run call shown)

theorem callTradeInfo_inName {uid : Int} {bound : Nat} {request : TradeCall} {convert : request.Body → Body → Body}
    {error : FuturesError} {message : String} {resp : Return Body} (user : request.userId = uid) :
    Shows called (fun call => call.request.userId = uid)
      (callTradeInfo (SPTradeInfoWrapper.callWithRetry bound request) convert error message resp) :=
  callTradeInfo_shows fun _ => user

theorem clocked_inName {uid : Int} {operation : AccessInfo → Prog (Return Body)}
    (inName : ∀ accessInfo, Shows called (fun call => call.request.userId = uid) (operation accessInfo)) :
    Shows called (fun call => call.request.userId = uid)
      (generateUniqueID accessName .cellProxy >>= operation) :=
  Shows.bind ((generateUniqueID_silent called_ignores _ _).shows _) inName

/-- An operation without the validation is gated only if it comes to no call. -/
theorem bare_gates_iff {flags : Flags} {session : Option LoginSession} {refused resp : Return Body}
    (request : LoginSession → AccessInfo → TradeCall)
    (convert : ∀ present accessInfo, (request present accessInfo).Body → Body → Body)
    (answer : ∀ present accessInfo, Response (request present accessInfo).Body)
    (error : FuturesError) (message : String) (sessionStr : Bytes) :
    Gates sessionStr (FuturesProxy.requireSession session refused fun present => do
        let accessInfo ← generateUniqueID accessName .cellProxy
        callTradeInfo (SPTradeInfoWrapper.callWithRetry flags.mRetryTimes (request present accessInfo))
          (convert present accessInfo) error message resp) ↔
      session = none ∨ flags.mRetryTimes = 0 := by
  constructor
  · intro gates
    by_contra covered
    obtain ⟨given,tries⟩ := not_or.mp covered
    obtain ⟨present,rfl⟩ := Option.ne_none_iff_exists'.mp given
    obtain ⟨accessInfo,trace,run,calls⟩ := uniqueCall_reaches tries (request present) (convert present) error message
      resp (answer present)
    obtain ⟨_,_,_,unvalidated,_⟩ := uniqueCall_run run
    exact not_sessionGated sessionStr (calls ▸ List.mem_cons_self) unvalidated (gates _ _ run)
  · rintro covered trace result run
    rcases requireSession_run run with ⟨_,rfl,_⟩ | ⟨present,rfl,run⟩
    · exact sessionGated_of_uncalled _ rfl
    obtain ⟨_,_,attempted,_,_⟩ := uniqueCall_run run
    have none_left := attempted.length_le
    rcases covered with absent | idle
    · cases absent
    · rw [idle,Nat.le_zero,List.length_eq_zero_iff] at none_left
      exact sessionGated_of_uncalled sessionStr none_left

end

theorem queryUserStatus_gates_iff (flags : Flags) (sessionStr : Bytes) (req : QueryUserStatusRequest) :
    Gates sessionStr (queryUserStatus flags req) ↔ req.loginSession = none ∨ flags.mRetryTimes = 0 :=
  bare_gates_iff (fun _ _ => .getUserAccountStatus _) (fun _ _ => accountStatusUrl flags)
    (fun _ _ => ⟨.success,⟨5⟩⟩) _ _ _

def Operation.sessionStr (op : Operation) (req : op.Request) : Bytes := ((op.session req).getD {}).sessionStr

/-- The operations that call the trading service without a validation. -/
def Operation.bare : List Operation := [.queryUserStatus,.tradeConfirmInfo,.querySymbolTradeInfo]

section
variable (flags : Flags) (platform : Platform)

theorem gates_of_not_bare (op : Operation) (req : op.Request) (other : op ∉ Operation.bare) :
    Gates (op.sessionStr req) (op.handle flags platform req) := by
  cases op
  case queryUserStatus | tradeConfirmInfo | querySymbolTradeInfo => simp [Operation.bare] at other
  case querySymbolByName => exact .of_silent _ (querySymbolByName_silent called_ignores flags platform req)
  case symbolTypeRecommend | symbolListByType | queryFifthOrder | querySymbolQuotations | futuresGraph | futuresKLine =>
    exact (gates_map _ _ _).mpr (.of_silent _ (.pure _))
  case queryFuturesAccountConfig =>
    exact (gates_map _ _ _).mpr (.requireSession fun _ _ => .of_silent _ (.pure _))
  case futuresTrade =>
    apply (gates_map _ _ _).mpr
    apply Gates.requireSession
    intro present _
    split
    · exact .of_silent _ (.pure _)
    apply Gates.checkSession
    apply clocked_inName
    intro accessInfo
    exact Shows.bind ((clockText_silent called_ignores).shows _) fun _ => callTradeInfo_inName rfl
  all_goals
    apply (gates_map _ _ _).mpr
    apply Gates.requireSession
    intro present _
    apply Gates.checkSession
    apply clocked_inName
    intro accessInfo
    exact callTradeInfo_inName rfl

/-- In every run, trading calls in the name of a user come after a successful validation of
the session for that user, exactly when the operation is not one of three, the request
has no session, or no attempt is allowed. -/
theorem session_gate (op : Operation) (req : op.Request) :
    Gates (op.sessionStr req) (op.handle flags platform req) ↔
      op ∉ Operation.bare ∨ op.session req = none ∨ flags.mRetryTimes = 0 := by
  by_cases other : op ∉ Operation.bare
  · exact iff_of_true (gates_of_not_bare flags platform op req other) (.inl other)
  rw [or_iff_right other]
  have listed : op ∈ Operation.bare := not_not.mp other
  simp only [Operation.bare,List.mem_cons,List.not_mem_nil,or_false] at listed
  obtain rfl | rfl | rfl := listed
  · exact (gates_map _ _ _).trans (queryUserStatus_gates_iff flags _ req)
  · exact (gates_map _ _ _).trans (bare_gates_iff (fun _ _ => .getFuturesQuoteFeeInfo _)
      (fun _ _ => FuturesConvert.toProtoQuoteFeeInfo platform) (fun _ _ => ⟨.success,⟨0,0,0,0⟩⟩) _ _ _)
  · exact (gates_map _ _ _).trans (bare_gates_iff (fun _ _ => .getFuturesQuoteFeeInfo _)
      (fun _ _ => symbolTradeInfo platform req.symbol) (fun _ _ => ⟨.success,⟨0,0,0,0⟩⟩) _ _ _)

end

def strayUser : QueryUserStatusRequest := {loginSession := some ⟨ascii "stolen",7⟩}

theorem userStatus_not_gated :
    ¬ Gates (ascii "stolen") (Operation.queryUserStatus.handle {} .sample strayUser) := by
  intro gates
  rcases (queryUserStatus_gates_iff {} _ strayUser).mp ((gates_map _ _ some).mp gates) with absent | idle
  · cases absent
  · cases idle

end FuturesCellProxy.Proxy
