import FuturesCellProxy.Foundation.Interleaving
import FuturesCellProxy.Proxy.OperationRuns
import FuturesCellProxy.Proxy.RequestHandler
import Mathlib.Data.Int.Order.Basic

/-! The identifiers of requests and orders are readings of the clock and nothing else, so
they are unique as far as the clock goes on between the readings, in whichever thread
these are made. A thread serves one request after the other; what the threads do together
is an interleaving of the requests. -/
namespace FuturesCellProxy.Proxy
open Foundation Rpc FuturesProxy

def reading : Step → Option Int
  | ⟨.systemClock,now⟩ => some now
  | _ => none

theorem reading_ignores (event : Step) (pooling : event.query.isPooling) : reading event = none := by
  obtain ⟨query,answer⟩ := event
  cases query with
  | systemClock => cases pooling
  | _ => rfl

theorem reading_eq_some {event : Step} {now : Int} (read : reading event = some now) :
    event = ⟨.systemClock,now⟩ := by
  obtain ⟨query,answer⟩ := event
  cases query with
  | systemClock => rw [show answer = now from Option.some.inj read]
  | _ => cases read

def accessAt (now : Int) : AccessInfo := ⟨decimalInt now,accessName,.cellProxy⟩

theorem clockText_iff (trace : Trace) (text : Bytes) :
    Run clockText trace text ↔ ∃ now, trace = [⟨.systemClock,now⟩] ∧ text = decimalInt now := by
  simp only [clockText,ask,Run.bind_iff,Run.call_iff,Run.pure_iff]
  constructor
  · rintro ⟨_,now,_,rfl,⟨rfl,rfl⟩,rfl⟩
    exact ⟨now,rfl,rfl⟩
  · rintro ⟨now,rfl,rfl⟩
    exact ⟨_,now,_,rfl,⟨rfl,rfl⟩,rfl⟩

theorem generateUniqueID_iff (trace : Trace) (accessInfo : AccessInfo) :
    Run (generateUniqueID accessName .cellProxy) trace accessInfo ↔
      ∃ now, trace = [⟨.systemClock,now⟩] ∧ accessInfo = accessAt now := by
  simp only [generateUniqueID,Run.bind_iff,clockText_iff,Run.pure_iff]
  constructor
  · rintro ⟨_,_,_,⟨now,rfl,rfl⟩,⟨rfl,rfl⟩,rfl⟩
    exact ⟨now,rfl,rfl⟩
  · rintro ⟨now,rfl,rfl⟩
    exact ⟨_,_,_,⟨now,rfl,rfl⟩,⟨rfl,rfl⟩,rfl⟩

/-- What a call carries of the readings made before it: one for the request, and of an order
a second one. -/
def Stamped (readings : List Int) : TradeCall → Prop
  | .addOrder order => ∃ now later, readings = [now,later] ∧ order.accessInfo = accessAt now ∧
      order.clOrderId = decimalInt later
  | call => ∃ now, readings = [now] ∧ call.accessInfo = accessAt now

def StampedAll (past : List Int) (trace : Trace) : Prop :=
  ∀ before event after call, trace = before ++ event :: after → called event = some call →
    Stamped (past ++ before.filterMap reading) call.request

/-- In every run, each call carries the readings made before it, `past` among them. -/
def Draws {α : Type} (past : List Int) (program : Prog α) : Prop :=
  ∀ trace result, Run program trace result → StampedAll past trace

section
variable {α β : Type} {past : List Int} {program : Prog α} {next : α → Prog β}

theorem StampedAll.of_uncalled {trace : Trace} (uncalled : trace.filterMap called = []) : StampedAll past trace := by
  rintro before event after call rfl seen
  rw [List.filterMap_eq_nil_iff.mp uncalled event (by simp)] at seen
  cases seen

theorem StampedAll.append {first second : Trace} (uncalled : first.filterMap called = [])
    (stamped : StampedAll (past ++ first.filterMap reading) second) : StampedAll past (first ++ second) := by
  intro before event after call split seen
  rcases split_append split with ⟨rest,inside,_⟩ | ⟨rest,rfl,tail⟩
  · rw [List.filterMap_eq_nil_iff.mp uncalled event (by simp [inside])] at seen
    cases seen
  · rw [List.filterMap_append,← List.append_assoc]
    exact stamped rest event after call tail seen

theorem Draws.of_uncalled (uncalled : Silent called program) : Draws past program :=
  fun trace result run => .of_uncalled (uncalled trace result run)

theorem Draws.map {f : α → β} (draws : Draws past program) : Draws past (f <$> program) := by
  intro trace result run
  obtain ⟨value,run,_⟩ := (Run.map_iff _ _ _ _).mp run
  exact draws trace value run

theorem Draws.bind (uncalled : Silent called program) (unread : Silent reading program)
    (draws : ∀ value, Draws past (next value)) : Draws past (program >>= next) := by
  intro trace result run
  obtain ⟨first,value,second,head,tail,rfl⟩ := (Run.bind_iff _ _ _ _).mp run
  apply StampedAll.append (uncalled _ _ head)
  rw [unread _ _ head,List.append_nil]
  exact draws value second result tail

theorem Draws.clockText {next : Bytes → Prog β} (draws : ∀ now, Draws (past ++ [now]) (next (decimalInt now))) :
    Draws past (clockText >>= next) := by
  intro trace result run
  obtain ⟨_,_,second,head,tail,rfl⟩ := (Run.bind_iff _ _ _ _).mp run
  obtain ⟨now,rfl,rfl⟩ := (clockText_iff _ _).mp head
  exact .append rfl (draws now second result tail)

theorem Draws.generateUniqueID {next : AccessInfo → Prog β}
    (draws : ∀ now, Draws (past ++ [now]) (next (accessAt now))) :
    Draws past (generateUniqueID accessName .cellProxy >>= next) := by
  intro trace result run
  obtain ⟨_,_,second,head,tail,rfl⟩ := (Run.bind_iff _ _ _ _).mp run
  obtain ⟨now,rfl,rfl⟩ := (generateUniqueID_iff _ _).mp head
  exact .append rfl (draws now second result tail)

end

section
variable {Body : Type} {past : List Int} {flags : Flags}

theorem validateSession_unread (session : LoginSession) : Silent reading (validateSession flags session) := by
  apply Silent.bind (getClientPtr_silent reading_ignores .authen)
  intro client
  apply Silent.bind (AuthenServerWrapper.validateSession_silent reading_ignores flags (fun _ _ => rfl) _)
  rintro ⟨wrapper,thriftRet,rpcValided⟩
  cases rpcValided with
  | false => exact .pure _
  | true => exact Silent.bind (freeClientPtr_silent reading_ignores _ _ _) fun _ => .pure _

theorem validateSession_uncalled (session : LoginSession) : Silent called (validateSession flags session) := by
  intro trace result run
  obtain ⟨_,_,uncalled,_⟩ := validateSession_run run
  exact uncalled

theorem callTradeInfo_unread {bound : Nat} {request : TradeCall} {convert : request.Body → Body → Body}
    {error : FuturesError} {message : String} {resp : Return Body} :
    Silent reading (callTradeInfo (SPTradeInfoWrapper.callWithRetry bound request) convert error message resp) := by
  apply Silent.bind (getClientPtr_silent reading_ignores .spTradeInfo)
  intro client
  apply Silent.bind (SPTradeInfoWrapper.callWithRetry_silent reading_ignores (fun _ _ => rfl) _ _)
  rintro ⟨wrapper,answer⟩
  cases answer with
  | none => exact .pure _
  | some answer =>
    apply Silent.bind (freeClientPtr_silent reading_ignores _ _ _)
    intro freed
    split <;> exact .pure _

theorem Draws.callTradeInfo {bound : Nat} {request : TradeCall} {convert : request.Body → Body → Body}
    {error : FuturesError} {message : String} {resp : Return Body} (stamped : Stamped past request) :
    Draws past (callTradeInfo (SPTradeInfoWrapper.callWithRetry bound request) convert error message resp) := by
  rintro trace result run before event after call rfl seen
  have unread := callTradeInfo_unread _ _ run
  rw [List.filterMap_append,List.append_eq_nil_iff] at unread
  have shown : call ∈ (before ++ event :: after).filterMap called := List.mem_filterMap.mpr ⟨event,by simp,seen⟩
  obtain ⟨_,attempted,_,_⟩ := callTradeInfo_run run
  obtain ⟨outcome,rfl⟩ := attempted.mem shown
  rw [unread.1,List.append_nil]
  exact stamped

theorem Draws.requireSession {session : Option LoginSession} {refused : Return Body}
    {operation : LoginSession → Prog (Return Body)} (draws : ∀ present, Draws past (operation present)) :
    Draws past (requireSession session refused operation) := by
  cases session with
  | none => exact .of_uncalled (.pure _)
  | some present => exact draws present

theorem Draws.checkSession {session : LoginSession} {resp : Return Body} {operation : Prog (Return Body)}
    (draws : Draws past operation) : Draws past (checkSession flags session resp operation) := by
  apply Draws.bind (validateSession_uncalled session) (validateSession_unread session)
  intro thriftRet
  split
  · exact .of_uncalled (.pure _)
  · exact draws

end

section
variable (flags : Flags) (platform : Platform)

theorem futuresTrade_draws (req : FuturesTradeRequest) : Draws [] (futuresTrade flags platform req) := by
  apply Draws.requireSession
  intro session
  split
  · exact .of_uncalled (.pure _)
  apply Draws.checkSession
  apply Draws.generateUniqueID
  intro now
  apply Draws.clockText
  intro later
  exact .callTradeInfo ⟨now,later,rfl,rfl,rfl⟩

theorem handle_draws (op : Operation) (req : op.Request) : Draws [] (op.handle flags platform req) := by
  cases op
  case querySymbolByName => exact .of_uncalled (querySymbolByName_silent called_ignores flags platform req)
  case symbolTypeRecommend | symbolListByType | queryFifthOrder | querySymbolQuotations | futuresGraph | futuresKLine =>
    exact Draws.map (.of_uncalled (.pure _))
  case queryFuturesAccountConfig => exact Draws.map (.requireSession fun _ => .of_uncalled (.pure _))
  case futuresTrade => exact Draws.map (futuresTrade_draws flags platform req)
  case queryUserStatus | tradeConfirmInfo | querySymbolTradeInfo =>
    exact Draws.map (.requireSession fun _ => .generateUniqueID fun now => .callTradeInfo ⟨now,rfl,rfl⟩)
  all_goals
    apply Draws.map
    apply Draws.requireSession
    intro session
    apply Draws.checkSession
    apply Draws.generateUniqueID
    intro now
    exact .callTradeInfo ⟨now,rfl,rfl⟩

/-- A request as it reaches the handlers. -/
structure Incoming where
  reqPath : Bytes
  req : Server.Request
  rep : Server.Reply

def Incoming.serve (codec : Codec) (incoming : Incoming) : Prog (Option Server.Reply) :=
  proccessReq flags platform codec incoming.reqPath incoming.req incoming.rep

theorem serve_draws (codec : Codec) (incoming : Incoming) : Draws [] (incoming.serve flags platform codec) := by
  rw [Incoming.serve,proccessReq]
  cases (Server.findHandle Operation.registered incoming.req incoming.reqPath).bind Operation.find with
  | none => exact .of_uncalled (.pure _)
  | some op => exact Draws.map (Draws.map (handle_draws flags platform op _))

end

instance (query : Query) : Inhabited query.Answer := ⟨obliging [] query⟩

def Produces (trace : Trace) (accessInfo : AccessInfo) : Prop :=
  ∃ before unique after, trace = before ++ unique ++ after ∧ before.filterMap reading = [] ∧
    Run (generateUniqueID accessName .cellProxy) unique accessInfo

def Transmits (trace : Trace) (order : AddOrderReq) : Prop :=
  ∃ call ∈ trace.filterMap called, call.request = .addOrder order

instance (trace : Trace) (order : AddOrderReq) : Decidable (Transmits trace order) :=
  inferInstanceAs (Decidable (∃ call ∈ trace.filterMap called, call.request = .addOrder order))

theorem produces_iff (trace : Trace) (accessInfo : AccessInfo) :
    Produces trace accessInfo ↔ ∃ now, (trace.filterMap reading)[0]? = some now ∧ accessInfo = accessAt now := by
  constructor
  · rintro ⟨before,unique,after,rfl,unread,run⟩
    obtain ⟨now,rfl,rfl⟩ := (generateUniqueID_iff _ _).mp run
    exact ⟨now,by simp [unread,reading],rfl⟩
  · rintro ⟨now,first,rfl⟩
    obtain ⟨rest,split⟩ := List.head?_eq_some_iff.mp (List.head?_eq_getElem? ▸ first)
    obtain ⟨before,event,after,rfl,unread,read,_⟩ := List.filterMap_eq_cons_iff.mp split
    obtain rfl := reading_eq_some read
    exact ⟨before,[⟨.systemClock,now⟩],after,by simp,List.filterMap_eq_nil_iff.mpr unread,
      (generateUniqueID_iff _ _).mpr ⟨now,rfl,rfl⟩⟩

section
variable {past : List Int} {trace : Trace} {order : AddOrderReq}

/-- Every call that is transmitted is in the name of what `GenerateUniqueID` has produced. -/
theorem StampedAll.produces {call : Called} (stamped : StampedAll [] trace) (calls : call ∈ trace.filterMap called) :
    Produces trace call.request.accessInfo := by
  obtain ⟨event,member,seen⟩ := List.mem_filterMap.mp calls
  obtain ⟨before,after,rfl⟩ := List.append_of_mem member
  have carried := stamped before event after call rfl seen
  rw [List.nil_append] at carried
  rw [produces_iff,List.filterMap_append]
  obtain ⟨request,answer⟩ := call
  cases request with
  | addOrder order =>
    obtain ⟨now,later,readings,accessInfo,_⟩ := carried
    exact ⟨now,by simp [readings],accessInfo⟩
  | _ =>
    obtain ⟨now,readings,accessInfo⟩ := carried
    exact ⟨now,by simp [readings],accessInfo⟩

theorem StampedAll.transmits (stamped : StampedAll [] trace) (transmits : Transmits trace order) :
    ∃ later, (trace.filterMap reading)[1]? = some later ∧ order.clOrderId = decimalInt later := by
  obtain ⟨⟨_,answer⟩,calls,rfl⟩ := transmits
  obtain ⟨event,member,seen⟩ := List.mem_filterMap.mp calls
  obtain ⟨before,after,rfl⟩ := List.append_of_mem member
  obtain ⟨now,later,readings,_,clOrderId⟩ := stamped before event after _ rfl seen
  rw [List.nil_append] at readings
  exact ⟨later,by simp [List.filterMap_append,readings],clOrderId⟩

theorem StampedAll.of_append {rest : Trace} (stamped : StampedAll past (trace ++ rest)) : StampedAll past trace := by
  rintro before event after call rfl seen
  exact stamped before event (after ++ rest) call (by simp) seen

end

section
variable {ι : Type} [DecidableEq ι]

abbrev History (ι : Type) := List (ι × Step)

def RequestIdsDistinct (history : History ι) : Prop :=
  ∀ i j accessInfo accessInfo', i ≠ j → Produces (own i history) accessInfo →
    Produces (own j history) accessInfo' → accessInfo.requestId ≠ accessInfo'.requestId

def ClOrderIdsDistinct (history : History ι) : Prop :=
  ∀ i j order order', i ≠ j → Transmits (own i history) order → Transmits (own j history) order' →
    order.clOrderId ≠ order'.clOrderId

def Transmitting (history : History ι) (i : ι) : Prop := ∃ order, Transmits (own i history) order

theorem requestIdsDistinct_iff (history : History ι) :
    RequestIdsDistinct history ↔ Apart reading 0 (fun _ => True) history := by
  constructor
  · intro distinct i j now later other _ _ first first' same
    apply distinct i j (accessAt now) (accessAt later) other
    · exact (produces_iff _ _).mpr ⟨now,first,rfl⟩
    · exact (produces_iff _ _).mpr ⟨later,first',rfl⟩
    · rw [same]
  · intro apart i j accessInfo accessInfo' other produces produces' same
    obtain ⟨now,first,rfl⟩ := (produces_iff _ _).mp produces
    obtain ⟨later,first',rfl⟩ := (produces_iff _ _).mp produces'
    exact apart i j now later other trivial trivial first first' (decimalInt_injective same)

theorem clOrderIdsDistinct_iff {history : History ι} (stamped : ∀ i, StampedAll [] (own i history)) :
    ClOrderIdsDistinct history ↔ Apart reading 1 (Transmitting history) history := by
  constructor
  · rintro distinct i j now later other ⟨order,transmits⟩ ⟨order',transmits'⟩ second second' same
    obtain ⟨_,read,clOrderId⟩ := (stamped i).transmits transmits
    obtain ⟨_,read',clOrderId'⟩ := (stamped j).transmits transmits'
    obtain rfl := Option.some.inj (second.symm.trans read)
    obtain rfl := Option.some.inj (second'.symm.trans read')
    exact distinct i j order order' other transmits transmits' (by rw [clOrderId,clOrderId',same])
  · intro apart i j order order' other transmits transmits' same
    obtain ⟨now,second,clOrderId⟩ := (stamped i).transmits transmits
    obtain ⟨later,second',clOrderId'⟩ := (stamped j).transmits transmits'
    apply apart i j now later other ⟨order,transmits⟩ ⟨order',transmits'⟩ second second'
    exact decimalInt_injective (by rw [← clOrderId,← clOrderId',same])

variable (flags : Flags) (platform : Platform) (codec : Codec)

/-- The requests that are served side by side, each with what it still has to do. -/
def serveAll (requests : ι → Incoming) (i : ι) : Prog (Option Server.Reply) :=
  (requests i).serve flags platform codec

variable {requests : ι → Incoming} {history : History ι} {after : ι → Prog (Option Server.Reply)}

theorem own_stamped (taken : follow interleave (serveAll flags platform codec requests) history = some after) (i : ι) :
    StampedAll [] (own i history) := by
  obtain ⟨rest,reply,run⟩ := own_run_prefix taken i
  exact .of_append (serve_draws flags platform codec (requests i) _ reply run)

/-- However requests interleave, and whatever clock that never goes back they read, the
identifiers are distinct exactly when the clock goes on between the readings that make
identifiers of one kind. -/
theorem unique_ids_iff (requests : ι → Incoming) (history : History ι) (after : ι → Prog (Option Server.Reply))
    (taken : follow interleave (serveAll flags platform codec requests) history = some after)
    (forward : (history.filterMap fun entry => reading entry.2).Pairwise (· ≤ ·)) :
    RequestIdsDistinct history ∧ ClOrderIdsDistinct history ↔
      Rises reading 0 (fun _ => True) history ∧ Rises reading 1 (Transmitting history) history := by
  apply and_congr
  · rw [requestIdsDistinct_iff,rises_iff_apart forward]
  · rw [clOrderIdsDistinct_iff (own_stamped flags platform codec taken),rises_iff_apart forward]

end

/-- A codec for the one order, whatever is sent. -/
def tradeCodec : Codec where
  parseFromString
    | .futuresTrade, _ => (true,sampleTrade)
    | op, _ => (true,op.emptyRequest)
  serializeToString _ _ := []

def incomingTrade : Incoming := ⟨ascii "FuturesTrade",Server.Request.reset,{status := .ok}⟩

def tickOrder (now : Int) : AddOrderReq :=
  addOrderReq .sample sampleTrade ⟨ascii "token",7⟩ (accessAt now) (decimalInt (now + 1))

/-- A thread that trades with clients of its own, and reads the clock twice. -/
def tradeTrace (address : Nat) (now : Int) : Trace :=
  let client := ⟨address,{mIsInited := true,mTransport := some 0,mClient := some 0,made := 1}⟩
  [⟨.getClient .authen,none⟩,⟨.newClient .authen,address⟩,⟨.openTransport .authen 0,true⟩,
    ⟨.validateSession (some 0) ⟨ascii "token",7⟩,some .success⟩,⟨.freeClient .authen client true,()⟩,
    ⟨.systemClock,now⟩,⟨.systemClock,now + 1⟩,
    ⟨.getClient .spTradeInfo,none⟩,⟨.newClient .spTradeInfo,address⟩,⟨.openTransport .spTradeInfo 0,true⟩,
    ⟨.tradeCall (some 0) (.addOrder (tickOrder now)),some ⟨.success,()⟩⟩,⟨.freeClient .spTradeInfo client true,()⟩]

/-- Two threads that take turns. -/
def byTurns (first second : Trace) : History Bool :=
  (List.zipWith (fun event event' => [(false,event),(true,event')]) first second).flatten

def twoTicks : History Bool := byTurns (tradeTrace 1 1488787200000000000) (tradeTrace 2 1488787200000000001)

theorem unique_ids_two :
    ∃ after, follow interleave (serveAll {} .sample tradeCodec fun _ => incomingTrade) twoTicks = some after ∧
      (RequestIdsDistinct twoTicks ∧ ClOrderIdsDistinct twoTicks ↔
        Rises reading 0 (fun _ => True) twoTicks ∧ Rises reading 1 (Transmitting twoTicks) twoTicks) := by
  obtain ⟨after,taken⟩ := Option.isSome_iff_exists.mp (show (follow interleave
    (serveAll {} .sample tradeCodec fun _ => incomingTrade) twoTicks).isSome by decide +kernel)
  exact ⟨after,taken,unique_ids_iff {} .sample tradeCodec _ twoTicks after taken (by decide +kernel)⟩

/-- Each time both threads read the clock within one tick. -/
def oneTick : History Bool := byTurns (tradeTrace 1 1488787200000000000) (tradeTrace 2 1488787200000000000)

theorem ids_repeat :
    (∃ after, follow interleave (serveAll {} .sample tradeCodec fun _ => incomingTrade) oneTick = some after) ∧
    (oneTick.filterMap fun entry => reading entry.2).Pairwise (· ≤ ·) ∧
    ¬ RequestIdsDistinct oneTick ∧ ¬ ClOrderIdsDistinct oneTick := by
  refine ⟨Option.isSome_iff_exists.mp (by decide +kernel),by decide +kernel,?_,?_⟩
  · rw [requestIdsDistinct_iff]
    intro apart
    exact apart false true 1488787200000000000 1488787200000000000 (by decide) trivial trivial (by decide +kernel)
      (by decide +kernel) rfl
  · intro distinct
    exact distinct false true (tickOrder 1488787200000000000) (tickOrder 1488787200000000000) (by decide)
      (by decide +kernel) (by decide +kernel) rfl

end FuturesCellProxy.Proxy
