import FuturesCellProxy.Proxy.Concurrency
import FuturesCellProxy.Proxy.HttpSearch
import FuturesCellProxy.Proxy.Serving
import FuturesCellProxy.Rpc.Succession

/-! The process: connections side by side, each with the operations that are called on it one
after the other, on the two pools that all share. An exception that leaves an operation ends
the process. -/
namespace FuturesCellProxy.Proxy
open Foundation Rpc Server

section
variable (flags : Flags) (platform : Platform) (codec : Codec)

/-- What is done for the arrivals, and where each of them is done with. -/
def conversation (conn : Connection) :
    List Arrival → Succession (Option (Connection × List Reply)) (Option (Connection × List Reply))
  | [] => .ended (some (conn,[]))
  | arrival :: rest => .going (arrive flags platform codec conn arrival) fun
    | none => .ended none
    | some (conn,replies) =>
      (conversation conn rest).map fun served => served.map fun served => (served.1,replies ++ served.2)

theorem whole_conversation (conn : Connection) (arrivals : List Arrival) :
    (conversation flags platform codec conn arrivals).whole = session flags platform codec conn arrivals := by
  induction arrivals generalizing conn with
  | nil => rfl
  | cons arrival rest ih =>
    rw [conversation,Series.whole,session]
    refine congrArg (Program.bind _) (funext fun served => ?_)
    cases served with
    | none => rfl
    | some served =>
      dsimp only
      rw [Series.whole_map,ih]
      rfl

/-- A request that a read completes, as it reaches the handlers. -/
def Calls (conn : Connection) (arrival : Arrival) (incoming : Incoming) : Prop :=
  ∃ bytes served, arrival = .read bytes ∧ conn.pending = .read ∧ conn.receive bytes = (.complete,served) ∧
    urlDecode served.request.uri = some incoming.reqPath ∧ incoming.req = served.request

/-- An arrival asks nothing, or what the request that it completes asks. -/
theorem arrive_cases (conn : Connection) (arrival : Arrival) :
    (∃ served, arrive flags platform codec conn arrival = .ret (some served)) ∨
      ∃ incoming reply, Calls conn arrival incoming ∧
        arrive flags platform codec conn arrival = Option.map reply <$> incoming.serve flags platform codec := by
  cases arrival with
  | written | error => exact .inl ⟨_,rfl⟩
  | read bytes =>
    rw [arrive]
    split
    next pending =>
      rw [handleRead]
      split
      next served received =>
        rw [serveRequest,handleRequest]
        dsimp only
        split
        next => exact .inl ⟨_,rfl⟩
        next path decoded =>
          exact .inr ⟨⟨path,served.request,served.reply⟩,_,⟨bytes,served,rfl,pending,received,decoded,rfl⟩,rfl⟩
      next => exact .inl ⟨_,rfl⟩
      next => exact .inl ⟨_,rfl⟩
    next => exact .inl ⟨_,rfl⟩

theorem arrive_givesBack (conn : Connection) (arrival : Arrival) :
    GivesBack (arrive flags platform codec conn arrival) := by
  rcases arrive_cases flags platform codec conn arrival with ⟨served,quiet⟩ | ⟨incoming,reply,_,serves⟩
  · rw [quiet]
    exact trivial
  · rw [serves]
    exact Keeps.map (serve_givesBack flags platform codec incoming)

theorem conversation_giveBack (conn : Connection) (arrivals : List Arrival) :
    GiveBack (conversation flags platform codec conn arrivals) .nothing := by
  induction arrivals generalizing conn with
  | nil => exact trivial
  | cons arrival rest ih =>
    refine ⟨arrive_givesBack flags platform codec conn arrival,fun served => ?_⟩
    cases served with
    | none => exact trivial
    | some served => exact (ih served.1).map _

/-- The most that one operation asks. -/
def mostEvents : Nat := calls flags.mRetryTimes + (2 + calls (max flags.mRetryTimes flags.rpcCallTimes))

theorem events_le (incoming : Incoming) : incoming.events flags ≤ mostEvents flags := by
  rw [Incoming.events]
  cases incoming.operation with
  | none => exact Nat.zero_le _
  | some op => cases op <;> simp only [Option.elim,Operation.events,mostEvents,calls] <;> omega

theorem session_within (conn : Connection) (arrivals : List Arrival) :
    Within (session flags platform codec conn arrivals) (arrivals.length * mostEvents flags) := by
  induction arrivals generalizing conn with
  | nil => exact Within.pure _ _
  | cons arrival rest ih =>
    have first : Within (arrive flags platform codec conn arrival) (mostEvents flags) := by
      rcases arrive_cases flags platform codec conn arrival with ⟨served,quiet⟩ | ⟨incoming,reply,_,serves⟩
      · rw [quiet]
        exact Within.pure _ _
      · rw [serves]
        exact ((serve_within flags platform codec incoming).mono (events_le flags incoming)).map _
    rw [session]
    apply Within.bind (rest.length * mostEvents flags) (by rw [List.length_cons,Nat.succ_mul,Nat.add_comm]) first
    intro served
    cases served with
    | none => exact Within.pure _ _
    | some served => exact Within.bind 0 rfl (ih served.1) fun _ => Within.pure _ 0

end

/-- A transfer from the search server has succeeded. -/
def Searched (trace : Trace) : Prop := ∃ url transfer, ⟨.curlPerform url,transfer⟩ ∈ trace ∧ transfer.code = curleOk

section
variable {flags : Flags} {platform : Platform} {codec : Codec}

theorem Searched.mono {trace more : Trace} (searched : Searched trace) (within : trace ⊆ more) : Searched more := by
  obtain ⟨url,transfer,member,code⟩ := searched
  exact ⟨url,transfer,within member,code⟩

theorem performUntilOk_searched {url strRst : Bytes} {tryNums res : Nat} {trace : Trace} {result : Nat × Bytes}
    (run : Run (performUntilOk url tryNums res strRst) trace result) (ok : result.1 = curleOk)
    (tries : 0 < tryNums ∨ res ≠ curleOk) : Searched trace := by
  induction tryNums generalizing res strRst trace with
  | zero =>
    obtain ⟨rfl,rfl⟩ := (Run.pure_iff _ _ _).mp run
    exact absurd ok (tries.resolve_left (Nat.lt_irrefl 0))
  | succ tryNums ih =>
    obtain ⟨first,transfer,rest,asked,later,rfl⟩ := (Run.bind_iff _ _ _ _).mp run
    obtain rfl := (Run.call_iff _ _ _).mp asked
    by_cases completed : transfer.code = curleOk
    · exact ⟨url,transfer,by simp,completed⟩
    · rw [if_neg completed] at later
      exact (ih later (.inr completed)).mono (List.subset_append_right _ _)

theorem querySymbolByName_searched {req : QuerySymbolByNameRequest} {trace : Trace}
    (run : Run (FuturesProxy.querySymbolByName flags platform req) trace none) : Searched trace := by
  obtain ⟨fetching,⟨ret,retOut⟩,rest,fetch,later,rfl⟩ := (Run.bind_iff _ _ _ _).mp run
  dsimp only at later
  split at later
  next => cases ((Run.pure_iff _ _ _).mp later).2
  next ok =>
    rcases fnDoCurl_cases fetch with ⟨_,failed⟩ | ⟨performed,asked,rfl,_,loop⟩
    · cases failed
      exact absurd (by decide) ok
    · have searched := performUntilOk_searched loop (not_not.mp ok) (.inl Nat.two_pos)
      exact searched.mono fun event member => by simp [member]

theorem serve_searched {incoming : Incoming} {trace : Trace}
    (run : Run (incoming.serve flags platform codec) trace none) : Searched trace := by
  obtain ⟨op,req,_,run⟩ := serve_raises flags platform codec run
  obtain rfl := handle_throws flags platform run
  exact querySymbolByName_searched run

/-- A conversation ends in an exception only upon an answer of the search server. -/
theorem session_searched {conn : Connection} {arrivals : List Arrival} {trace : Trace}
    (run : Run (session flags platform codec conn arrivals) trace none) : Searched trace := by
  induction arrivals generalizing conn trace with
  | nil => cases ((Run.pure_iff _ _ _).mp run).2
  | cons arrival rest ih =>
    obtain ⟨first,served,second,head,tail,rfl⟩ := (Run.bind_iff _ _ _ _).mp run
    cases served with
    | none =>
      refine Searched.mono ?_ (List.subset_append_left _ _)
      rcases arrive_cases flags platform codec conn arrival with ⟨served,quiet⟩ | ⟨incoming,reply,_,serves⟩
      · rw [quiet] at head
        cases ((Run.ret_iff _ _ _).mp head).2
      · rw [serves] at head
        obtain ⟨replied,head,absent⟩ := (Run.map_iff _ _ _ _).mp head
        obtain rfl := Option.map_eq_none_iff.mp absent.symm
        exact serve_searched head
    | some served =>
      obtain ⟨last,after,_,behind,ends,rfl⟩ := (Run.bind_iff _ _ _ _).mp tail
      obtain ⟨rfl,absent⟩ := (Run.pure_iff _ _ _).mp ends
      obtain rfl := Option.map_eq_none_iff.mp absent.symm
      rw [List.append_nil]
      exact (ih behind).mono (List.subset_append_right _ _)

end

end FuturesCellProxy.Proxy
