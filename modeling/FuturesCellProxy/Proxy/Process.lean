import FuturesCellProxy.Proxy.Connections

/-! Any number of connections in one process. What they share are the pools, and an exception in
one of them, which is the end of all. -/
namespace FuturesCellProxy.Proxy
open Foundation Rpc Server

abbrev Conversation := Succession (Option (Connection × List Reply)) (Option (Connection × List Reply))

structure Process (ι : Type) where
  conversations : ι → Conversation
  pools : Pools ι := {}
  terminated : Bool := false

namespace Process

/-- Nothing above the operations catches an exception. -/
def threw : Conversation → Bool
  | .ended none => true
  | _ => false

theorem threw_iff (conversation : Conversation) : threw conversation = true ↔ conversation = .ended none := by
  constructor
  · intro threw
    unfold Process.threw at threw
    split at threw
    next => rfl
    next => cases threw
  · rintro rfl
    rfl

section
variable {ι : Type} (flags : Flags) (platform : Platform) (codec : Codec)

def start (connections : ι → Connection) (arrivals : ι → List Arrival) : Process ι where
  conversations i := (conversation flags platform codec (connections i) (arrivals i)).settle

variable [DecidableEq ι]

/-- One event of one connection, as long as the process is there. -/
def step (process : Process ι) (entry : ι × Step) : Option (Process ι) :=
  if process.terminated then none
  else (serveNext (process.conversations,process.pools) entry).map fun (conversations,pools) =>
    {conversations,pools,terminated := threw (conversations entry.1)}

def Goes (process : Process ι) (i : ι) : Prop := ∃ step after, process.step (i,step) = some after

/-- The pools keep their protocol, and the process is there until one of the conversations throws. -/
structure Consistent (process : Process ι) : Prop where
  succeeds : ∃ machines, Succeeds (process.conversations,process.pools) machines
  exceptions : process.terminated = true ↔ ∃ i, process.conversations i = .ended none

variable {flags platform codec} {process after : Process ι} {entry : ι × Step} {history : History ι}

theorem step_eq_some : process.step entry = some after ↔ process.terminated = false ∧
    serveNext (process.conversations,process.pools) entry = some (after.conversations,after.pools) ∧
    after.terminated = threw (after.conversations entry.1) := by
  rw [step]
  cases process.terminated with
  | true => simp
  | false =>
    rw [if_neg (by simp),Option.map_eq_some_iff]
    constructor
    · intro taken
      obtain ⟨⟨conversations,pools⟩,taken,rfl⟩ := taken
      exact ⟨rfl,taken,rfl⟩
    · intro found
      obtain ⟨_,taken,ends⟩ := found
      obtain ⟨conversations,pools,terminated⟩ := after
      dsimp only at taken ends
      subst ends
      exact ⟨_,taken,rfl⟩

theorem run_serveNext (run : follow step process history = some after) :
    follow serveNext (process.conversations,process.pools) history = some (after.conversations,after.pools) := by
  induction history generalizing process with
  | nil =>
    obtain rfl := Option.some.inj run
    rfl
  | cons entry history ih =>
    obtain ⟨middle,taken,run⟩ := (follow_cons _ _ _ _).mp run
    exact (follow_cons _ _ _ _).mpr ⟨_,(step_eq_some.mp taken).2.1,ih run⟩

theorem consistent_step (consistent : Consistent process) (taken : process.step entry = some after) :
    Consistent after := by
  obtain ⟨running,served,ends⟩ := step_eq_some.mp taken
  obtain ⟨machines,succeeds⟩ := consistent.succeeds
  obtain ⟨_,machines',_,succeeds,_⟩ := succeeds_step succeeds served
  refine ⟨⟨machines',succeeds⟩,?_⟩
  obtain ⟨rest,pools,_,_,same⟩ := serveNext_eq_some.mp served
  obtain ⟨same,_⟩ := Prod.mk.inj same
  rw [ends,threw_iff]
  refine ⟨fun thrown => ⟨entry.1,thrown⟩,?_⟩
  intro found
  obtain ⟨i,thrown⟩ := found
  by_cases own : i = entry.1
  · exact own ▸ thrown
  · rw [same,Function.update_of_ne own] at thrown
    have before := consistent.exceptions.mpr ⟨i,thrown⟩
    rw [running] at before
    cases before

omit [DecidableEq ι] in
theorem consistent_start (connections : ι → Connection) (arrivals : ι → List Arrival) :
    Consistent (start flags platform codec connections arrivals) := by
  refine ⟨⟨_,succeeds_initial fun i => conversation_giveBack flags platform codec (connections i) (arrivals i)⟩,?_⟩
  refine iff_of_false Bool.false_ne_true ?_
  intro found
  obtain ⟨i,thrown⟩ := found
  -- nothing has been asked yet, the search server neither
  have whole := congrArg Series.whole thrown
  rw [start,Series.whole_settle,whole_conversation] at whole
  have run : Run (session flags platform codec (connections i) (arrivals i)) [] none := whole ▸ .ret none
  obtain ⟨_,_,member,_⟩ := session_searched run
  cases member

theorem consistent_run {connections : ι → Connection} {arrivals : ι → List Arrival}
    (run : follow step (start flags platform codec connections arrivals) history = some process) : Consistent process :=
  follow_invariant (fun _ _ _ => consistent_step) (consistent_start connections arrivals) run

/-- What the connections do with the clients of the pools, the pools' machines do. -/
theorem pools_refined {connections : ι → Connection} {arrivals : ι → List Arrival}
    (run : follow step (start flags platform codec connections arrivals) history = some process) :
    process.pools.Sound ∧ ∃ events machines, follow poolsStep (fun _ => {}) events = some machines ∧
      process.pools.Same machines ∧ events.filterMap showsOf = history.filterMap seenOf ∧
      ∀ service, (machines service).Sound ∧ Pool.FreedOnce (eventsAt service events) := by
  obtain ⟨events,machines,steps,⟨holdings,_,agree⟩,shown⟩ := serveNext_refines
    (succeeds_initial fun i => conversation_giveBack flags platform codec (connections i) (arrivals i)) (run_serveNext run)
  refine ⟨agree.sound,events,machines,steps,agree.same,shown,fun service => ⟨?_,?_⟩⟩
  · exact (agree.mirrors service).ordered.sound
  · exact Pool.freedOnce_run (follow_eventsAt steps service)

/-- Seen from outside, the connections' sessions interleave. -/
theorem run_interleaves {connections : ι → Connection} {arrivals : ι → List Arrival}
    (run : follow step (start flags platform codec connections arrivals) history = some process) :
    follow interleave (fun i => session flags platform codec (connections i) (arrivals i)) history =
      some fun i => (process.conversations i).whole := by
  have taken := serveNext_interleaves (run_serveNext run)
  simpa only [start,Series.whole_settle,whole_conversation] using taken

theorem own_session {connections : ι → Connection} {arrivals : ι → List Arrival}
    (run : follow step (start flags platform codec connections arrivals) history = some process) {i : ι}
    {served : Option (Connection × List Reply)} (last : process.conversations i = .ended served) :
    Run (session flags platform codec (connections i) (arrivals i)) (own i history) served := by
  have whole : Run (process.conversations i).whole [] served := last ▸ .ret served
  have alone := own_run (run_interleaves run) i whole
  rwa [List.append_nil] at alone

/-- A connection goes on, or waits for a pool that another has locked, which goes on. -/
theorem Consistent.goes (consistent : Consistent process) (running : process.terminated = false) {i : ι}
    (more : (process.conversations i).isOver = false) :
    process.Goes i ∨ ∃ service other, other ≠ i ∧ process.pools.clientsMutex service = some other ∧ process.Goes other := by
  have step {i : ι} (onward : Onward (process.conversations,process.pools) i) : process.Goes i := by
    obtain ⟨step,after,taken⟩ := onward
    exact ⟨step,⟨after.1,after.2,threw (after.1 i)⟩,step_eq_some.mpr ⟨running,taken,rfl⟩⟩
  obtain ⟨machines,succeeds⟩ := consistent.succeeds
  rcases succeeds.goes more with goes | ⟨service,other,distinct,locked,goes⟩
  · exact .inl (step goes)
  · exact .inr ⟨service,other,distinct,locked,step goes⟩

/-- All connections are through, or the process is. -/
def Final (process : Process ι) : Prop := process.terminated = true ∨ ∀ i, (process.conversations i).isOver = true

theorem Consistent.completes [Fintype ι] {bounds : ι → Nat} (consistent : Consistent process)
    (within : ∀ i, Within (process.conversations i).whole (bounds i)) :
    ∃ rest final, follow step process rest = some final ∧ final.Final := by
  apply @follow_completes _ _ step Consistent Final (fun _ _ _ => consistent_step) ?_ (∑ i, bounds i) process consistent
  · intro rest after run
    obtain ⟨left,_,total⟩ := Within.interleave within (serveNext_interleaves (run_serveNext run))
    omega
  · intro process consistent unfinished
    obtain ⟨running,more⟩ := not_or.mp unfinished
    obtain ⟨i,more⟩ := not_forall.mp more
    rcases consistent.goes (by simpa using running) (by simpa using more) with
      ⟨step,after,taken⟩ | ⟨_,other,_,_,step,after,taken⟩
    · exact ⟨(i,step),after,taken⟩
    · exact ⟨(other,step),after,taken⟩

/-- Every history can be carried on until an exception ends the process, or all sessions are over. -/
theorem ends [Fintype ι] {connections : ι → Connection} {arrivals : ι → List Arrival}
    (run : follow step (start flags platform codec connections arrivals) history = some process) :
    ∃ rest final, follow step process rest = some final ∧
      (final.terminated = true ∧
          (∃ i, Run (session flags platform codec (connections i) (arrivals i)) (own i (history ++ rest)) none) ∨
        final.terminated = false ∧ ∀ i, ∃ conn replies, final.conversations i = .ended (some (conn,replies)) ∧
          Run (session flags platform codec (connections i) (arrivals i)) (own i (history ++ rest)) (some (conn,replies))) := by
  obtain ⟨_,within,_⟩ := Within.interleave
    (fun i => session_within flags platform codec (connections i) (arrivals i)) (run_interleaves run)
  obtain ⟨rest,final,onward,ended⟩ := (consistent_run run).completes within
  have whole := (follow_append _ _ _ _).mpr ⟨process,run,onward⟩
  have exceptions := (consistent_run whole).exceptions
  refine ⟨rest,final,onward,?_⟩
  cases terminated : final.terminated with
  | true =>
    obtain ⟨i,thrown⟩ := exceptions.mp terminated
    exact .inl ⟨rfl,i,own_session whole thrown⟩
  | false =>
    have all := ended.resolve_left (by simp [terminated])
    refine .inr ⟨rfl,fun i => ?_⟩
    have through := all i
    cases last : final.conversations i with
    | going program after => simp [last,Series.isOver] at through
    | ended served =>
      cases served with
      | none =>
        rw [terminated] at exceptions
        cases exceptions.mpr ⟨i,last⟩
      | some served => exact ⟨served.1,served.2,rfl,own_session whole last⟩

end

end Process

section
variable {ι : Type} [DecidableEq ι] [Fintype ι] (flags : Flags) (platform : Platform) (codec : Codec)

/-- Whatever arrives on whatever connections, and however they go on side by side: the pools refine
their machines, no connection is held up for good, and in the end each has done what it would have done
alone with the same answers, unless an answer of the search server has ended the process. -/
theorem connections_complete (connections : ι → Connection) (arrivals : ι → List Arrival) (history : History ι)
    (process : Process ι)
    (run : follow Process.step (Process.start flags platform codec connections arrivals) history = some process) :
    (process.pools.Sound ∧ ∃ events machines, follow poolsStep (fun _ => {}) events = some machines ∧
      process.pools.Same machines ∧ events.filterMap showsOf = history.filterMap seenOf ∧
      ∀ service, (machines service).Sound ∧ Pool.FreedOnce (eventsAt service events)) ∧
    history.length ≤ ∑ i, (arrivals i).length * mostEvents flags ∧
    (process.terminated = false → ∀ i, (process.conversations i).isOver = false → process.Goes i ∨
      ∃ service other, other ≠ i ∧ process.pools.clientsMutex service = some other ∧ process.Goes other) ∧
    ∃ rest final, follow Process.step process rest = some final ∧
      (final.terminated = true ∧ (∃ i, Searched (own i (history ++ rest)) ∧
          Run (session flags platform codec (connections i) (arrivals i)) (own i (history ++ rest)) none) ∨
        final.terminated = false ∧ ∀ i, ∃ conn replies, final.conversations i = .ended (some (conn,replies)) ∧
          Run (session flags platform codec (connections i) (arrivals i)) (own i (history ++ rest)) (some (conn,replies))) := by
  have consistent := Process.consistent_run run
  obtain ⟨left,_,total⟩ := Within.interleave
    (fun i => session_within flags platform codec (connections i) (arrivals i)) (Process.run_interleaves run)
  obtain ⟨rest,final,onward,ended⟩ := Process.ends run
  refine ⟨Process.pools_refined run,by omega,fun running i more => consistent.goes running more,rest,final,onward,?_⟩
  rcases ended with ⟨terminated,i,alone⟩ | through
  · exact .inl ⟨terminated,i,session_searched alone,alone⟩
  · exact .inr through

theorem answers_throws {calls : List Call} {trace : Trace} (run : Run (answers flags platform codec calls) trace none) :
    ∃ call ∈ calls, call.op = .querySymbolByName := by
  induction calls generalizing trace with
  | nil => cases ((Run.pure_iff _ _ _).mp run).2
  | cons call rest ih =>
    obtain ⟨first,handled,second,handles,others,rfl⟩ := (Run.bind_iff _ _ _ _).mp run
    cases handled with
    | none =>
      obtain ⟨returned,handles,absent⟩ := (Run.map_iff _ _ _ _).mp handles
      obtain rfl := Option.map_eq_none_iff.mp absent.symm
      exact ⟨call,List.mem_cons_self,handle_throws flags platform handles⟩
    | some handled =>
      obtain ⟨last,outs,_,later,ends,rfl⟩ := (Run.bind_iff _ _ _ _).mp others
      obtain ⟨rfl,absent⟩ := (Run.pure_iff _ _ _).mp ends
      obtain rfl := Option.map_eq_none_iff.mp absent.symm
      obtain ⟨call,member,search⟩ := ih later
      exact ⟨call,List.mem_cons_of_mem _ member,search⟩

variable {flags platform codec}

/-- What a client reads of its session is what its calls were answered. -/
theorem session_read {memory : Memory} {calls : List Call} (kept : Call.Kept calls)
    (closed : Call.AllClosed memory.buffer calls) {trace : Trace} {served : Option (Connection × List Reply)}
    (run : Run (session flags platform codec (.start memory) (calls.flatMap Call.arrivals)) trace served) :
    ∃ outs, Run (answers flags platform codec calls) trace outs ∧
      (served.map fun served => readReplies calls.length (served.2.flatMap Reply.toBuffers)) =
        outs.map fun outs => some (outs.map fun out => (200,out),[]) := by
  have read := (Run.bind_iff' _ (fun served => Program.ret (served.map fun served =>
    readReplies calls.length (served.2.flatMap Reply.toBuffers))) trace _).mpr ⟨trace,served,[],run,.ret _,by simp⟩
  rw [session_replies calls (fun _ => Connection.ready_start memory) (.inr kept) closed] at read
  obtain ⟨first,outs,_,answered,ends,rfl⟩ := (Run.bind_iff' _ _ _ _).mp read
  obtain ⟨rfl,same⟩ := (Run.ret_iff _ _ _).mp ends
  rw [List.append_nil]
  exact ⟨outs,answered,same⟩

variable (flags platform codec)

/-- Any number of clients, each with calls of its own behind one another on its connection, and all
connections side by side: each client reads what its calls put out, in order and with status 200,
unless one of the calls is for the search. -/
theorem clients_served (memory : ι → Memory) (calls : ι → List Call) (kept : ∀ i, Call.Kept (calls i))
    (closed : ∀ i, Call.AllClosed (memory i).buffer (calls i)) (history : History ι) (process : Process ι)
    (run : follow Process.step (Process.start flags platform codec (fun i => .start (memory i))
      fun i => (calls i).flatMap Call.arrivals) history = some process) :
    ∃ rest final, follow Process.step process rest = some final ∧
      (final.terminated = true → ∃ i, ∃ call ∈ calls i, call.op = .querySymbolByName) ∧
      (final.terminated = false → ∀ i, ∃ conn replies outs, final.conversations i = .ended (some (conn,replies)) ∧
        Run (answers flags platform codec (calls i)) (own i (history ++ rest)) (some outs) ∧
        readReplies (calls i).length (replies.flatMap Reply.toBuffers) = some (outs.map fun out => (200,out),[])) := by
  obtain ⟨rest,final,onward,ended⟩ := Process.ends run
  refine ⟨rest,final,onward,?_⟩
  rcases ended with ⟨terminated,i,alone⟩ | ⟨running,through⟩
  · rw [terminated]
    refine ⟨fun _ => ⟨i,?_⟩,by simp⟩
    obtain ⟨outs,answered,read⟩ := session_read (kept i) (closed i) alone
    obtain rfl := Option.map_eq_none_iff.mp read.symm
    exact answers_throws flags platform codec answered
  · rw [running]
    refine ⟨by simp,fun _ i => ?_⟩
    obtain ⟨conn,replies,last,alone⟩ := through i
    obtain ⟨outs,answered,read⟩ := session_read (kept i) (closed i) alone
    cases outs with
    | none => cases read
    | some outs => exact ⟨conn,replies,outs,last,answered,Option.some.inj read⟩

end

/-- Two clients that trade twice, as far as the first trade of both. -/
def trading : Process Bool :=
  .start {} .sample messageCodec (fun _ => .start .zero) fun _ => [firstTrade,secondTrade].flatMap Call.arrivals

theorem trading_taken : ∃ process, follow Process.step trading sharing = some process :=
  Option.isSome_iff_exists.mp (by decide +kernel)

theorem connections_complete_two :
    ∃ process, follow Process.step trading sharing = some process ∧ process.pools.Sound ∧
      ∃ rest final, follow Process.step process rest = some final ∧ (final.terminated = true ∨
        ∀ i, ∃ conn replies, final.conversations i = .ended (some (conn,replies))) := by
  obtain ⟨process,run⟩ := trading_taken
  obtain ⟨⟨sound,_⟩,_,_,rest,final,onward,ended⟩ := connections_complete {} .sample messageCodec _ _ sharing process run
  refine ⟨process,run,sound,rest,final,onward,?_⟩
  rcases ended with ⟨terminated,_⟩ | ⟨_,through⟩
  · exact .inl terminated
  · refine .inr fun i => ?_
    obtain ⟨conn,replies,last,_⟩ := through i
    exact ⟨conn,replies,last⟩

theorem clients_served_two :
    ∃ process, follow Process.step trading sharing = some process ∧
      ∃ rest final, follow Process.step process rest = some final ∧ ∀ i, ∃ conn replies, ∃ outs : List Bytes,
        final.conversations i = .ended (some (conn,replies)) ∧
        readReplies 2 (replies.flatMap Reply.toBuffers) = some (outs.map fun out => (200,out),[]) := by
  obtain ⟨process,run⟩ := trading_taken
  obtain ⟨rest,final,onward,search,served⟩ := clients_served {} .sample messageCodec (fun _ => .zero)
    (fun _ => [firstTrade,secondTrade]) (fun _ _ first _ => Option.some.inj first ▸ (by decide +kernel))
    (fun _ => ⟨by decide +kernel,by decide +kernel,trivial⟩) sharing process run
  refine ⟨process,run,rest,final,onward,fun i => ?_⟩
  cases terminated : final.terminated with
  | true =>
    obtain ⟨_,call,member,op⟩ := search terminated
    obtain rfl | rfl : call = firstTrade ∨ call = secondTrade := by simpa using member
    · cases op
    · cases op
  | false =>
    obtain ⟨conn,replies,outs,last,_,read⟩ := served terminated i
    exact ⟨conn,replies,outs,last,read⟩

end FuturesCellProxy.Proxy
