import FuturesCellProxy.Server.Occupancy

/-! What the monitor takes out of the manager's set, why a connection is stopped, and how it comes
to its end. -/
namespace FuturesCellProxy.Server
open Foundation

namespace RunningServer
variable {Thread : Type} [DecidableEq Thread]

/-- Bytes are read from this connection. -/
def reads (c : Nat) : RunningEvent Thread → Bool
  | .life d event => d = c && event.receives
  | _ => false

def seconds : RunningEvent Thread → Nat
  | .tick seconds => seconds
  | _ => 0

def elapsed : List (RunningEvent Thread) → Nat
  | [] => 0
  | event :: rest => seconds event + elapsed rest

omit [DecidableEq Thread] in
theorem elapsed_snoc (events : List (RunningEvent Thread)) (event : RunningEvent Thread) :
    elapsed (events ++ [event]) = elapsed events + seconds event := by
  induction events with
  | nil => simp only [List.nil_append,elapsed,Nat.add_zero,Nat.zero_add]
  | cons first rest ih => simp only [List.cons_append,elapsed,ih,Nat.add_assoc]

theorem clock_step {running after : RunningServer Thread} {event : RunningEvent Thread}
    (taken : running.step event = some after) :
    after.clock = running.clock + seconds event ∧ running.server.newConnection ≤ after.server.newConnection := by
  cases step_cases taken with
  | tick seconds => exact ⟨rfl,le_rfl⟩
  | rearm thread started => exact ⟨(Int.add_zero _).symm,Nat.le_succ _⟩
  | aside event server moved operations newConnection =>
    exact ⟨by cases event <;> exact (Int.add_zero _).symm,newConnection.ge⟩
  | _ => exact ⟨(Int.add_zero _).symm,le_rfl⟩

/-- The active time of a connection is the one of the last read, or of its construction. -/
theorem activeTime_step {c : Nat} {running after : RunningServer Thread} {event : RunningEvent Thread}
    (taken : running.step event = some after) (known : c ≤ after.server.newConnection) :
    (c ≤ running.server.newConnection → reads c event = true) ∧ after.activeTime c = after.clock ∨
      c ≤ running.server.newConnection ∧ reads c event = false ∧ after.activeTime c = running.activeTime c := by
  cases step_cases taken with
  | rearm thread started =>
    by_cases new : c = running.server.newConnection + 1
    · left
      refine ⟨fun old => by omega,?_⟩
      dsimp only
      rw [new,Function.update_self]
    · right
      have old : c ≤ running.server.newConnection + 1 := known
      refine ⟨by omega,rfl,?_⟩
      dsimp only
      rw [Function.update_of_ne new]
  | life d own life mine moved =>
    dsimp only
    by_cases read : c = d ∧ own.receives = true
    · obtain ⟨rfl,receives⟩ := read
      left
      refine ⟨fun _ => by simp [reads,receives],?_⟩
      rw [if_pos receives,Function.update_self]
    · right
      refine ⟨known,?_,?_⟩
      · by_contra reading
        apply read
        simp only [reads,Bool.not_eq_false,Bool.and_eq_true,decide_eq_true_iff] at reading
        exact ⟨reading.1.symm,reading.2⟩
      · split
        next receives =>
          have other : c ≠ d := fun same => read ⟨same,receives⟩
          rw [Function.update_of_ne other]
        next => rfl
  | aside event server moved operations newConnection => exact .inr ⟨newConnection ▸ known,rfl,rfl⟩
  | _ => exact .inr ⟨known,rfl,rfl⟩

/-- The active time says how long the connection has been there without anything read from it. -/
theorem active_since {status : Nat → StatusType} {clock : Int} {history : List (RunningEvent Thread)}
    {running : RunningServer Thread} (run : follow step (constructed status clock) history = some running) {c : Nat}
    (known : c ≤ running.server.newConnection) :
    ∃ earlier later active, history = earlier ++ later ∧ follow step (constructed status clock) earlier = some active ∧
      follow step active later = some running ∧ c ≤ active.server.newConnection ∧
      (∀ event ∈ later, reads c event = false) ∧ running.clock - running.activeTime c = (elapsed later : Int) := by
  induction history using List.reverseRecOn generalizing running with
  | nil =>
    obtain rfl := Option.some.inj run
    exact ⟨[],[],_,rfl,rfl,rfl,known,by simp,by simp [constructed,elapsed]⟩
  | append_singleton history event ih =>
    obtain ⟨before,past,last⟩ := (follow_append _ _ _ _).mp run
    obtain ⟨_,taken,done⟩ := (follow_cons _ _ _ _).mp last
    obtain rfl := Option.some.inj done
    rcases activeTime_step taken known with ⟨_,now⟩ | ⟨old,unread,same⟩
    · exact ⟨history ++ [event],[],_,by simp,run,rfl,known,by simp,by simp [now,elapsed]⟩
    · obtain ⟨earlier,later,active,rfl,first,onward,there,silent,since⟩ := ih past old
      refine ⟨earlier,later ++ [event],active,by simp,first,(follow_append _ _ _ _).mpr ⟨before,onward,last⟩,there,?_,?_⟩
      · intro other member
        rcases List.mem_append.mp member with past | last
        · exact silent other past
        · rw [List.mem_singleton.mp last]
          exact unread
      · have clock := (clock_step taken).1
        rw [same,clock,elapsed_snoc]
        omega

theorem silent_run {c : Nat} {running after : RunningServer Thread} {events : List (RunningEvent Thread)}
    (run : follow step running events = some after) (known : c ≤ running.server.newConnection)
    (silent : ∀ event ∈ events, reads c event = false) :
    after.clock = running.clock + elapsed events ∧ running.server.newConnection ≤ after.server.newConnection ∧
      after.activeTime c = running.activeTime c := by
  induction events generalizing running with
  | nil =>
    obtain rfl := Option.some.inj run
    exact ⟨(Int.add_zero _).symm,le_rfl,rfl⟩
  | cons event rest ih =>
    obtain ⟨middle,taken,run⟩ := (follow_cons _ _ _ _).mp run
    obtain ⟨unread,silent⟩ := List.forall_mem_cons.mp silent
    obtain ⟨clock,numbers⟩ := clock_step taken
    obtain ⟨onward,still,kept⟩ := ih run (known.trans numbers) silent
    rcases activeTime_step taken (known.trans numbers) with ⟨read,_⟩ | ⟨_,_,same⟩
    · cases unread.symm.trans (read known)
    · refine ⟨?_,numbers.trans still,kept.trans same⟩
      rw [onward,clock,elapsed]
      omega

/-- The loop has still to come to a connection of the set, or has found it active. -/
structure Looked (since : Int) (c : Nat) (running : RunningServer Thread) : Prop where
  clock : since ≤ running.clock
  started : (running.lives c).started = true
  active : c ∈ running.connections →
    (∃ todo, running.monitor = some todo ∧ c ∈ todo) ∨ since - running.activeTime c ≤ 330

omit [DecidableEq Thread] in
theorem Looked.updated {since : Int} {c d : Nat} {running : RunningServer Thread} (looked : Looked since c running)
    (member : c ∈ running.connections) :
    (∃ todo, running.monitor = some todo ∧ c ∈ todo) ∨
      since - Function.update running.activeTime d running.clock c ≤ 330 := by
  by_cases same : c = d
  · subst same
    have clock := looked.clock
    rw [Function.update_self]
    omega
  · rw [Function.update_of_ne same]
    exact looked.active member

theorem looked_step {since : Int} {c : Nat} {running after : RunningServer Thread} {event : RunningEvent Thread}
    (looked : Looked since c running) (taken : running.step event = some after) : Looked since c after := by
  obtain ⟨clock,started,active⟩ := looked
  cases step_cases taken with
  | tick seconds => exact ⟨by dsimp only; omega,started,active⟩
  | start thread ok life free checked starts =>
    obtain ⟨new,_⟩ := Life.start_step starts
    have other : c ≠ running.server.newConnection := by
      rintro rfl
      rw [new] at started
      cases started
    refine ⟨clock,?_,fun member => active (mem_start running thread ok other member)⟩
    dsimp only
    rwa [Function.update_of_ne other]
  | rearm thread moving => exact ⟨clock,started,fun member => Looked.updated ⟨clock,started,active⟩ member⟩
  | stopAll free closed =>
    refine ⟨clock,started,fun member => ?_⟩
    rw [connections,ServerBase.manager_manage] at member
    exact absurd member (OrderedSet.not_mem_empty c)
  | aside event server moved operations _ =>
    refine ⟨clock,started,fun member => active ?_⟩
    rwa [(connections_eq operations).1] at member
  | life d event life own moved =>
    obtain ⟨same,_⟩ := Life.own_step own moved
    refine ⟨clock,?_,fun member => ?_⟩
    · dsimp only
      by_cases here : c = d
      · subst here
        rwa [Function.update_self,same]
      · rwa [Function.update_of_ne here]
    · dsimp only
      split
      · exact Looked.updated ⟨clock,started,active⟩ member
      · exact active member
  | stop d free called => exact ⟨clock,started,fun member => active ((mem_stop running d c).mp member).1⟩
  | sweep free =>
    refine ⟨clock,started,fun member => .inr ?_⟩
    rcases active member with ⟨todo,here,_⟩ | found
    · cases free.symm.trans here
    · exact found
  | kill d todo here late =>
    refine ⟨clock,started,fun member => ?_⟩
    obtain ⟨member,other⟩ := (mem_stop running d c).mp member
    rcases active member with ⟨_,same,inside⟩ | found
    · cases here.symm.trans same
      exact .inl ⟨todo,rfl,(List.mem_cons.mp inside).resolve_left other⟩
    · exact .inr found
  | keep d todo here alive =>
    refine ⟨clock,started,fun member => ?_⟩
    rcases active member with ⟨_,same,inside⟩ | found
    · cases here.symm.trans same
      rcases List.mem_cons.mp inside with rfl | behind
      · right
        simp only [isTimeOut,decide_eq_false_iff_not] at alive
        dsimp only
        omega
      · exact .inl ⟨todo,rfl,behind⟩
    · exact .inr found
  | done here =>
    refine ⟨clock,started,fun member => .inr ?_⟩
    rcases active member with ⟨_,same,inside⟩ | found
    · cases here.symm.trans same
      cases inside
    · exact found
  | doClose d life posted idle moved =>
    obtain rfl := Life.doClose_step moved
    refine ⟨clock,?_,active⟩
    dsimp only
    by_cases here : c = d
    · subst here
      rwa [Function.update_self]
    · rwa [Function.update_of_ne here]

/-- Once a sweep is through, a connection from which nothing has been read for more than 330 seconds
before it, and nothing since, is stopped and no longer in the set. -/
theorem idle_reclaimed (status : Nat → StatusType) (clock : Int) (earlier later after : List (RunningEvent Thread))
    (active swept running : RunningServer Thread)
    (past : follow step (constructed status clock) earlier = some active) (idle : follow step active later = some swept)
    (run : follow step swept (.sweep :: after) = some running) (through : running.monitor = none) (c : Nat)
    (known : c ≤ active.server.newConnection) (started : (swept.lives c).started = true)
    (silent : ∀ event ∈ later ++ after, reads c event = false) (long : 330 < elapsed later) :
    c ∈ running.stops ∧ c ∉ running.connections := by
  obtain ⟨looking,taken,onward⟩ := (follow_cons _ _ _ _).mp run
  have looked : Looked swept.clock c looking := by
    cases step_cases taken with
    | sweep free => exact ⟨le_rfl,started,fun member => .inl ⟨_,rfl,member⟩⟩
  have last := follow_invariant (fun _ _ _ looked taken => looked_step looked taken) looked onward
  obtain ⟨unheard,unread⟩ := List.forall_mem_append.mp silent
  obtain ⟨passed,numbers,quiet⟩ := silent_run idle known unheard
  obtain ⟨_,_,still⟩ := silent_run run (known.trans numbers) (List.forall_mem_cons.mpr ⟨rfl,unread⟩)
  obtain ⟨_,_,_,_,_,_,_,_,since⟩ := active_since past known
  have gone : c ∉ running.connections := by
    intro held
    rcases last.active held with ⟨_,here,_⟩ | found
    · cases through.symm.trans here
    · rw [still,quiet] at found
      omega
  have whole : follow step (constructed status clock) (earlier ++ (later ++ .sweep :: after)) = some running :=
    (follow_append _ _ _ _).mpr ⟨active,past,(follow_append _ _ _ _).mpr ⟨swept,idle,run⟩⟩
  exact ⟨(((kept_run whole).occupied.accounted c).mp last.started).resolve_left gone,gone⟩

theorem idle_reclaimed_two :
    ∃ active swept running, follow step fresh (silentAndBusy.take 12) = some active ∧
      follow step active (silentAndBusy.drop 12) = some swept ∧ follow step swept sweptOnce = some running ∧
      running.connections.elements = [2] ∧ 1 ∈ running.stops ∧ 1 ∉ running.connections := by
  have all : silentAndBusy ++ sweptOnce = silentAndBusy.take 12 ++ (silentAndBusy.drop 12 ++ sweptOnce) := by
    rw [← List.append_assoc,List.take_append_drop]
  obtain ⟨running,run⟩ := Option.isSome_iff_exists.mp
    (show (follow step fresh (silentAndBusy ++ sweptOnce)).isSome by decide +kernel)
  have seen : (follow step fresh (silentAndBusy ++ sweptOnce)).map
      (fun running => (running.connections.elements,running.monitor)) = some ([2],none) := by decide +kernel
  have before : (follow step fresh (silentAndBusy.take 12)).map (fun active => active.server.newConnection) = some 3 := by
    decide +kernel
  have later : (follow step fresh (silentAndBusy.take 12 ++ silentAndBusy.drop 12)).map
      (fun swept => (swept.lives 1).started) = some true := by decide +kernel
  rw [run] at seen
  obtain ⟨held,through⟩ := Prod.mk.inj (Option.some.inj seen)
  rw [all] at run
  obtain ⟨active,past,onward⟩ := (follow_append _ _ _ _).mp run
  obtain ⟨swept,idle,last⟩ := (follow_append _ _ _ _).mp onward
  rw [past] at before
  rw [(follow_append _ _ _ _).mpr ⟨active,past,idle⟩] at later
  have known : 1 ≤ active.server.newConnection := by simp [Option.some.inj before]
  exact ⟨active,swept,running,past,idle,last,held,
    idle_reclaimed _ _ _ _ _ active swept running past idle last through 1 known (Option.some.inj later) (by decide)
      (by decide)⟩

/-- Why a connection has been stopped. -/
inductive Reason (status : Nat → StatusType) (clock : Int) (history : List (RunningEvent Thread))
    (running : RunningServer Thread) (c : Nat) : Prop where
  | unstarted (failed : (running.lives c).failed = true)
  | ended (called : 0 < running.stopped c)
  | shutdown (returned : running.server.stopping = .returned)
  | idle (earlier later after : List (RunningEvent Thread)) (split : history = earlier ++ later ++ .look :: after)
      (active seen : RunningServer Thread) (past : follow step (constructed status clock) earlier = some active)
      (known : c ≤ active.server.newConnection) (unheard : follow step active later = some seen)
      (todo : List Nat) (looks : seen.monitor = some (c :: todo))
      (silent : ∀ event ∈ later, reads c event = false) (long : 330 < elapsed later)

theorem Reason.snoc {status : Nat → StatusType} {clock : Int}
    {history : List (RunningEvent Thread)} {running after : RunningServer Thread} {c : Nat} {event : RunningEvent Thread}
    (reason : Reason status clock history running c)
    (failed : (running.lives c).failed = true → (after.lives c).failed = true)
    (ended : 0 < running.stopped c → 0 < after.stopped c)
    (shutdown : running.server.stopping = .returned → after.server.stopping = .returned) :
    Reason status clock (history ++ [event]) after c := by
  cases reason with
  | unstarted fails => exact .unstarted (failed fails)
  | ended called => exact .ended (ended called)
  | shutdown returned => exact .shutdown (shutdown returned)
  | idle earlier later rest split active seen past known unheard todo looks silent long =>
    exact .idle earlier later (rest ++ [event]) (by simp [split]) active seen past known unheard todo looks silent long

/-- What stays as it is once it is so. -/
theorem lasting_step {running after : RunningServer Thread} {event : RunningEvent Thread}
    (taken : running.step event = some after) (c : Nat) :
    ((running.lives c).failed = true → (after.lives c).failed = true) ∧ running.stopped c ≤ after.stopped c ∧
      (running.server.stopping = .returned → after.server.stopping = .returned) := by
  have update (d : Nat) (life : Life) (fails : (running.lives d).failed = true → life.failed = true) :
      (running.lives c).failed = true → (Function.update running.lives d life c).failed = true := by
    by_cases same : c = d
    · subst same
      rwa [Function.update_self]
    · rw [Function.update_of_ne same]
      exact id
  have count (d : Nat) : running.stopped c ≤ Function.update running.stopped d (running.stopped d + 1) c := by
    by_cases same : c = d
    · subst same
      rw [Function.update_self]
      exact Nat.le_succ _
    · rw [Function.update_of_ne same]
  cases step_cases taken with
  | start thread ok life free checked starts =>
    obtain ⟨_,_,failed,_⟩ := Life.start_step starts
    exact ⟨update _ _ fun fails => by rw [failed,fails]; rfl,le_rfl,id⟩
  | stopAll => exact ⟨id,le_rfl,fun _ => rfl⟩
  | aside event server moved _ _ =>
    refine ⟨id,le_rfl,fun returned => ?_⟩
    cases ServerBase.step_cases moved with
    | close open_ => cases open_.symm.trans returned
    | stopAll => rfl
    | _ => exact returned
  | life d event life own moved =>
    obtain ⟨_,failed,_⟩ := Life.own_step own moved
    exact ⟨update _ _ fun fails => failed.trans fails,le_rfl,id⟩
  | stop d => exact ⟨id,count d,id⟩
  | doClose d life posted idle moved =>
    obtain rfl := Life.doClose_step moved
    exact ⟨update _ _ id,le_rfl,id⟩
  | _ => exact ⟨id,le_rfl,id⟩

theorem reason_step {status : Nat → StatusType} {clock : Int}
    {history : List (RunningEvent Thread)} {running after : RunningServer Thread} {event : RunningEvent Thread}
    (past : follow step (constructed status clock) history = some running)
    (reasons : ∀ c ∈ running.stops, Reason status clock history running c)
    (taken : running.step event = some after) :
    ∀ c ∈ after.stops, Reason status clock (history ++ [event]) after c := by
  have remains (c : Nat) (member : c ∈ running.stops) : Reason status clock (history ++ [event]) after c := by
    obtain ⟨failed,ended,shutdown⟩ := lasting_step taken c
    exact (reasons c member).snoc failed (fun called => called.trans_le ended) shutdown
  intro c member
  cases step_cases taken with
  | start thread ok life free checked starts =>
    obtain ⟨_,_,failed,_⟩ := Life.start_step starts
    change c ∈ (running.server.manage (.start running.server.newConnection ok)).manager.stops at member
    rw [ServerBase.manager_manage,(ConnectionManager.step_start _ _ _).2] at member
    rcases List.mem_append.mp member with old | new
    · exact remains c old
    · cases ok with
      | true => cases new
      | false =>
        obtain rfl := List.mem_singleton.mp new
        apply Reason.unstarted
        dsimp only
        rw [Function.update_self,failed,Bool.not_false,Bool.or_true]
  | stopAll => exact .shutdown rfl
  | stop d =>
    rcases mem_stops rfl member with old | removed
    · exact remains c old
    · obtain rfl : c = d := by simpa [Operation.removes] using removed
      apply Reason.ended
      dsimp only
      rw [Function.update_self]
      exact Nat.succ_pos _
  | kill d todo here late =>
    rcases mem_stops rfl member with old | removed
    · exact remains c old
    · obtain rfl : c = d := by simpa [Operation.removes] using removed
      have kept := kept_run past
      have member := (kept.todo _ here).2 c List.mem_cons_self
      have known := kept.numbered.bounded c ((kept.started c).mp ((kept.occupied.accounted c).mpr (.inl member)))
      obtain ⟨earlier,later,active,rfl,first,unheard,there,silent,since⟩ := active_since past known
      have long : 330 < elapsed later := by
        simp only [isTimeOut,decide_eq_true_iff] at late
        omega
      exact .idle earlier later [] rfl active running first there unheard todo here silent long
  | aside event server moved operations _ =>
    rw [(connections_eq operations).2] at member
    exact remains c member
  | _ => exact remains c member

/-- A connection is stopped because it did not start, because it has come to its own end, because
the server shuts down, or because the monitor came to it when nothing had been read from it for
more than 330 seconds. -/
theorem stopped_why (status : Nat → StatusType) (clock : Int)
    (events : List (RunningEvent Thread)) (running : RunningServer Thread)
    (run : follow step (constructed status clock) events = some running) (c : Nat)
    (stopped : c ∈ running.stops) : Reason status clock events running c := by
  have reasons := @follow_history _ _ _ (fun history running =>
      follow step (constructed status clock) history = some running ∧
        ∀ c ∈ running.stops, Reason status clock history running c)
    (fun history running event after ⟨past,reasons⟩ taken =>
      ⟨(follow_append _ _ _ _).mpr ⟨running,past,(follow_cons _ _ _ _).mpr ⟨after,taken,rfl⟩⟩,
        reason_step past reasons taken⟩)
    [] (constructed status clock) running events
    ⟨rfl,fun _ member => absurd member List.not_mem_nil⟩ run
  exact reasons.2 c stopped

theorem stopped_why_two :
    ∃ running, follow step fresh (silentAndBusy ++ sweptOnce) = some running ∧
      Reason (fun _ => .ok) 0 (silentAndBusy ++ sweptOnce) running 1 := by
  obtain ⟨running,run⟩ := Option.isSome_iff_exists.mp
    (show (follow step fresh (silentAndBusy ++ sweptOnce)).isSome by decide +kernel)
  have seen : (follow step fresh (silentAndBusy ++ sweptOnce)).map stops = some [1] := by decide +kernel
  rw [run] at seen
  exact ⟨running,run,stopped_why _ _ _ running run 1 (by simp [Option.some.inj seen])⟩

end RunningServer

namespace LifeEvent

/-- A read or a write ends, or the handler goes on. -/
def chained : LifeEvent → Bool
  | read .. | handled _ | reply | written _ => true
  | _ => false

/-- What ends, ends with an error, as it does on a closed socket. -/
def fails : LifeEvent → Bool
  | read error _ _ | written error => error ≠ 0
  | _ => true

end LifeEvent

namespace Life

/-- How many handlers are still to run if every read and write fails. -/
def rank (life : Life) : Nat :=
  life.reads + life.writes + match life.handling with
    | .idle => 0
    | .reply => 2
    | .request => 3

theorem Counted.rank_le {life : Life} (counted : Counted life) : life.rank ≤ 3 := by
  have single := counted.single
  simp only [chain] at single
  cases handling : life.handling <;> simp only [rank,handling] <;> simp [handling] at single <;> omega

theorem rank_eq_zero {life : Life} : life.rank = 0 ↔ life.chain = 0 := by
  cases handling : life.handling <;> simp [rank,chain,handling]

theorem rank_step {life after : Life} {event : LifeEvent} (own : event.own = true) (fails : event.fails = true)
    (taken : life.step event = some after) : (if event.chained then 1 else 0) + after.rank ≤ life.rank := by
  cases step_cases taken with
  | start | noStart | stop | doClose => cases own
  | complete | invalid | indeterminate | goesOn => cases fails
  | readFails error verdict keepAlive reading idle => simp [LifeEvent.chained,rank,idle]; omega
  | handled reply request => simp [LifeEvent.chained,rank,request]; omega
  | reply ready => simp [LifeEvent.chained,rank,ready]; omega
  | ends error writing idle => simp [LifeEvent.chained,rank,idle]; omega
  | pushMsg | pushWrite | pushed => exact (Nat.zero_add _).le

/-- As long as something is under way, it can fail. -/
theorem rank_progress {life : Life} (busy : 0 < life.rank) :
    ∃ event after, event.own = true ∧ event.chained = true ∧ event.fails = true ∧ life.step event = some after := by
  cases handling : life.handling with
  | request => exact ⟨.handled life.reply,_,rfl,rfl,rfl,by rw [step,if_pos handling]⟩
  | reply => exact ⟨.reply,_,rfl,rfl,rfl,by rw [step,if_pos handling]⟩
  | idle =>
    by_cases reading : 0 < life.reads
    · exact ⟨.read 125 .indeterminate false,_,rfl,rfl,rfl,by rw [step,if_pos ⟨reading,handling⟩]⟩
    · have writing : 0 < life.writes := by
        simp only [rank,handling] at busy
        omega
      exact ⟨.written 125,_,rfl,rfl,rfl,by rw [step,if_pos ⟨writing,handling⟩]⟩

end Life

namespace RunningServer
variable {Thread : Type} [DecidableEq Thread]

/-- A handler of this connection runs. -/
def handles (c : Nat) : RunningEvent Thread → Bool
  | .life d event => d = c && event.chained
  | _ => false

theorem rank_step {c : Nat} {running after : RunningServer Thread} {event : RunningEvent Thread}
    (started : (running.lives c).started = true) (fails : ∀ own, event = .life c own → own.fails = true)
    (taken : running.step event = some after) :
    (after.lives c).started = true ∧ (if handles c event then 1 else 0) + (after.lives c).rank ≤ (running.lives c).rank := by
  have quiet : (if handles c event then 1 else 0) = 0 →
      (if handles c event then 1 else 0) + (running.lives c).rank ≤ (running.lives c).rank := by omega
  cases step_cases taken with
  | start thread ok life free checked starts =>
    obtain ⟨new,_⟩ := Life.start_step starts
    have other : c ≠ running.server.newConnection := by
      rintro rfl
      rw [new] at started
      cases started
    dsimp only
    rw [Function.update_of_ne other]
    exact ⟨started,quiet rfl⟩
  | life d own life mine moved =>
    dsimp only
    by_cases same : c = d
    · subst same
      rw [Function.update_self]
      refine ⟨(Life.own_step mine moved).1.trans started,?_⟩
      have less := Life.rank_step mine (fails own rfl) moved
      simpa [handles] using less
    · rw [Function.update_of_ne same]
      refine ⟨started,quiet ?_⟩
      simp [handles,Ne.symm same]
  | doClose d life posted idle moved =>
    obtain rfl := Life.doClose_step moved
    dsimp only
    by_cases same : c = d
    · subst same
      rw [Function.update_self]
      exact ⟨started,quiet rfl⟩
    · rw [Function.update_of_ne same]
      exact ⟨started,quiet rfl⟩
  | _ => exact ⟨started,quiet rfl⟩

theorem rank_run {c : Nat} {running last : RunningServer Thread} {events : List (RunningEvent Thread)}
    (started : (running.lives c).started = true) (fails : ∀ own, .life c own ∈ events → own.fails = true)
    (run : follow step running events = some last) :
    events.countP (handles c) + (last.lives c).rank ≤ (running.lives c).rank := by
  induction events generalizing running with
  | nil =>
    obtain rfl := Option.some.inj run
    simp
  | cons event rest ih =>
    obtain ⟨middle,taken,run⟩ := (follow_cons _ _ _ _).mp run
    obtain ⟨still,less⟩ := rank_step started (fun own same => fails own (by simp [same])) taken
    have later := ih still (fun own member => fails own (List.mem_cons_of_mem _ member)) run
    rw [List.countP_cons]
    omega

/-- Of a connection whose reads and writes fail from now on, as they do once its socket is closed,
no more than three handlers run, and as long as something is under way on it, one of them can. -/
theorem failing_ends (status : Nat → StatusType) (clock : Int)
    (before after : List (RunningEvent Thread)) (running last : RunningServer Thread)
    (past : follow step (constructed status clock) before = some running)
    (run : follow step running after = some last) (c : Nat) (started : (running.lives c).started = true)
    (fails : ∀ own, .life c own ∈ after → own.fails = true) :
    after.countP (handles c) ≤ 3 ∧ ((last.lives c).chain = 0 ∨
      ∃ own next, own.chained = true ∧ own.fails = true ∧ last.step (.life c own) = some next) := by
  have less := rank_run started fails run
  have few := ((kept_run past).counted c).rank_le
  refine ⟨by omega,?_⟩
  by_cases ended : (last.lives c).rank = 0
  · exact .inl (Life.rank_eq_zero.mp ended)
  · right
    obtain ⟨own,life,mine,chained,failing,moved⟩ := Life.rank_progress (Nat.pos_of_ne_zero ended)
    obtain ⟨next,taken⟩ := life_goes mine moved
    exact ⟨own,next,chained,failing,taken⟩

theorem failing_ends_two :
    ∃ running last, follow step fresh (silentAndBusy ++ sweptOnce) = some running ∧
      follow step running failedThen = some last ∧ failedThen.countP (handles 1) = 1 ∧ ((last.lives 1).chain = 0 ∨
        ∃ own next, own.chained = true ∧ own.fails = true ∧ last.step (.life 1 own) = some next) := by
  obtain ⟨last,run⟩ := Option.isSome_iff_exists.mp
    (show (follow step fresh (silentAndBusy ++ sweptOnce ++ failedThen)).isSome by decide +kernel)
  obtain ⟨running,past,onward⟩ := (follow_append _ _ _ _).mp run
  have seen : (follow step fresh (silentAndBusy ++ sweptOnce)).map (fun running => (running.lives 1).started) =
      some true := by decide +kernel
  rw [past] at seen
  refine ⟨running,last,past,onward,by decide,?_⟩
  refine (failing_ends _ _ _ failedThen running last past onward 1 (Option.some.inj seen) fun own member => ?_).2
  rcases List.mem_cons.mp member with same | other
  · cases same
    rfl
  · cases List.mem_singleton.mp other

end RunningServer

end FuturesCellProxy.Server
