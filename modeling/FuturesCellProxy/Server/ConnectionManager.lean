import FuturesCellProxy.Foundation.Mutex
import FuturesCellProxy.Foundation.OrderedSet
import Mathlib.Data.List.Induction

/-! The manager's set of connections. Each operation holds the mutex from its first to its
last step, and between the steps the other threads go on, as does the read of a connection
that is being started; the law is about every interleaving of the steps. -/
namespace FuturesCellProxy.Server
open Foundation

structure ConnectionManager (Conn : Type) [LinearOrder Conn] where
  connections : OrderedSet Conn := ∅
  /-- On which connections `Connection::Stop` has been called, in this order. -/
  stops : List Conn := []

/-- `ok` is what `Connection::Start` returns; `now` is the time and `activeTime` the one of
the last read, when a sweep asks whether a connection has timed out. -/
inductive Operation (Conn : Type) where
  | start (c : Conn) (ok : Bool)
  | stop (c : Conn)
  | erase (c : Conn)
  | stopAll
  | sweep (now activeTime : Conn → Int)

def isTimeOut (now activeTime : Int) : Bool := now - activeTime > 330

namespace ConnectionManager
variable {Conn : Type} [LinearOrder Conn]

def start (manager : ConnectionManager Conn) (c : Conn) (ok : Bool) : ConnectionManager Conn :=
  if ok then {manager with connections := manager.connections.insert c}
  else {manager with stops := manager.stops ++ [c]}

def stop (manager : ConnectionManager Conn) (c : Conn) : ConnectionManager Conn :=
  if c ∈ manager.connections then
    {connections := manager.connections.erase c,stops := manager.stops ++ [c]}
  else manager

def erase (manager : ConnectionManager Conn) (c : Conn) : ConnectionManager Conn :=
  {manager with connections := manager.connections.erase c}

def stopAll (manager : ConnectionManager Conn) : ConnectionManager Conn where
  connections := ∅
  stops := manager.stops ++ manager.connections.elements

/-- The loop of `MonitorThread`: the iterator moves on before what it was at is erased. -/
def monitor (timedOut : Conn → Bool) : Nat → Option Conn → ConnectionManager Conn → ConnectionManager Conn
  | fuel+1, some cur, manager =>
    let it := manager.connections.after cur
    if timedOut cur then
      monitor timedOut fuel it
        {connections := manager.connections.erase cur,stops := manager.stops ++ [cur]}
    else monitor timedOut fuel it manager
  | _, _, manager => manager

def sweep (manager : ConnectionManager Conn) (now activeTime : Conn → Int) : ConnectionManager Conn :=
  monitor (fun c => isTimeOut (now c) (activeTime c)) manager.connections.elements.length
    manager.connections.first manager

def step (manager : ConnectionManager Conn) : Operation Conn → ConnectionManager Conn
  | .start c ok => manager.start c ok
  | .stop c => manager.stop c
  | .erase c => manager.erase c
  | .stopAll => manager.stopAll
  | .sweep now activeTime => manager.sweep now activeTime

def run (history : List (Operation Conn)) : ConnectionManager Conn := history.foldl step {}

@[simp] theorem run_snoc (history : List (Operation Conn)) (operation : Operation Conn) :
    run (history ++ [operation]) = (run history).step operation := by
  simp [run]

end ConnectionManager

namespace Operation
variable {Conn : Type}

/-- The connection that an operation starts, whether or not that succeeds. -/
def started : Operation Conn → Option Conn
  | .start c _ => some c
  | _ => none

theorem eq_start_of_started {operation : Operation Conn} {c : Conn} (begins : operation.started = some c) :
    ∃ ok, operation = .start c ok := by
  cases operation with
  | start d ok =>
    obtain rfl := Option.some.inj begins
    exact ⟨ok,rfl⟩
  | _ => cases begins

/-- Whether an operation takes a connection out of the set, if it is there. -/
def removes [DecidableEq Conn] : Operation Conn → Conn → Bool
  | .start _ _ => fun _ => false
  | .stop c | .erase c => (· = c)
  | .stopAll => fun _ => true
  | .sweep now activeTime => fun c => isTimeOut (now c) (activeTime c)

/-- Whether it stops what it takes out. -/
def stopsRemoved : Operation Conn → Bool
  | .erase _ => false
  | _ => true

end Operation

namespace ConnectionManager
variable {Conn : Type} [LinearOrder Conn]

/-- From an element on, the loop goes through the rest of the set. -/
theorem monitor_spec (timedOut : Conn → Bool) {fuel : Nat} (manager : ConnectionManager Conn) (kept : List Conn)
    {todo : List Conn} (split : manager.connections.elements = kept ++ todo) (enough : todo.length ≤ fuel) :
    (monitor timedOut fuel todo.head? manager).connections.elements = kept ++ todo.filter (!timedOut ·) ∧
      (monitor timedOut fuel todo.head? manager).stops = manager.stops ++ todo.filter timedOut := by
  induction todo generalizing fuel manager kept with
  | nil => simpa [monitor] using split
  | cons cur todo ih =>
    obtain ⟨fuel,rfl⟩ := Nat.exists_eq_add_one_of_ne_zero (Nat.ne_zero_of_lt enough)
    have enough : todo.length ≤ fuel := Nat.le_of_succ_le_succ enough
    simp only [List.head?_cons,monitor,OrderedSet.after_of_split split]
    split
    next late =>
      obtain ⟨rest,stopped⟩ := ih ⟨manager.connections.erase cur,manager.stops ++ [cur]⟩ kept
        (OrderedSet.erase_of_split split) enough
      rw [rest,stopped]
      simp [late]
    next alive =>
      obtain ⟨rest,stopped⟩ := ih manager (kept ++ [cur]) (by simpa using split) enough
      rw [rest,stopped]
      simp [alive]

/-- What an operation does that starts nothing. -/
theorem step_removal (manager : ConnectionManager Conn) (operation : Operation Conn)
    (none : operation.started = none) :
    (manager.step operation).connections = manager.connections.filter (!operation.removes ·) ∧
      (manager.step operation).stops = manager.stops ++
        if operation.stopsRemoved then manager.connections.elements.filter operation.removes else [] := by
  cases operation with
  | start c ok => cases none
  | stop c =>
    simp only [step,stop,Operation.stopsRemoved,Operation.removes,if_true]
    split
    next member =>
      rw [OrderedSet.erase_eq_filter,OrderedSet.elements_filter_eq member]
      exact ⟨by simp,rfl⟩
    next absent =>
      rw [OrderedSet.elements_filter_eq_nil absent,List.append_nil,OrderedSet.filter_eq_self]
      · exact ⟨rfl,rfl⟩
      · intro d member
        have distinct : d ≠ c := fun same => absent (same ▸ member)
        simp [distinct]
  | erase c =>
    simp [step,erase,OrderedSet.erase_eq_filter,Operation.removes,Operation.stopsRemoved]
  | stopAll =>
    simp only [step,stopAll,Operation.removes,Operation.stopsRemoved,if_true]
    rw [OrderedSet.filter_eq_empty (by simp)]
    exact ⟨rfl,by simp⟩
  | sweep now activeTime =>
    obtain ⟨rest,stopped⟩ := monitor_spec (fun c => isTimeOut (now c) (activeTime c)) manager [] rfl le_rfl
    exact ⟨OrderedSet.ext rest,stopped⟩

/-- After a start the connection is in the set or has been stopped. -/
theorem step_start (manager : ConnectionManager Conn) (c : Conn) (ok : Bool) :
    (manager.step (.start c ok)).connections = (if ok then manager.connections.insert c else manager.connections) ∧
      (manager.step (.start c ok)).stops = manager.stops ++ if ok then [] else [c] := by
  cases ok <;> simp [step,start]

theorem not_mem_of_not_started {history : List (Operation Conn)} {c : Conn}
    (absent : c ∉ history.filterMap Operation.started) :
    c ∉ (run history).connections ∧ c ∉ (run history).stops := by
  induction history using List.reverseRecOn with
  | nil => simp [run]
  | append_singleton history operation ih =>
    rw [List.filterMap_append,List.mem_append,not_or] at absent
    obtain ⟨unmanaged,unstopped⟩ := ih absent.1
    rw [run_snoc]
    cases begins : operation.started with
    | none =>
      obtain ⟨connections,stops⟩ := step_removal (run history) operation begins
      rw [connections,stops]
      refine ⟨by simp [unmanaged],?_⟩
      split <;> simp [unstopped,← OrderedSet.mem_def,unmanaged]
    | some d =>
      have distinct : c ≠ d := by simpa [begins] using absent.2
      obtain ⟨ok,rfl⟩ := Operation.eq_start_of_started begins
      obtain ⟨connections,stops⟩ := step_start (run history) d ok
      rw [connections,stops]
      cases ok <;> simp [unmanaged,unstopped,distinct]

/-- The stopped connections are different ones, and none of them is still managed. -/
theorem stops_nodup {history : List (Operation Conn)} (once : (history.filterMap Operation.started).Nodup) :
    (run history).stops.Nodup ∧ ∀ c ∈ (run history).connections, c ∉ (run history).stops := by
  induction history using List.reverseRecOn with
  | nil => simp [run]
  | append_singleton history operation ih =>
    rw [List.filterMap_append,List.nodup_append] at once
    obtain ⟨past,_,fresh⟩ := once
    obtain ⟨distinct,apart⟩ := ih past
    rw [run_snoc]
    cases begins : operation.started with
    | none =>
      obtain ⟨connections,stops⟩ := step_removal (run history) operation begins
      rw [connections,stops]
      constructor
      · split
        next =>
          rw [List.nodup_append]
          refine ⟨distinct,(run history).connections.sorted.nodup.filter _,?_⟩
          rintro c stopped d removed rfl
          exact apart c (List.mem_of_mem_filter removed) stopped
        next => simpa using distinct
      · intro c member
        obtain ⟨member,kept⟩ := OrderedSet.mem_filter.mp member
        have kept : operation.removes c = false := by simpa using kept
        split <;> simp [apart c member,kept]
    | some d =>
      obtain ⟨ok,rfl⟩ := Operation.eq_start_of_started begins
      have absent : d ∉ history.filterMap Operation.started := by
        intro earlier
        exact fresh d earlier d (by simp [Operation.started]) rfl
      obtain ⟨unmanaged,unstopped⟩ := not_mem_of_not_started absent
      obtain ⟨connections,stops⟩ := step_start (run history) d ok
      rw [connections,stops]
      cases ok with
      | true =>
        refine ⟨by simpa using distinct,?_⟩
        intro c member
        rcases OrderedSet.mem_insert.mp member with rfl | other
        · simpa using unstopped
        · simpa using apart c other
      | false =>
        refine ⟨List.nodup_append.mpr ⟨distinct,by simp,?_⟩,?_⟩
        · rintro c stopped d same rfl
          exact unstopped (List.mem_singleton.mp same ▸ stopped)
        · intro c member
          have other : c ≠ d := fun same => unmanaged (same ▸ member)
          simp [apart c member,other]

/-- The connection has been started, and no operation since then has taken it out. -/
def Managed (history : List (Operation Conn)) (c : Conn) : Prop :=
  ∃ before after, history = before ++ .start c true :: after ∧ ∀ operation ∈ after, operation.removes c = false

theorem managed_snoc (history : List (Operation Conn)) (operation : Operation Conn) (c : Conn) :
    Managed (history ++ [operation]) c ↔
      operation = .start c true ∨ Managed history c ∧ operation.removes c = false := by
  constructor
  · rintro ⟨before,after,same,kept⟩
    rcases List.eq_nil_or_concat' after with rfl | ⟨after,last,rfl⟩
    · exact .inl (List.singleton_inj.mp (List.append_inj' same rfl).2)
    · rw [← List.cons_append,← List.append_assoc] at same
      obtain ⟨rfl,one⟩ := List.append_inj' same rfl
      cases one
      right
      refine ⟨⟨before,after,rfl,fun earlier member => ?_⟩,kept operation (by simp)⟩
      exact kept earlier (by simp [member])
  · rintro (rfl | ⟨⟨before,after,rfl,kept⟩,last⟩)
    · exact ⟨history,[],rfl,by simp⟩
    · refine ⟨before,after ++ [operation],by simp,fun earlier member => ?_⟩
      rcases List.mem_append.mp member with past | one
      · exact kept earlier past
      · exact List.mem_singleton.mp one ▸ last

theorem mem_connections (history : List (Operation Conn)) (c : Conn) :
    c ∈ (run history).connections ↔ Managed history c := by
  induction history using List.reverseRecOn with
  | nil => simp [run,Managed]
  | append_singleton history operation ih =>
    rw [run_snoc,managed_snoc,← ih]
    cases begins : operation.started with
    | none =>
      have other : operation ≠ .start c true := by
        rintro rfl
        cases begins
      rw [(step_removal (run history) operation begins).1]
      simp [other]
    | some d =>
      obtain ⟨ok,rfl⟩ := Operation.eq_start_of_started begins
      rw [(step_start (run history) d ok).1]
      cases ok <;> simp [Operation.removes,eq_comm]

/-- A started connection is managed, has been stopped, or has been erased since. -/
theorem started_accounted (history : List (Operation Conn)) (c : Conn) (ok : Bool)
    (before after : List (Operation Conn)) (split : history = before ++ .start c ok :: after) :
    c ∈ (run history).connections ∨ c ∈ (run history).stops ∨ .erase c ∈ after := by
  subst split
  induction after using List.reverseRecOn with
  | nil =>
    rw [run_snoc]
    obtain ⟨connections,stops⟩ := step_start (run before) c ok
    rw [connections,stops]
    cases ok <;> simp
  | append_singleton after operation ih =>
    rw [← List.cons_append,← List.append_assoc,run_snoc]
    cases begins : operation.started with
    | none =>
      obtain ⟨connections,stops⟩ := step_removal (run (before ++ .start c ok :: after)) operation begins
      rw [connections,stops]
      rcases ih with managed | stopped | erased
      · cases removed : operation.removes c with
        | false => exact .inl (by simp [managed,removed])
        | true =>
          right
          cases operation with
          | start _ _ => cases begins
          | erase d =>
            right
            obtain rfl : c = d := by simpa [Operation.removes] using removed
            simp
          | stop _ | stopAll | sweep _ _ =>
            left
            simp only [Operation.stopsRemoved,if_true]
            exact List.mem_append_right _ (List.mem_filter.mpr ⟨managed,removed⟩)
      · exact .inr (.inl (List.mem_append_left _ stopped))
      · exact .inr (.inr (List.mem_append_left _ erased))
    | some d =>
      obtain ⟨ok',rfl⟩ := Operation.eq_start_of_started begins
      obtain ⟨connections,stops⟩ := step_start (run (before ++ .start c ok :: after)) d ok'
      rw [connections,stops]
      rcases ih with managed | stopped | erased
      · left
        cases ok' <;> simp [managed]
      · exact .inr (.inl (List.mem_append_left _ stopped))
      · exact .inr (.inr (List.mem_append_left _ erased))

/-- What is left of an operation: all of it; the insertion or the `Connection::Stop` that ends
it; the loop of `StopAll`; or the one of `MonitorThread`. -/
inductive Task (Conn : Type) where
  | enter (operation : Operation Conn)
  | insert (c : Conn)
  | stop (c : Conn)
  | stopEach (todo : List Conn)
  | monitor (timedOut : Conn → Bool) (fuel : Nat) (it : Option Conn)

def next : Task Conn → ConnectionManager Conn → ConnectionManager Conn × Option (Task Conn)
  | .enter (.start c ok), manager => (manager,some (if ok then .insert c else .stop c))
  | .enter (.stop c), manager =>
    if c ∈ manager.connections then ({manager with connections := manager.connections.erase c},some (.stop c))
    else (manager,none)
  | .enter (.erase c), manager => (manager.erase c,none)
  | .enter .stopAll, manager => (manager,some (.stopEach manager.connections.elements))
  | .enter (.sweep now activeTime), manager =>
    (manager,some (.monitor (fun c => isTimeOut (now c) (activeTime c)) manager.connections.elements.length
      manager.connections.first))
  | .insert c, manager => ({manager with connections := manager.connections.insert c},none)
  | .stop c, manager => ({manager with stops := manager.stops ++ [c]},none)
  | .stopEach (c :: todo), manager => ({manager with stops := manager.stops ++ [c]},some (.stopEach todo))
  | .stopEach [], manager => ({manager with connections := ∅},none)
  | .monitor timedOut (fuel+1) (some cur), manager =>
    let it := manager.connections.after cur
    if timedOut cur then
      ({connections := manager.connections.erase cur,stops := manager.stops ++ [cur]},some (.monitor timedOut fuel it))
    else (manager,some (.monitor timedOut fuel it))
  | .monitor _ _ _, manager => (manager,none)

def critical : Critical (ConnectionManager Conn) (Operation Conn) (Task Conn) := ⟨.enter,next⟩

def complete : Task Conn → ConnectionManager Conn → ConnectionManager Conn
  | .enter operation, manager => manager.step operation
  | .insert c, manager => {manager with connections := manager.connections.insert c}
  | .stop c, manager => {manager with stops := manager.stops ++ [c]}
  | .stopEach todo, manager => {connections := ∅,stops := manager.stops ++ todo}
  | .monitor timedOut fuel it, manager => manager.monitor timedOut fuel it

theorem critical_completes : (critical : Critical _ _ (Task Conn)).Completes complete := by
  intro task manager
  cases task with
  | enter operation =>
    cases operation with
    | start c ok => cases ok <;> rfl
    | stop c =>
      simp only [critical,next,complete,step,stop]
      split <;> rfl
    | erase c | stopAll | sweep now activeTime => rfl
  | insert c | stop c => rfl
  | stopEach todo => cases todo <;> simp [critical,next,complete]
  | monitor timedOut fuel it =>
    cases fuel with
    | zero => rfl
    | succ fuel =>
      cases it with
      | none => rfl
      | some cur =>
        simp only [critical,next,complete,monitor]
        split <;> rfl

theorem monitor_stops (timedOut : Conn → Bool) (fuel : Nat) (it : Option Conn) (manager : ConnectionManager Conn) :
    manager.stops <+: (monitor timedOut fuel it manager).stops := by
  induction fuel generalizing it manager with
  | zero => exact List.prefix_refl _
  | succ fuel ih =>
    cases it with
    | none => exact List.prefix_refl _
    | some cur =>
      simp only [monitor]
      split
      · exact (List.prefix_append _ [cur]).trans (ih _ ⟨manager.connections.erase cur,manager.stops ++ [cur]⟩)
      · exact ih _ _

/-- No operation takes a call of `Connection::Stop` back. -/
theorem complete_stops (task : Task Conn) (manager : ConnectionManager Conn) :
    manager.stops <+: (complete task manager).stops := by
  cases task with
  | enter operation =>
    simp only [complete]
    cases begins : operation.started with
    | none =>
      rw [(step_removal manager operation begins).2]
      exact List.prefix_append _ _
    | some c =>
      obtain ⟨ok,rfl⟩ := Operation.eq_start_of_started begins
      rw [(step_start manager c ok).2]
      exact List.prefix_append _ _
  | insert c => exact List.prefix_refl _
  | stop c => exact List.prefix_append _ _
  | stopEach todo => exact List.prefix_append _ _
  | monitor timedOut fuel it => exact monitor_stops timedOut fuel it manager

section
variable {Thread : Type}

/-- The operations in the order in which they get the mutex. -/
def operations (events : List (LockEvent Thread (Operation Conn))) : List (Operation Conn) :=
  events.filterMap LockEvent.operation

theorem stops_finish (state : Locked (ConnectionManager Conn) Thread (Task Conn)) :
    state.data.stops <+: (Critical.finish complete state).stops := by
  unfold Critical.finish
  split
  · exact List.prefix_refl _
  · exact complete_stops _ _

variable [DecidableEq Thread]

theorem finish_eq_run {events : List (LockEvent Thread (Operation Conn))}
    {state : Locked (ConnectionManager Conn) Thread (Task Conn)}
    (run : follow critical.step {data := {}} events = some state) :
    Critical.finish complete state = ConnectionManager.run (operations events) :=
  Critical.finish_run critical_completes run

theorem data_eq_run {events : List (LockEvent Thread (Operation Conn))}
    {state : Locked (ConnectionManager Conn) Thread (Task Conn)}
    (run : follow critical.step {data := {}} events = some state) (free : state.holder = none) :
    state.data = ConnectionManager.run (operations events) := by
  rw [← finish_eq_run run,Critical.finish,free]

/-- The books of the manager: at every moment, whenever the mutex is free, and at the end of
each sweep, compared with the moment at which it got the mutex. -/
structure Booked (events : List (LockEvent Thread (Operation Conn)))
    (state : Locked (ConnectionManager Conn) Thread (Task Conn)) : Prop where
  stoppedOnce : ∀ c, state.data.stops.count c ≤ 1
  managed : state.holder = none → ∀ c, c ∈ state.data.connections ↔ Managed (operations events) c
  swept : ∀ past thread now activeTime during, events = past ++ .lock thread (.sweep now activeTime) :: during →
    operations during = [] → state.holder = none → ∃ before, follow critical.step {data := {}} past = some before ∧
      state.data.connections.elements =
        before.data.connections.elements.filter (fun c => !isTimeOut (now c) (activeTime c)) ∧
      state.data.stops = before.data.stops ++
        before.data.connections.elements.filter fun c => isTimeOut (now c) (activeTime c)

theorem bookkeeping (events : List (LockEvent Thread (Operation Conn)))
    (state : Locked (ConnectionManager Conn) Thread (Task Conn))
    (run : follow critical.step {data := {}} events = some state)
    (once : ((operations events).filterMap Operation.started).Nodup) : Booked events state := by
  refine ⟨?stoppedOnce,?managed,?swept⟩
  case stoppedOnce =>
    have distinct := (stops_nodup once).1
    rw [← finish_eq_run run] at distinct
    exact List.nodup_iff_count_le_one.mp ((stops_finish state).sublist.nodup distinct)
  case managed =>
    intro free c
    rw [data_eq_run run free]
    exact mem_connections (operations events) c
  case swept =>
    rintro past thread now activeTime during rfl alone free
    have after := data_eq_run run free
    obtain ⟨before,first,rest⟩ := (follow_append _ _ _ _).mp run
    obtain ⟨locked,taken,_⟩ := (follow_cons _ _ _ _).mp rest
    have begins : before.holder = none := by
      cases held : before.holder with
      | none => rfl
      | some holder => simp [Critical.step,held] at taken
    have order : operations (past ++ .lock thread (.sweep now activeTime) :: during) =
        operations past ++ [.sweep now activeTime] := by
      unfold operations at alone ⊢
      simp [LockEvent.operation,alone]
    obtain ⟨connections,stops⟩ := step_removal (ConnectionManager.run (operations past)) (.sweep now activeTime) rfl
    refine ⟨before,first,?_,?_⟩
    · rw [after,order,run_snoc,connections,data_eq_run first begins]
      rfl
    · rw [after,order,run_snoc,stops,data_eq_run first begins]
      rfl

end

end ConnectionManager

/-- The second connection does not start, and the third times out; the thread of the first
one wants to stop it, as soon as it gets the mutex. -/
def sampleEvents : List (LockEvent Nat (Operation Nat)) :=
  [.lock 0 (.start 1 true),.advance 0,.advance 0,.lock 0 (.start 2 false),.advance 0,.advance 0,
    .lock 0 (.start 3 true),.advance 0,.advance 0,.lock 7 (.sweep (fun _ => 1000) fun c => if c = 3 then 669 else 670),
    .advance 7,.advance 7,.advance 7,.advance 7,.lock 1 (.stop 1),.advance 1,.advance 1]

theorem bookkeeping_sample :
    ∃ state, follow ConnectionManager.critical.step {data := {}} sampleEvents = some state ∧
      state.holder = none ∧ state.data.stops = [2,3,1] ∧ ConnectionManager.Booked sampleEvents state := by
  refine ⟨_,rfl,rfl,by decide,ConnectionManager.bookkeeping sampleEvents _ rfl (by decide)⟩

end FuturesCellProxy.Server
