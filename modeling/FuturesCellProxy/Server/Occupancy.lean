import FuturesCellProxy.Server.ConnectionLife
import FuturesCellProxy.Server.ServerBase

/-! The server with its connections and a clock: which connections the manager holds, and when
it lets go of them. The manager's mutex is held while the monitor goes through the set; the
connections go on meanwhile. -/
namespace FuturesCellProxy.Server
open Foundation

namespace LifeEvent

/-- The event is a step of the connection's own handlers, or of `PushMsg`. -/
def own : LifeEvent → Bool
  | start _ | stop | doClose => false
  | _ => true

/-- `HandleRead` without an error, which updates the active time. -/
def receives : LifeEvent → Bool
  | read 0 _ _ => true
  | _ => false

end LifeEvent

namespace Life

/-- The manager's `Stop` is called once, when the connection has come to its end. -/
structure Counted (life : Life) : Prop where
  single : life.chain + life.managerStops ≤ 1
  fresh : life.started = false → life.chain = 0 ∧ life.managerStops = 0 ∧ life.failed = false
  ends : life.started = true → life.chain + life.managerStops = if life.failed then 0 else 1

theorem counted_created (status : StatusType) : Counted (created status) :=
  ⟨Nat.zero_le _,fun _ => ⟨rfl,rfl,rfl⟩,fun started => nomatch started⟩

/-- A step that keeps what the connection does or turns it into something else. -/
theorem Counted.next {life after : Life} (counted : Counted life)
    (same : after.chain + after.managerStops = life.chain + life.managerStops)
    (started : after.started = life.started) (failed : after.failed = life.failed)
    (fresh : life.chain = 0 → after.chain = 0) : Counted after := by
  obtain ⟨single,new,ends⟩ := counted
  refine ⟨by omega,?_,?_⟩
  · intro unstarted
    obtain ⟨none,unstopped,fine⟩ := new (started ▸ unstarted)
    have still := fresh none
    exact ⟨still,by omega,failed.trans fine⟩
  · intro begun
    rw [same,failed]
    exact ends (started ▸ begun)

theorem counted_step {life after : Life} {event : LifeEvent} (counted : Counted life)
    (taken : life.step event = some after) : Counted after := by
  have single := counted.single
  cases step_cases taken with
  | start new =>
    obtain ⟨none,unstopped,fine⟩ := counted.fresh new
    simp only [chain] at none
    have one : chain {life with started := true,reads := life.reads + 1} = 1 := by
      simp only [chain]
      omega
    have total := congrArg₂ (· + ·) one unstopped
    refine ⟨total.le,?_,fun _ => ?_⟩
    · intro unstarted
      cases unstarted
    · rw [fine]
      exact total
  | noStart new =>
    obtain ⟨none,unstopped,_⟩ := counted.fresh new
    have total := congrArg₂ (· + ·) none unstopped
    refine ⟨total.le.trans (Nat.zero_le 1),?_,fun _ => total⟩
    intro unstarted
    cases unstarted
  | readFails error verdict keepAlive reading idle =>
    refine counted.next ?_ (by rfl) (by rfl) ?_ <;> simp only [chain,idle,if_true] at single ⊢ <;> omega
  | complete keepAlive reading idle | invalid keepAlive reading idle =>
    refine counted.next ?_ (by rfl) (by rfl) ?_ <;> simp [chain,idle] at single ⊢ <;> omega
  | handled reply request =>
    refine counted.next ?_ (by rfl) (by rfl) ?_ <;> simp [chain,request] at single ⊢
  | reply ready =>
    refine counted.next ?_ (by rfl) (by rfl) ?_ <;> simp [chain,ready] at single ⊢
    omega
  | ends error writing idle =>
    refine counted.next ?_ (by rfl) (by rfl) ?_ <;> simp only [chain,idle,if_true] at single ⊢ <;> omega
  | goesOn writing idle ok long =>
    refine counted.next ?_ (by rfl) (by rfl) ?_ <;> simp only [chain,idle,if_true] at single ⊢ <;> omega
  | indeterminate | stop => exact counted
  | pushMsg | pushWrite | pushed | doClose => exact counted.next rfl rfl rfl id

/-- What the connection's own steps leave alone. -/
theorem own_step {life after : Life} {event : LifeEvent} (own : event.own = true) (taken : life.step event = some after) :
    after.started = life.started ∧ after.failed = life.failed ∧ after.isOpen = life.isOpen ∧
      life.managerStops ≤ after.managerStops := by
  cases step_cases taken with
  | start | noStart | stop | doClose => cases own
  | readFails | ends => exact ⟨rfl,rfl,rfl,Nat.le_succ _⟩
  | _ => exact ⟨rfl,rfl,rfl,le_rfl⟩

theorem doClose_step {life after : Life} (taken : life.step .doClose = some after) : after = {life with isOpen := false} := by
  cases taken
  rfl

theorem start_step {life after : Life} {ok : Bool} (taken : life.step (.start ok) = some after) :
    life.started = false ∧ after.started = true ∧ after.failed = (life.failed || !ok) ∧ after.isOpen = life.isOpen ∧
      after.managerStops = life.managerStops := by
  cases step_cases taken with
  | start new => exact ⟨new,rfl,by simp,rfl,rfl⟩
  | noStart new => exact ⟨new,rfl,by simp,rfl,rfl⟩

end Life

/-- The connections by their numbers. `stopped` counts the calls of the manager's `Stop` that
have had the mutex, `closed` the posted calls of `DoClose` that have run. -/
structure RunningServer (Thread : Type) where
  server : ServerBase Thread := .constructed
  lives : Nat → Life
  activeTime : Nat → Int
  clock : Int
  stopped : Nat → Nat := fun _ => 0
  closed : Nat → Nat := fun _ => 0
  /-- While `MonitorThread` holds the mutex, the connections that its loop has still to come to. -/
  monitor : Option (List Nat) := none

inductive RunningEvent (Thread : Type) where
  | tick (seconds : Nat)
  | server (event : ServerEvent Thread)
  | life (c : Nat) (event : LifeEvent)
  | stop (c : Nat)
  | sweep
  | look
  | doClose (c : Nat)

namespace RunningServer
variable {Thread : Type} [DecidableEq Thread]

/-- The active time of a connection is set again when it is constructed. -/
def constructed (status : Nat → StatusType) (clock : Int) : RunningServer Thread where
  lives c := .created (status c)
  activeTime _ := clock
  clock

def connections (running : RunningServer Thread) : OrderedSet Nat := running.server.manager.connections

/-- On which connections `Connection::Stop` has been called. -/
def stops (running : RunningServer Thread) : List Nat := running.server.manager.stops

def step (running : RunningServer Thread) : RunningEvent Thread → Option (RunningServer Thread)
  | .tick seconds => some {running with clock := running.clock + seconds}
  | .server (.start thread ok) => do
    guard (running.monitor = none)
    let c := running.server.newConnection
    let server ← running.server.step (.start thread ok)
    let life ← (running.lives c).step (.start ok)
    return {running with server,lives := Function.update running.lives c life}
  | .server (.rearm thread) => do
    let server ← running.server.step (.rearm thread)
    return {running with server,activeTime := Function.update running.activeTime server.newConnection running.clock}
  | .server .stopAll => do
    guard (running.monitor = none)
    let server ← running.server.step .stopAll
    return {running with server}
  | .server (.manage _) => none
  | .server event => do
    let server ← running.server.step event
    return {running with server}
  | .life c event => do
    guard event.own
    let life ← (running.lives c).step event
    return {running with
      lives := Function.update running.lives c life
      activeTime := if event.receives then Function.update running.activeTime c running.clock else running.activeTime}
  | .stop c => do
    guard (running.monitor = none ∧ running.stopped c < (running.lives c).managerStops)
    return {running with
      server := running.server.manage (.stop c)
      stopped := Function.update running.stopped c (running.stopped c + 1)}
  | .sweep => do
    guard (running.monitor = none)
    return {running with monitor := some running.connections.elements}
  | .look =>
    match running.monitor with
    | some (c :: todo) =>
      -- the loop erases the connection and stops it
      if isTimeOut running.clock (running.activeTime c) then
        some {running with server := running.server.manage (.stop c),monitor := some todo}
      else some {running with monitor := some todo}
    | some [] => some {running with monitor := none}
    | none => none
  | .doClose c => do
    -- posted to the strand, so behind a handler that runs
    guard (running.closed c < running.stops.count c ∧ (running.lives c).handling = .idle)
    let life ← (running.lives c).step .doClose
    return {running with
      lives := Function.update running.lives c life
      closed := Function.update running.closed c (running.closed c + 1)}

/-- The steps one by one; those of the acceptor and its threads leave the manager alone. -/
inductive Steps (running : RunningServer Thread) : RunningEvent Thread → RunningServer Thread → Prop where
  | tick (seconds : Nat) : Steps running (.tick seconds) {running with clock := running.clock + seconds}
  | start (thread : Thread) (ok : Bool) (life : Life) (free : running.monitor = none)
      (checked : running.server.workers thread = .checked)
      (starts : (running.lives running.server.newConnection).step (.start ok) = some life) :
    Steps running (.server (.start thread ok)) {running with
      server := (running.server.manage (.start running.server.newConnection ok)).move thread .started
      lives := Function.update running.lives running.server.newConnection life}
  | rearm (thread : Thread) (started : running.server.workers thread = .started) :
    Steps running (.server (.rearm thread)) {running with
      server := running.server.startAcceptConnection.move thread .idle
      activeTime := Function.update running.activeTime (running.server.newConnection + 1) running.clock}
  | stopAll (free : running.monitor = none) (closed : running.server.stopping = .closed) :
    Steps running (.server .stopAll) {running with server := {running.server with stopping := .returned}.manage .stopAll}
  | aside (event : ServerEvent Thread) (server : ServerBase Thread) (taken : running.server.step event = some server)
      (operations : server.operations = running.server.operations)
      (newConnection : server.newConnection = running.server.newConnection) :
    Steps running (.server event) {running with server}
  | life (c : Nat) (event : LifeEvent) (life : Life) (own : event.own = true)
      (taken : (running.lives c).step event = some life) :
    Steps running (.life c event) {running with
      lives := Function.update running.lives c life
      activeTime := if event.receives then Function.update running.activeTime c running.clock else running.activeTime}
  | stop (c : Nat) (free : running.monitor = none) (called : running.stopped c < (running.lives c).managerStops) :
    Steps running (.stop c) {running with
      server := running.server.manage (.stop c)
      stopped := Function.update running.stopped c (running.stopped c + 1)}
  | sweep (free : running.monitor = none) :
    Steps running .sweep {running with monitor := some running.connections.elements}
  | kill (c : Nat) (todo : List Nat) (here : running.monitor = some (c :: todo))
      (late : isTimeOut running.clock (running.activeTime c) = true) :
    Steps running .look {running with server := running.server.manage (.stop c),monitor := some todo}
  | keep (c : Nat) (todo : List Nat) (here : running.monitor = some (c :: todo))
      (alive : isTimeOut running.clock (running.activeTime c) = false) :
    Steps running .look {running with monitor := some todo}
  | done (here : running.monitor = some []) : Steps running .look {running with monitor := none}
  | doClose (c : Nat) (life : Life) (posted : running.closed c < running.stops.count c)
      (idle : (running.lives c).handling = .idle) (taken : (running.lives c).step .doClose = some life) :
    Steps running (.doClose c) {running with
      lives := Function.update running.lives c life
      closed := Function.update running.closed c (running.closed c + 1)}

theorem look_cases {running after : RunningServer Thread} (taken : running.step .look = some after) :
    Steps running .look after := by
  rw [step] at taken
  cases here : running.monitor with
  | none => simp [here] at taken
  | some list =>
    rw [here] at taken
    cases list with
    | nil =>
      cases taken
      exact .done here
    | cons c todo =>
      dsimp only at taken
      split at taken
      next late =>
        cases taken
        exact .kill c todo here late
      next alive =>
        cases taken
        exact .keep c todo here (by simpa using alive)

theorem server_cases {running after : RunningServer Thread} {event : ServerEvent Thread}
    (taken : running.step (.server event) = some after) : Steps running (.server event) after := by
  cases event with
  | start thread ok =>
    simp only [step,Option.bind_eq_bind,Option.bind_eq_some_iff,Option.guard_eq_some',Option.pure_def] at taken
    obtain ⟨_,free,server,moved,life,starts,same⟩ := taken
    cases same
    cases ServerBase.step_cases moved with
    | start _ _ checked => exact .start thread ok life free checked starts
  | rearm thread =>
    simp only [step,Option.bind_eq_bind,Option.bind_eq_some_iff,Option.pure_def] at taken
    obtain ⟨server,moved,same⟩ := taken
    cases same
    cases ServerBase.step_cases moved with
    | rearm _ started => exact .rearm thread started
  | stopAll =>
    simp only [step,Option.bind_eq_bind,Option.bind_eq_some_iff,Option.guard_eq_some',Option.pure_def] at taken
    obtain ⟨_,free,server,moved,same⟩ := taken
    cases same
    cases ServerBase.step_cases moved with
    | stopAll closed => exact .stopAll free closed
  | manage => cases taken
  | accepted | check | close =>
    simp only [step,Option.bind_eq_bind,Option.bind_eq_some_iff,Option.pure_def] at taken
    obtain ⟨server,moved,same⟩ := taken
    cases same
    refine .aside _ server moved ?_ ?_ <;> cases ServerBase.step_cases moved <;> rfl

theorem step_cases {running after : RunningServer Thread} {event : RunningEvent Thread}
    (taken : running.step event = some after) : Steps running event after := by
  cases event with
  | tick seconds =>
    cases taken
    exact .tick seconds
  | server event => exact server_cases taken
  | life c event =>
    simp only [step,Option.bind_eq_bind,Option.bind_eq_some_iff,Option.guard_eq_some',Option.pure_def] at taken
    obtain ⟨_,own,life,moved,same⟩ := taken
    cases same
    exact .life c event life own moved
  | stop c =>
    simp only [step,Option.bind_eq_bind,Option.bind_eq_some_iff,Option.guard_eq_some',Option.pure_def] at taken
    obtain ⟨_,ready,same⟩ := taken
    cases same
    exact .stop c ready.1 ready.2
  | sweep =>
    simp only [step,Option.bind_eq_bind,Option.bind_eq_some_iff,Option.guard_eq_some',Option.pure_def] at taken
    obtain ⟨_,free,same⟩ := taken
    cases same
    exact .sweep free
  | look => exact look_cases taken
  | doClose c =>
    simp only [step,Option.bind_eq_bind,Option.bind_eq_some_iff,Option.guard_eq_some',Option.pure_def] at taken
    obtain ⟨_,⟨posted,idle⟩,life,moved,same⟩ := taken
    cases same
    exact .doClose c life posted idle moved

section Manager
variable {running after : RunningServer Thread}

omit [DecidableEq Thread] in
theorem connections_eq (operations : after.server.operations = running.server.operations) :
    after.connections = running.connections ∧ after.stops = running.stops := by
  simp only [connections,stops,ServerBase.manager,operations,and_self]

omit [DecidableEq Thread] in
theorem manager_snoc {operation : Operation Nat}
    (operations : after.server.operations = running.server.operations ++ [operation]) :
    after.server.manager = running.server.manager.step operation := by
  rw [ServerBase.manager,operations,ConnectionManager.run_snoc]
  rfl

omit [DecidableEq Thread] in
theorem mem_stop (running : RunningServer Thread) (c d : Nat) :
    d ∈ (running.server.manage (.stop c)).manager.connections ↔ d ∈ running.connections ∧ d ≠ c := by
  rw [ServerBase.manager_manage,(ConnectionManager.step_removal running.server.manager (.stop c) rfl).1,
    OrderedSet.mem_filter]
  simp [Operation.removes,connections]

/-- No other connection comes into the set with one that is started. -/
theorem mem_start (running : RunningServer Thread) (thread : Thread) {c d : Nat} (ok : Bool) (other : d ≠ c)
    (member : d ∈ ((running.server.manage (.start c ok)).move thread .started).manager.connections) :
    d ∈ running.connections := by
  change d ∈ (running.server.manage (.start c ok)).manager.connections at member
  rw [ServerBase.manager_manage,(ConnectionManager.step_start _ _ _).1] at member
  cases ok with
  | true => exact (OrderedSet.mem_insert.mp member).resolve_left other
  | false => exact member

omit [DecidableEq Thread] in
theorem mem_stops {c : Nat} {operation : Operation Nat} (removal : operation.started = none)
    (member : c ∈ (running.server.manage operation).manager.stops) :
    c ∈ running.stops ∨ operation.removes c = true := by
  rw [ServerBase.manager_manage,(ConnectionManager.step_removal running.server.manager operation removal).2,
    List.mem_append] at member
  rcases member with earlier | added
  · exact .inl earlier
  · right
    split at added
    · exact (List.mem_filter.mp added).2
    · cases added

end Manager

/-- What the server, the lives and the counts have to do with each other. -/
structure Kept (running : RunningServer Thread) : Prop where
  exclusive : running.server.Exclusive
  numbered : running.server.Numbered
  unerased : ∀ c, Operation.erase c ∉ running.server.operations
  counted : ∀ c, (running.lives c).Counted
  started : ∀ c, (running.lives c).started = true ↔ c ∈ running.server.operations.filterMap Operation.started
  held : ∀ c ∈ running.connections, (running.lives c).failed = false ∧ running.stopped c = 0
  called : ∀ c, running.stopped c ≤ (running.lives c).managerStops
  isOpen : ∀ c, (running.lives c).isOpen = true ↔ running.closed c = 0
  posted : ∀ c, running.closed c ≤ running.stops.count c
  todo : ∀ todo, running.monitor = some todo → todo.Nodup ∧ ∀ c ∈ todo, c ∈ running.connections

namespace Kept
variable {running after : RunningServer Thread}

omit [DecidableEq Thread] in
theorem constructed (status : Nat → StatusType) (clock : Int) :
    Kept (constructed status clock : RunningServer Thread) where
  exclusive := ServerBase.exclusive_constructed
  numbered := ⟨List.nodup_nil,fun _ member => (nomatch member),fun _ => List.not_mem_nil⟩
  unerased _ := List.not_mem_nil
  counted _ := Life.counted_created _
  started _ := iff_of_false (fun started => nomatch started) List.not_mem_nil
  held _ member := absurd member (OrderedSet.not_mem_empty _)
  called _ := le_rfl
  isOpen _ := iff_of_true rfl rfl
  posted _ := Nat.zero_le _
  todo _ here := nomatch here

omit [DecidableEq Thread] in
/-- A step that the manager and the connections have no part in. -/
theorem still (kept : Kept running) (exclusive : after.server.Exclusive) (numbered : after.server.Numbered)
    (operations : after.server.operations = running.server.operations) (lives : after.lives = running.lives)
    (stopped : after.stopped = running.stopped) (closed : after.closed = running.closed)
    (todo : ∀ todo, after.monitor = some todo → todo.Nodup ∧ ∀ c ∈ todo, c ∈ running.connections) : Kept after := by
  obtain ⟨sameConnections,sameStops⟩ := connections_eq operations
  refine ⟨exclusive,numbered,?_,?_,?_,?_,?_,?_,?_,?_⟩
  · rw [operations]
    exact kept.unerased
  · rw [lives]
    exact kept.counted
  · rw [lives,operations]
    exact kept.started
  · rw [lives,stopped,sameConnections]
    exact kept.held
  · rw [lives,stopped]
    exact kept.called
  · rw [lives,closed]
    exact kept.isOpen
  · rw [closed,sameStops]
    exact kept.posted
  · rw [sameConnections]
    exact todo

omit [DecidableEq Thread] in
/-- The manager takes connections out of the set. -/
theorem removes (kept : Kept running) {operation : Operation Nat} (removal : operation.started = none)
    (unerasing : ∀ c, operation ≠ .erase c) (exclusive : after.server.Exclusive) (numbered : after.server.Numbered)
    (operations : after.server.operations = running.server.operations ++ [operation])
    (lives : after.lives = running.lives) (closed : after.closed = running.closed)
    (called : ∀ c, after.stopped c ≤ (running.lives c).managerStops)
    (stopped : ∀ c ∈ after.connections, after.stopped c = running.stopped c)
    (todo : ∀ todo, after.monitor = some todo → todo.Nodup ∧ ∀ c ∈ todo, c ∈ after.connections) : Kept after := by
  obtain ⟨left,added⟩ := ConnectionManager.step_removal running.server.manager operation removal
  have remain (c : Nat) (member : c ∈ after.connections) : c ∈ running.connections := by
    rw [connections,manager_snoc operations,left] at member
    exact (OrderedSet.mem_filter.mp member).1
  refine ⟨exclusive,numbered,?_,?_,?_,?_,?_,?_,?_,todo⟩
  · intro c member
    rw [operations,List.mem_append,List.mem_singleton] at member
    rcases member with earlier | last
    · exact kept.unerased c earlier
    · exact unerasing c last.symm
  · rw [lives]
    exact kept.counted
  · intro c
    rw [lives,operations,List.filterMap_append,kept.started c]
    simp [removal]
  · intro c member
    rw [lives,stopped c member]
    exact kept.held c (remain c member)
  · rw [lives]
    exact called
  · rw [lives,closed]
    exact kept.isOpen
  · intro c
    rw [closed,stops,manager_snoc operations,added,List.count_append]
    exact (kept.posted c).trans (Nat.le_add_right _ _)

omit [DecidableEq Thread] in
/-- A connection goes on, and the manager does not hear of it yet. -/
theorem lives (kept : Kept running) {c : Nat} {life : Life} {closed : Nat} (server : after.server = running.server)
    (lives : after.lives = Function.update running.lives c life) (stopped : after.stopped = running.stopped)
    (closes : after.closed = Function.update running.closed c closed) (monitor : after.monitor = running.monitor)
    (counted : life.Counted) (started : life.started = (running.lives c).started)
    (failed : life.failed = (running.lives c).failed) (calls : (running.lives c).managerStops ≤ life.managerStops)
    (isOpen : life.isOpen = true ↔ closed = 0) (posted : closed ≤ running.stops.count c) : Kept after := by
  have cases (holds : Nat → Life → Nat → Prop) (here : holds c life closed)
      (there : ∀ d, holds d (running.lives d) (running.closed d)) (d : Nat) : holds d (after.lives d) (after.closed d) := by
    rw [lives,closes]
    by_cases same : d = c
    · subst same
      rwa [Function.update_self,Function.update_self]
    · rw [Function.update_of_ne same,Function.update_of_ne same]
      exact there d
  have sameConnections : after.connections = running.connections := by rw [connections,server,connections]
  have sameStops : after.stops = running.stops := by rw [stops,server,stops]
  refine ⟨server ▸ kept.exclusive,server ▸ kept.numbered,server ▸ kept.unerased,?_,?_,?_,?_,?_,?_,?_⟩
  · exact cases (fun _ life _ => life.Counted) counted kept.counted
  · rw [server]
    apply cases fun d life _ => life.started = true ↔ d ∈ running.server.operations.filterMap Operation.started
    · rw [started]
      exact kept.started c
    · exact kept.started
  · rw [sameConnections,stopped]
    apply cases fun d life _ => d ∈ running.connections → life.failed = false ∧ running.stopped d = 0
    · rw [failed]
      exact kept.held c
    · exact kept.held
  · rw [stopped]
    apply cases fun d life _ => running.stopped d ≤ life.managerStops
    · exact (kept.called c).trans calls
    · exact kept.called
  · exact cases (fun _ life closed => life.isOpen = true ↔ closed = 0) isOpen kept.isOpen
  · rw [sameStops]
    exact cases (fun d _ closed => closed ≤ running.stops.count d) posted kept.posted
  · rw [monitor,sameConnections]
    exact kept.todo

/-- The manager starts a connection that is new. -/
theorem starts (kept : Kept running) {thread : Thread} {ok : Bool} {life : Life} (free : running.monitor = none)
    (checked : running.server.workers thread = .checked)
    (starts : (running.lives running.server.newConnection).step (.start ok) = some life) : Kept {running with
      server := (running.server.manage (.start running.server.newConnection ok)).move thread .started
      lives := Function.update running.lives running.server.newConnection life} := by
  have taken : running.server.step (.start thread ok) =
      some ((running.server.manage (.start running.server.newConnection ok)).move thread .started) := by
    rw [ServerBase.step,if_pos checked]
  generalize fresh : running.server.newConnection = c at starts taken ⊢
  obtain ⟨new,begun,failed,isOpen,calls⟩ := Life.start_step starts
  obtain ⟨_,uncalled,fine⟩ := (kept.counted c).fresh new
  have absent : c ∉ running.server.operations.filterMap Operation.started := by
    rw [← kept.started c,new]
    exact Bool.false_ne_true
  obtain ⟨managed,added⟩ := ConnectionManager.step_start running.server.manager c ok
  have manager : ((running.server.manage (.start c ok)).move thread .started).manager =
      running.server.manager.step (.start c ok) := ServerBase.manager_manage _ _
  have cases (holds : Nat → Life → Prop) (here : holds c life) (there : ∀ d, d ≠ c → holds d (running.lives d)) (d : Nat) :
      holds d (Function.update running.lives c life d) := by
    by_cases same : d = c
    · subst same
      rwa [Function.update_self]
    · rw [Function.update_of_ne same]
      exact there d same
  refine ⟨ServerBase.exclusive_step kept.exclusive taken,ServerBase.numbered_step kept.exclusive kept.numbered taken,
    ?_,?_,?_,?_,?_,?_,?_,?_⟩
  · intro d member
    rcases List.mem_append.mp member with earlier | last
    · exact kept.unerased d earlier
    · cases List.mem_singleton.mp last
  · apply cases fun _ life => life.Counted
    · exact Life.counted_step (kept.counted c) starts
    · exact fun d _ => kept.counted d
  · have operations : ((running.server.manage (.start c ok)).move thread .started).operations.filterMap Operation.started =
        running.server.operations.filterMap Operation.started ++ [c] := by
      simp [ServerBase.move,ServerBase.manage,Operation.started]
    rw [operations]
    apply cases fun d life => life.started = true ↔ d ∈ running.server.operations.filterMap Operation.started ++ [c]
    · simp [begun]
    · intro d other
      rw [kept.started d]
      simp [other]
  · apply cases fun d life => d ∈ ((running.server.manage (.start c ok)).move thread .started).manager.connections →
      life.failed = false ∧ running.stopped d = 0
    · intro member
      have none : running.stopped c = 0 := Nat.le_zero.mp (uncalled ▸ kept.called c)
      refine ⟨?_,none⟩
      rw [failed,fine]
      cases ok with
      | true => rfl
      | false =>
        rw [manager,managed] at member
        exact absurd member (ConnectionManager.not_mem_of_not_started absent).1
    · exact fun d other member => kept.held d (mem_start running thread ok other member)
  · apply cases fun d life => running.stopped d ≤ life.managerStops
    · rw [calls]
      exact kept.called c
    · exact fun d _ => kept.called d
  · apply cases fun d life => life.isOpen = true ↔ running.closed d = 0
    · rw [isOpen]
      exact kept.isOpen c
    · exact fun d _ => kept.isOpen d
  · intro d
    change running.closed d ≤ ((running.server.manage (.start c ok)).move thread .started).manager.stops.count d
    rw [manager,added,List.count_append]
    exact (kept.posted d).trans (Nat.le_add_right _ _)
  · intro todo here
    cases free.symm.trans here

theorem step (kept : Kept running) {event : RunningEvent Thread} (taken : running.step event = some after) : Kept after := by
  cases step_cases taken with
  | tick seconds => exact kept.still kept.exclusive kept.numbered rfl rfl rfl rfl kept.todo
  | start thread ok life free checked begins => exact kept.starts free checked begins
  | rearm thread started =>
    have moved : running.server.step (.rearm thread) = some (running.server.startAcceptConnection.move thread .idle) := by
      rw [ServerBase.step,if_pos started]
    exact kept.still (ServerBase.exclusive_step kept.exclusive moved)
      (ServerBase.numbered_step kept.exclusive kept.numbered moved) rfl rfl rfl rfl kept.todo
  | stopAll free closed =>
    have moved : running.server.step .stopAll = some ({running.server with stopping := .returned}.manage .stopAll) := by
      rw [ServerBase.step,if_pos closed]
    refine kept.removes rfl ?_ (ServerBase.exclusive_step kept.exclusive moved)
      (ServerBase.numbered_step kept.exclusive kept.numbered moved) rfl rfl rfl kept.called (fun _ _ => rfl) ?_
    · intro d same
      cases same
    · intro todo here
      cases free.symm.trans here
  | aside event server moved operations _ =>
    exact kept.still (ServerBase.exclusive_step kept.exclusive moved)
      (ServerBase.numbered_step kept.exclusive kept.numbered moved) operations rfl rfl rfl kept.todo
  | life c event life own moved =>
    obtain ⟨started,failed,isOpen,calls⟩ := Life.own_step own moved
    refine kept.lives rfl rfl rfl (Function.update_eq_self c _).symm rfl (Life.counted_step (kept.counted c) moved) started
      failed calls ?_ (kept.posted c)
    rw [isOpen]
    exact kept.isOpen c
  | stop c free called =>
    have moved : running.server.step (.manage (.stop c)) = some (running.server.manage (.stop c)) := rfl
    refine kept.removes rfl ?_ (ServerBase.exclusive_step kept.exclusive moved)
      (ServerBase.numbered_step kept.exclusive kept.numbered moved) rfl rfl rfl ?_ ?_ ?_
    · intro d same
      cases same
    · intro d
      dsimp only
      by_cases same : d = c
      · subst same
        rwa [Function.update_self]
      · rw [Function.update_of_ne same]
        exact kept.called d
    · intro d member
      exact Function.update_of_ne ((mem_stop running c d).mp member).2 _ _
    · intro todo here
      cases free.symm.trans here
  | sweep free =>
    refine kept.still kept.exclusive kept.numbered rfl rfl rfl rfl ?_
    intro todo here
    cases here
    exact ⟨running.connections.sorted.nodup,fun _ member => member⟩
  | kill c todo here late =>
    have moved : running.server.step (.manage (.stop c)) = some (running.server.manage (.stop c)) := rfl
    refine kept.removes rfl ?_ (ServerBase.exclusive_step kept.exclusive moved)
      (ServerBase.numbered_step kept.exclusive kept.numbered moved) rfl rfl rfl kept.called (fun _ _ => rfl) ?_
    · intro d same
      cases same
    · intro rest same
      cases same
      obtain ⟨distinct,inside⟩ := kept.todo _ here
      obtain ⟨absent,distinct⟩ := List.nodup_cons.mp distinct
      refine ⟨distinct,fun d member => (mem_stop running c d).mpr ⟨inside d (List.mem_cons_of_mem _ member),?_⟩⟩
      rintro rfl
      exact absent member
  | keep c todo here alive =>
    refine kept.still kept.exclusive kept.numbered rfl rfl rfl rfl ?_
    intro rest same
    cases same
    obtain ⟨distinct,inside⟩ := kept.todo _ here
    exact ⟨(List.nodup_cons.mp distinct).2,fun d member => inside d (List.mem_cons_of_mem _ member)⟩
  | done here =>
    refine kept.still kept.exclusive kept.numbered rfl rfl rfl rfl ?_
    intro todo same
    cases same
  | doClose c life posted idle moved =>
    obtain rfl := Life.doClose_step moved
    refine kept.lives rfl rfl rfl rfl rfl (Life.counted_step (kept.counted c) moved) rfl rfl le_rfl ?_ posted
    exact iff_of_false Bool.false_ne_true (Nat.succ_ne_zero _)

end Kept

theorem kept_run {status : Nat → StatusType} {clock : Int} {events : List (RunningEvent Thread)}
    {running : RunningServer Thread} (run : follow step (constructed status clock) events = some running) :
    Kept running :=
  follow_invariant (fun _ _ _ kept taken => Kept.step kept taken) (.constructed status clock) run

/-- The manager holds the connections that are served, and the others are stopped and closed. -/
structure Occupied (running : RunningServer Thread) : Prop where
  once : running.stops.Nodup
  apart : ∀ c ∈ running.connections, c ∉ running.stops
  accounted : ∀ c, (running.lives c).started = true ↔ c ∈ running.connections ∨ c ∈ running.stops
  /-- One operation or handler of it is under way, or the manager's `Stop` has been called for it
  and goes on when no sweep holds the mutex. -/
  served : ∀ c ∈ running.connections, (running.lives c).chain = 1 ∨
    (running.lives c).chain = 0 ∧ running.stopped c < (running.lives c).managerStops ∧
      (running.monitor = none → ∃ after, running.step (.stop c) = some after)
  /-- A socket that is still open is held, or its `DoClose` is posted and runs when no handler
  of its strand does. -/
  closing : ∀ c, (running.lives c).started = true → (running.lives c).isOpen = true →
    c ∈ running.connections ∨ running.closed c < running.stops.count c ∧
      ((running.lives c).handling = .idle → ∃ after, running.step (.doClose c) = some after)
  closed : ∀ c, (running.lives c).isOpen = false → c ∈ running.stops ∧ running.closed c = 1

theorem stop_goes {running : RunningServer Thread} {c : Nat} (free : running.monitor = none)
    (called : running.stopped c < (running.lives c).managerStops) : ∃ after, running.step (.stop c) = some after := by
  simp only [step,free,called,and_self,guard_true,Option.pure_def,Option.bind_eq_bind,Option.bind_some]
  exact ⟨_,rfl⟩

theorem life_goes {running : RunningServer Thread} {c : Nat} {event : LifeEvent} {life : Life} (own : event.own = true)
    (taken : (running.lives c).step event = some life) : ∃ after, running.step (.life c event) = some after := by
  simp only [step,own,taken,guard_true,Option.pure_def,Option.bind_eq_bind,Option.bind_some]
  exact ⟨_,rfl⟩

theorem doClose_goes {running : RunningServer Thread} {c : Nat} (posted : running.closed c < running.stops.count c)
    (idle : (running.lives c).handling = .idle) : ∃ after, running.step (.doClose c) = some after := by
  simp only [step,posted,idle,and_self,guard_true,Option.pure_def,Option.bind_eq_bind,Option.bind_some,Life.step]
  exact ⟨_,rfl⟩

theorem Kept.occupied {running : RunningServer Thread} (kept : Kept running) : Occupied running := by
  have once : running.stops.Nodup := (ConnectionManager.stops_nodup kept.numbered.distinct).1
  have apart := (ConnectionManager.stops_nodup kept.numbered.distinct).2
  have accounted (c : Nat) : (running.lives c).started = true ↔ c ∈ running.connections ∨ c ∈ running.stops := by
    rw [kept.started c]
    constructor
    · intro started
      obtain ⟨operation,member,begins⟩ := List.mem_filterMap.mp started
      obtain ⟨ok,rfl⟩ := Operation.eq_start_of_started begins
      obtain ⟨before,after,split⟩ := List.append_of_mem member
      rcases ConnectionManager.started_accounted running.server.operations c ok before after split with
        managed | stopped | erased
      · exact .inl managed
      · exact .inr stopped
      · exact absurd (by simp [split,erased]) (kept.unerased c)
    · intro known
      by_contra absent
      obtain ⟨unmanaged,unstopped⟩ := ConnectionManager.not_mem_of_not_started absent
      exact known.elim unmanaged unstopped
  refine ⟨once,apart,accounted,?_,?_,?_⟩
  · intro c member
    obtain ⟨fine,uncalled⟩ := kept.held c member
    have ends := (kept.counted c).ends ((accounted c).mpr (.inl member))
    rw [fine] at ends
    by_cases ended : (running.lives c).chain = 0
    · right
      have called : running.stopped c < (running.lives c).managerStops := by
        simp only [ended,Bool.false_eq_true,if_false] at ends
        omega
      exact ⟨ended,called,fun free => stop_goes free called⟩
    · left
      simp only [Bool.false_eq_true,if_false] at ends
      omega
  · intro c started isOpen
    rcases (accounted c).mp started with managed | stopped
    · exact .inl managed
    · right
      have none := (kept.isOpen c).mp isOpen
      have posted : running.closed c < running.stops.count c := by
        rw [none]
        exact List.count_pos_iff.mpr stopped
      exact ⟨posted,doClose_goes posted⟩
  · intro c shut
    have some : running.closed c ≠ 0 := by
      intro none
      rw [(kept.isOpen c).mpr none] at shut
      cases shut
    have count := kept.posted c
    have single := List.nodup_iff_count_le_one.mp once c
    exact ⟨List.count_pos_iff.mp (by omega),by omega⟩

/-- In every run of the server with its connections, the manager's set is exactly what has been
started and not yet stopped; what is in it is served, or the manager's `Stop` has been called for it;
what is not is stopped once, and its socket is closed or `DoClose` posted. -/
theorem connections_accounted (status : Nat → StatusType) (clock : Int) (events : List (RunningEvent Thread))
    (running : RunningServer Thread) (run : follow step (constructed status clock) events = some running) :
    Occupied running :=
  (kept_run run).occupied

/-- Two connections: one has been answered and falls silent, the other is still sending when the
monitor comes; the first is closed, its read fails, and it tells the manager so. -/
def silentAndBusy : List (RunningEvent Unit) :=
  [.server (.accepted () 0),.server (.check ()),.server (.start () true),.server (.rearm ()),
    .life 1 (.read 0 .complete true),.life 1 (.handled (buidlReply (ascii "done"))),.life 1 .reply,.life 1 (.written 0),
    .server (.accepted () 0),.server (.check ()),.server (.start () true),.server (.rearm ()),
    .tick 331,.life 2 (.read 0 .indeterminate false)]

def sweptOnce : List (RunningEvent Unit) := [.sweep,.look,.look,.look,.doClose 1]

def failedThen : List (RunningEvent Unit) := [.life 1 (.read 125 .indeterminate false),.stop 1]

def fresh : RunningServer Unit := constructed (fun _ => .ok) 0

theorem connections_accounted_two :
    ∃ running, follow step fresh (silentAndBusy ++ sweptOnce ++ failedThen) = some running ∧
      running.connections.elements = [2] ∧ running.stops = [1] ∧ Occupied running := by
  obtain ⟨running,run⟩ := Option.isSome_iff_exists.mp
    (show (follow step fresh (silentAndBusy ++ sweptOnce ++ failedThen)).isSome by decide +kernel)
  have seen : (follow step fresh (silentAndBusy ++ sweptOnce ++ failedThen)).map
      (fun running => (running.connections.elements,running.stops)) = some ([2],[1]) := by decide +kernel
  rw [run] at seen
  obtain ⟨held,stopped⟩ := Prod.mk.inj (Option.some.inj seen)
  exact ⟨running,run,held,stopped,connections_accounted _ _ _ running run⟩

end RunningServer

end FuturesCellProxy.Server
