import FuturesCellProxy.Foundation.Machine
import FuturesCellProxy.Server.ConnectionManager
import Mathlib.Logic.Function.Basic

/-! The acceptor and the threads of the server. A thread that handles an accepted connection
looks at the acceptor, starts the connection and accepts the next one in three steps, between
which the other threads go on. -/
namespace FuturesCellProxy.Server
open Foundation

/-- Where a thread is in `HandleNewConnection`: in front of the look at the acceptor, of the
manager's `Start`, or of the next accept. An error code of 0 is none. -/
inductive Worker where
  | idle
  | entered (error : Nat)
  | checked
  | started
  deriving DecidableEq, Repr

/-- The thread has found the acceptor open. -/
def Worker.passed : Worker → Bool
  | .checked | .started => true
  | _ => false

/-- How far `ServerStop` is. -/
inductive Stopping where
  | running | closed | returned
  deriving DecidableEq, Repr

structure ServerBase (Thread : Type) where
  stopping : Stopping := .running
  accepts : Nat := 0
  newConnection : Nat := 0
  workers : Thread → Worker := fun _ => .idle
  /-- What the manager has been called for. -/
  operations : List (Operation Nat) := []

inductive ServerEvent (Thread : Type) where
  | accepted (thread : Thread) (error : Nat)
  | check (thread : Thread)
  | start (thread : Thread) (ok : Bool)
  | rearm (thread : Thread)
  | close
  | stopAll
  | manage (operation : Operation Nat)

namespace ServerBase
variable {Thread : Type}

def isOpen (server : ServerBase Thread) : Bool := server.stopping = .running

def manager (server : ServerBase Thread) : ConnectionManager Nat := ConnectionManager.run server.operations

def startAcceptConnection (server : ServerBase Thread) : ServerBase Thread :=
  {server with newConnection := server.newConnection + 1,accepts := server.accepts + 1}

def manage (server : ServerBase Thread) (operation : Operation Nat) : ServerBase Thread :=
  {server with operations := server.operations ++ [operation]}

def constructed : ServerBase Thread := startAcceptConnection {}

/-- The accepts come one after the other: while a thread handles one, none is outstanding
and no other thread handles one. -/
structure Exclusive (server : ServerBase Thread) : Prop where
  atMostOne : server.accepts ≤ 1
  quiet : 0 < server.accepts → ∀ thread, server.workers thread = .idle
  alone : ∀ thread other, server.workers thread ≠ .idle → server.workers other ≠ .idle → thread = other

theorem exclusive_constructed : Exclusive (constructed : ServerBase Thread) :=
  ⟨le_rfl,fun _ _ => rfl,fun _ _ busy => absurd rfl busy⟩

theorem Exclusive.busy {server : ServerBase Thread} (exclusive : Exclusive server) {thread : Thread}
    (busy : server.workers thread ≠ .idle) :
    server.accepts = 0 ∧ ∀ other ≠ thread, server.workers other = .idle := by
  constructor
  · by_contra armed
    exact busy (exclusive.quiet (Nat.pos_of_ne_zero armed) thread)
  · intro other distinct
    by_contra also
    exact distinct (exclusive.alone other thread also busy)

/-- An open acceptor is armed, or a thread is about to arm it. -/
def Armed (server : ServerBase Thread) : Prop :=
  server.isOpen = true → server.accepts = 1 ∨ ∃ thread, server.workers thread ≠ .idle

/-- While the acceptor is open and no thread handles a connection, one accept is outstanding. -/
def Accepting (server : ServerBase Thread) : Prop :=
  server.isOpen = true → (∀ thread, server.workers thread = .idle) → server.accepts = 1

/-- No accept comes to be handled with an error as long as the acceptor is open. -/
def Unfailing (server : ServerBase Thread) (event : ServerEvent Thread) : Prop :=
  ∀ thread error, event = .check thread → server.workers thread = .entered error → server.isOpen = true → error = 0

theorem Armed.accepting {server : ServerBase Thread} (armed : Armed server) : Accepting server := by
  intro isOpen quiet
  rcases armed isOpen with one | ⟨thread,busy⟩
  · exact one
  · exact absurd (quiet thread) busy

/-- Once `ServerStop` has returned and the threads that found the acceptor open are through,
the manager has no connection, and each that was ever started has been stopped or erased. -/
def CleanlyStopped (server : ServerBase Thread) : Prop :=
  server.stopping = .returned → (∀ thread, (server.workers thread).passed = false) →
    server.manager.connections = ∅ ∧ ∀ before c ok after, server.operations = before ++ .start c ok :: after →
      c ∈ server.manager.stops ∨ .erase c ∈ after

/-- No connection starts once `StopAll` has gone through the set. -/
def Prompt (server : ServerBase Thread) (event : ServerEvent Thread) : Prop :=
  ∀ thread, event = .start thread true → server.workers thread = .checked → server.stopping ≠ .returned

/-- `StopAll` does not begin between the look of a thread at the acceptor and its start. -/
def Quiet (server : ServerBase Thread) (event : ServerEvent Thread) : Prop :=
  event = .stopAll → ∀ thread, server.workers thread ≠ .checked

def Cleared (server : ServerBase Thread) : Prop :=
  server.stopping = .returned → server.manager.connections = ∅

@[simp] theorem manager_manage (server : ServerBase Thread) (operation : Operation Nat) :
    (server.manage operation).manager = server.manager.step operation := by
  simp [manager,manage]

theorem Cleared.cleanlyStopped {server : ServerBase Thread} (cleared : Cleared server) : CleanlyStopped server := by
  intro returned _
  have empty := cleared returned
  refine ⟨empty,?_⟩
  intro before c ok after split
  rcases ConnectionManager.started_accounted server.operations c ok before after split with managed | settled
  · change c ∈ server.manager.connections at managed
    rw [empty] at managed
    exact absurd managed (OrderedSet.not_mem_empty c)
  · exact settled

section
variable [DecidableEq Thread]

def move (server : ServerBase Thread) (thread : Thread) (worker : Worker) : ServerBase Thread :=
  {server with workers := Function.update server.workers thread worker}

/-- The steps of `HandleNewConnection`, the two of `ServerStop`, and the calls that the
connections and the monitor make of the manager. -/
def step (server : ServerBase Thread) : ServerEvent Thread → Option (ServerBase Thread)
  | .accepted thread error =>
    if 0 < server.accepts ∧ server.workers thread = .idle then
      some ({server with accepts := server.accepts - 1}.move thread (.entered error))
    else none
  | .check thread =>
    match server.workers thread with
    | .entered error =>
      if !server.isOpen then some (server.move thread .idle)
      else if error = 0 then some (server.move thread .checked)
      else some (server.move thread .idle)
    | _ => none
  | .start thread ok =>
    if server.workers thread = .checked then
      some ((server.manage (.start server.newConnection ok)).move thread .started)
    else none
  | .rearm thread =>
    if server.workers thread = .started then some (server.startAcceptConnection.move thread .idle) else none
  | .close => if server.stopping = .running then some {server with stopping := .closed} else none
  | .stopAll =>
    if server.stopping = .closed then some ({server with stopping := .returned}.manage .stopAll) else none
  | .manage operation => if operation.started = none then some (server.manage operation) else none

@[simp] theorem move_self (server : ServerBase Thread) (thread : Thread) (worker : Worker) :
    (server.move thread worker).workers thread = worker := Function.update_self _ _ _

theorem move_of_ne (server : ServerBase Thread) {thread other : Thread} (worker : Worker) (distinct : other ≠ thread) :
    (server.move thread worker).workers other = server.workers other := Function.update_of_ne distinct _ _

/-- The steps one by one. -/
inductive Steps (server : ServerBase Thread) : ServerEvent Thread → ServerBase Thread → Prop where
  | accepted (thread : Thread) (error : Nat) (armed : 0 < server.accepts) (idle : server.workers thread = .idle) :
    Steps server (.accepted thread error) ({server with accepts := server.accepts - 1}.move thread (.entered error))
  | shut (thread : Thread) (error : Nat) (entered : server.workers thread = .entered error)
      (isShut : server.isOpen = false) : Steps server (.check thread) (server.move thread .idle)
  | failed (thread : Thread) (error : Nat) (entered : server.workers thread = .entered error)
      (isOpen : server.isOpen = true) (fails : error ≠ 0) : Steps server (.check thread) (server.move thread .idle)
  | passed (thread : Thread) (entered : server.workers thread = .entered 0) (isOpen : server.isOpen = true) :
    Steps server (.check thread) (server.move thread .checked)
  | start (thread : Thread) (ok : Bool) (checked : server.workers thread = .checked) :
    Steps server (.start thread ok) ((server.manage (.start server.newConnection ok)).move thread .started)
  | rearm (thread : Thread) (started : server.workers thread = .started) :
    Steps server (.rearm thread) (server.startAcceptConnection.move thread .idle)
  | close (running : server.stopping = .running) : Steps server .close {server with stopping := .closed}
  | stopAll (closed : server.stopping = .closed) :
    Steps server .stopAll ({server with stopping := .returned}.manage .stopAll)
  | manage (operation : Operation Nat) (none : operation.started = none) :
    Steps server (.manage operation) (server.manage operation)

theorem step_cases {server after : ServerBase Thread} {event : ServerEvent Thread}
    (taken : server.step event = some after) : Steps server event after := by
  unfold step at taken
  split at taken
  next thread error =>
    split at taken
    next ready =>
      cases taken
      exact .accepted thread error ready.1 ready.2
    next => cases taken
  next thread =>
    split at taken
    next error entered =>
      split at taken
      next isShut =>
        cases taken
        exact .shut thread error entered (by simpa using isShut)
      next notShut =>
        have isOpen : server.isOpen = true := by simpa using notShut
        split at taken
        next fine =>
          cases taken
          exact .passed thread (fine ▸ entered) isOpen
        next fails =>
          cases taken
          exact .failed thread error entered isOpen fails
    next => cases taken
  next thread ok =>
    split at taken
    next checked =>
      cases taken
      exact .start thread ok checked
    next => cases taken
  next thread =>
    split at taken
    next started =>
      cases taken
      exact .rearm thread started
    next => cases taken
  next =>
    split at taken
    next running =>
      cases taken
      exact .close running
    next => cases taken
  next =>
    split at taken
    next closed =>
      cases taken
      exact .stopAll closed
    next => cases taken
  next operation =>
    split at taken
    next none =>
      cases taken
      exact .manage operation none
    next => cases taken

theorem exclusive_step {server after : ServerBase Thread} {event : ServerEvent Thread} (exclusive : Exclusive server)
    (taken : server.step event = some after) : Exclusive after := by
  -- a thread that moves alone stays alone
  have alone (thread : Thread) (worker : Worker) (others : ∀ other ≠ thread, server.workers other = .idle)
      (first second : Thread) (one : (server.move thread worker).workers first ≠ .idle)
      (two : (server.move thread worker).workers second ≠ .idle) : first = second := by
    have only (other : Thread) (busy : (server.move thread worker).workers other ≠ .idle) : other = thread := by
      by_contra distinct
      exact busy (by rw [move_of_ne server worker distinct,others other distinct])
    rw [only first one,only second two]
  -- and moves nothing else while no accept is outstanding
  have goes (thread : Thread) (worker : Worker) (operations : List (Operation Nat))
      (busy : server.workers thread ≠ .idle) : Exclusive ({server with operations := operations}.move thread worker) := by
    obtain ⟨none,others⟩ := exclusive.busy busy
    refine ⟨exclusive.atMostOne,fun armed => ?_,alone thread worker others⟩
    change 0 < server.accepts at armed
    omega
  cases step_cases taken with
  | accepted thread error armed idle =>
    have one := exclusive.atMostOne
    refine ⟨(Nat.sub_le _ _).trans one,fun more => ?_,alone thread _ fun other _ => exclusive.quiet armed other⟩
    change 0 < server.accepts - 1 at more
    omega
  | shut thread error entered | failed thread error entered | passed thread entered =>
    exact goes thread _ _ (by simp [entered])
  | start thread ok checked => exact goes thread _ _ (by simp [checked])
  | rearm thread started =>
    have busy : server.workers thread ≠ .idle := by simp [started]
    obtain ⟨none,others⟩ := exclusive.busy busy
    refine ⟨by simp [move,startAcceptConnection,none],fun _ other => ?_,alone thread .idle others⟩
    by_cases same : other = thread
    · rw [same,move_self]
    · rw [move_of_ne _ _ same]
      exact others other same
  | close | stopAll | manage => exact ⟨exclusive.atMostOne,exclusive.quiet,exclusive.alone⟩

theorem armed_step {server after : ServerBase Thread} {event : ServerEvent Thread} (exclusive : Exclusive server)
    (armed : Armed server) (unfailing : Unfailing server event) (taken : server.step event = some after) :
    Armed after := by
  cases step_cases taken with
  | accepted thread | passed thread | start thread => exact fun _ => .inr ⟨thread,by simp⟩
  | shut thread error entered isShut => exact fun isOpen => Bool.noConfusion (isShut.symm.trans isOpen)
  | failed thread error entered isOpen fails => exact absurd (unfailing thread error rfl entered isOpen) fails
  | rearm thread started =>
    have busy : server.workers thread ≠ .idle := by simp [started]
    have none := (exclusive.busy busy).1
    exact fun _ => .inl (by simp [move,startAcceptConnection,none])
  | close | stopAll => exact fun isOpen => nomatch isOpen
  | manage => exact armed

/-- After an accept that failed nothing is outstanding and no thread goes on. -/
theorem failed_accept {server : ServerBase Thread} {event : ServerEvent Thread} (exclusive : Exclusive server)
    (fails : ¬ Unfailing server event) : ∃ after, server.step event = some after ∧ ¬ Accepting after := by
  simp only [Unfailing,not_forall] at fails
  obtain ⟨thread,error,rfl,entered,isOpen,failed⟩ := fails
  have busy : server.workers thread ≠ .idle := by simp [entered]
  obtain ⟨none,others⟩ := exclusive.busy busy
  refine ⟨server.move thread .idle,by simp [step,entered,isOpen,failed],?_⟩
  intro accepting
  have quiet (other : Thread) : (server.move thread .idle).workers other = .idle := by
    by_cases same : other = thread
    · rw [same,move_self]
    · rw [move_of_ne server .idle same,others other same]
  have one : server.accepts = 1 := accepting isOpen quiet
  omega

/-- The server keeps accepting in exactly the runs in which no accept fails while the
acceptor is open. -/
theorem keeps_accepting (events : List (ServerEvent Thread)) :
    Always step Accepting constructed events ↔ Along step Unfailing constructed events := by
  apply always_iff_along fun server => Exclusive server ∧ Armed server
  · rintro server event after ⟨exclusive,armed⟩ unfailing taken
    exact ⟨exclusive_step exclusive taken,armed_step exclusive armed unfailing taken⟩
  · rintro server ⟨_,armed⟩
    exact armed.accepting
  · rintro server event ⟨exclusive,_⟩ fails
    exact failed_accept exclusive fails
  · exact ⟨exclusive_constructed,fun _ => .inl rfl⟩

/-- One accept fails with the code of an exhausted table of files, and no other follows. -/
theorem failed_accept_ends : ¬ Always step Accepting (constructed : ServerBase Unit) [.accepted () 24,.check ()] := by
  intro always
  have accepting := (always.2 _ rfl).2 _ rfl
  exact absurd (accepting rfl fun _ => rfl) (by decide)

theorem cleared_step {server after : ServerBase Thread} {event : ServerEvent Thread}
    (cleared : Cleared server) (prompt : Prompt server event) (taken : server.step event = some after) :
    Cleared after := by
  cases step_cases taken with
  | accepted | shut | failed | passed | rearm => exact cleared
  | start thread ok checked =>
    intro returned
    cases ok with
    | true => exact absurd returned (prompt thread rfl checked)
    | false =>
      change (server.manage _).manager.connections = ∅
      rw [manager_manage,(ConnectionManager.step_start _ _ _).1]
      exact cleared returned
  | close => exact fun returned => nomatch returned
  | stopAll =>
    intro _
    rw [manager_manage]
    rfl
  | manage operation none =>
    intro returned
    rw [manager_manage,(ConnectionManager.step_removal _ _ none).1,cleared returned]
    rfl

/-- And only in such a run does the set stay empty: a connection that starts afterwards is in it. -/
theorem cleared_iff_prompt (events : List (ServerEvent Thread)) :
    Always step Cleared constructed events ↔ Along step Prompt constructed events := by
  apply always_iff_along Cleared
  · exact fun _ _ _ => cleared_step
  · exact fun _ cleared => cleared
  · intro server event _ late
    simp only [Prompt,not_forall,not_not] at late
    obtain ⟨thread,rfl,checked,returned⟩ := late
    refine ⟨_,by rw [step,if_pos checked],fun cleared => ?_⟩
    have empty : (server.manage (.start server.newConnection true)).manager.connections = ∅ := cleared returned
    rw [manager_manage,(ConnectionManager.step_start _ _ _).1,if_pos rfl] at empty
    have member := OrderedSet.mem_insert.mpr (.inl rfl : server.newConnection = server.newConnection ∨
      server.newConnection ∈ server.manager.connections)
    rw [empty] at member
    exact OrderedSet.not_mem_empty _ member
  · exact fun returned => nomatch returned

/-- Once `StopAll` has run, no thread is in front of a start. -/
def Settled (server : ServerBase Thread) : Prop :=
  server.stopping = .returned → ∀ thread, server.workers thread ≠ .checked

theorem Settled.move {server : ServerBase Thread} (settled : Settled server) (thread : Thread) {worker : Worker}
    (other : worker ≠ .checked) : Settled (server.move thread worker) := by
  intro returned any
  by_cases same : any = thread
  · rwa [same,move_self]
  · rw [move_of_ne server worker same]
    exact settled returned any

theorem settled_step {server after : ServerBase Thread} {event : ServerEvent Thread} (settled : Settled server)
    (quiet : Quiet server event) (taken : server.step event = some after) : Settled after := by
  cases step_cases taken with
  | accepted thread | shut thread | failed thread | start thread | rearm thread =>
    exact Settled.move settled thread (by simp)
  | passed thread entered isOpen =>
    intro returned
    change server.stopping = .returned at returned
    simp [ServerBase.isOpen,returned] at isOpen
  | close => exact fun returned => nomatch returned
  | stopAll => exact fun _ => quiet rfl
  | manage => exact settled

/-- Where no thread is between its look at the acceptor and the start when `StopAll` begins,
none starts a connection afterwards. -/
theorem prompt_of_quiet {events : List (ServerEvent Thread)} (quiet : Along step Quiet constructed events) :
    Along step Prompt constructed events := by
  apply along_of_along Settled _ _ _ quiet
  · exact fun _ _ _ => settled_step
  · intro server event settled _ thread _ checked returned
    exact settled returned thread checked
  · exact fun returned => nomatch returned

/-- In a run in which no connection starts once `StopAll` has gone through the set, the
shutdown is clean. -/
theorem clean_shutdown (events : List (ServerEvent Thread)) (prompt : Along step Prompt constructed events) :
    Always step CleanlyStopped constructed events := by
  apply always_of_along Cleared _ _ _ prompt
  · exact fun _ _ _ => cleared_step
  · exact fun _ => Cleared.cleanlyStopped
  · exact fun returned => nomatch returned

/-- A connection is in the set when the server stops. -/
def orderlyStop : List (ServerEvent Unit) :=
  [.accepted () 0,.check (),.start () true,.rearm (),.close,.stopAll,.accepted () 125,.check ()]

theorem clean_shutdown_orderly :
    (∃ server, follow step constructed orderlyStop = some server ∧ server.stopping = .returned ∧
      server.manager.stops = [1]) ∧ Always step CleanlyStopped constructed orderlyStop := by
  refine ⟨⟨_,rfl,rfl,by decide⟩,clean_shutdown _ ?_⟩
  simp [orderlyStop,Along,Prompt,step,constructed,startAcceptConnection,move,manage,isOpen]

/-- `StopAll` comes between the look at the acceptor and the start. -/
def overtakenStart : List (ServerEvent Unit) :=
  [.accepted () 0,.check (),.close,.stopAll,.start () true,.rearm ()]

theorem overtaken_start_stays : ¬ Always step CleanlyStopped constructed overtakenStart := by
  intro always
  have stopped := (((((always.2 _ rfl).2 _ rfl).2 _ rfl).2 _ rfl).2 _ rfl).2 _ rfl
  obtain ⟨empty,_⟩ := stopped rfl fun _ => rfl
  have member : 1 ∈ (ConnectionManager.run [.stopAll,.start 1 true]).connections := by decide
  change (ConnectionManager.run [.stopAll,.start 1 true]).connections = ∅ at empty
  rw [empty] at member
  exact OrderedSet.not_mem_empty 1 member

/-- Every connection is started once: its number is new until it is. -/
structure Numbered (server : ServerBase Thread) : Prop where
  distinct : (server.operations.filterMap Operation.started).Nodup
  bounded : ∀ c ∈ server.operations.filterMap Operation.started, c ≤ server.newConnection
  fresh : (∀ thread, server.workers thread ≠ .started) →
    server.newConnection ∉ server.operations.filterMap Operation.started

theorem numbered_step {server after : ServerBase Thread} {event : ServerEvent Thread} (exclusive : Exclusive server)
    (numbered : Numbered server) (taken : server.step event = some after) : Numbered after := by
  obtain ⟨distinct,bounded,fresh⟩ := numbered
  -- a thread that is busy, but not behind a start, is the only one that is busy
  have unstarted (thread : Thread) (busy : server.workers thread ≠ .idle) (other : server.workers thread ≠ .started) :
      server.newConnection ∉ server.operations.filterMap Operation.started := by
    apply fresh
    intro any
    by_cases same : any = thread
    · rwa [same]
    · simp [(exclusive.busy busy).2 any same]
  have others (operation : Operation Nat) (none : operation.started = none) :
      (server.operations ++ [operation]).filterMap Operation.started =
        server.operations.filterMap Operation.started := by
    simp [none]
  cases step_cases taken with
  | accepted thread error armed => exact ⟨distinct,bounded,fun _ => fresh fun any => by simp [exclusive.quiet armed any]⟩
  | shut thread error entered | failed thread error entered | passed thread entered =>
    exact ⟨distinct,bounded,fun _ => unstarted thread (by simp [entered]) (by simp [entered])⟩
  | start thread ok checked =>
    have new := unstarted thread (by simp [checked]) (by simp [checked])
    have added : (server.operations ++ [Operation.start server.newConnection ok]).filterMap Operation.started =
        server.operations.filterMap Operation.started ++ [server.newConnection] := by
      simp [Operation.started]
    refine ⟨?_,?_,fun none => absurd (move_self _ thread .started) (none thread)⟩
    · rw [move,manage,added]
      refine List.nodup_append.mpr ⟨distinct,by simp,?_⟩
      rintro c earlier d last rfl
      exact new (List.mem_singleton.mp last ▸ earlier)
    · rw [move,manage,added]
      intro c member
      rcases List.mem_append.mp member with earlier | last
      · exact bounded c earlier
      · exact (List.mem_singleton.mp last).le
  | rearm thread started =>
    refine ⟨distinct,fun c member => Nat.le_succ_of_le (bounded c member),fun _ member => ?_⟩
    exact Nat.not_succ_le_self _ (bounded _ member)
  | close => exact ⟨distinct,bounded,fresh⟩
  | stopAll =>
    have same := others .stopAll rfl
    exact ⟨by rwa [manage,same],by rwa [manage,same],by rwa [manage,same]⟩
  | manage operation none =>
    have same := others operation none
    exact ⟨by rwa [manage,same],by rwa [manage,same],by rwa [manage,same]⟩

/-- Whatever the threads do, the manager is asked to start each connection at most once. -/
theorem operations_once {events : List (ServerEvent Thread)} {server : ServerBase Thread}
    (run : follow step constructed events = some server) :
    (server.operations.filterMap Operation.started).Nodup := by
  have holds : Exclusive server ∧ Numbered server := by
    apply follow_invariant _ _ run
    · rintro _ _ _ ⟨exclusive,numbered⟩ taken
      exact ⟨exclusive_step exclusive taken,numbered_step exclusive numbered taken⟩
    · exact ⟨exclusive_constructed,List.nodup_nil,fun _ member => (nomatch member),fun _ => List.not_mem_nil⟩
  exact holds.2.distinct

/-- So no connection of the server is stopped twice. -/
theorem server_stops_once {events : List (ServerEvent Thread)} {server : ServerBase Thread}
    (run : follow step constructed events = some server) : server.manager.stops.Nodup :=
  (ConnectionManager.stops_nodup (operations_once run)).1

end

end ServerBase

end FuturesCellProxy.Server
