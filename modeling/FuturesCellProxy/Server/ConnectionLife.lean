import FuturesCellProxy.Foundation.Machine
import FuturesCellProxy.Server.Connection

/-! The life of a connection between its asynchronous operations. The strand runs one
completion handler at a time; `PushMsg` comes from anywhere and does not wait for it. The
bytes are left out: an event says what the parser and the request handler make of them. -/
namespace FuturesCellProxy.Server
open Foundation

/-- Where the strand is in `HandleRead`: in `HandleRequest`, or in front of `Reply`. -/
inductive Handling where
  | idle | request | reply
  deriving DecidableEq, Repr

/-- `reads`, `writes` and `pushes` count the operations that are outstanding, the last
ones those of `PushMsg`; `pushing` are the calls of it that have still to start theirs. -/
structure Life where
  isOpen : Bool := true
  started : Bool := false
  failed : Bool := false
  isLongConnection : Bool := false
  reply : Reply
  handling : Handling := .idle
  reads : Nat := 0
  writes : Nat := 0
  pushing : Nat := 0
  pushes : Nat := 0
  /-- How often the manager's `Stop` has been called for the connection. -/
  managerStops : Nat := 0
  deriving DecidableEq, Repr

/-- An error code of 0 is none. A completion may still bring a success when the socket has
been closed meanwhile. -/
inductive LifeEvent where
  | start (ok : Bool)
  | read (error : Nat) (verdict : Verdict) (keepAlive : Bool)
  | handled (reply : Reply)
  | reply
  | written (error : Nat)
  | pushMsg (msg : Bytes)
  | pushWrite
  | pushed (error : Nat)
  | stop
  | doClose
  deriving DecidableEq, Repr

namespace LifeEvent

/-- The event belongs to a call of `PushMsg`. -/
def isPush : LifeEvent → Bool
  | pushMsg _ | pushWrite | pushed _ => true
  | _ => false

/-- The parser answers false. -/
def refuses : LifeEvent → Bool
  | read 0 .invalid _ => true
  | _ => false

/-- The parser answers true, and `HandleRequest` is called. -/
def invokes : LifeEvent → Bool
  | read 0 .complete _ => true
  | _ => false

end LifeEvent

namespace Life

def outstanding (life : Life) : Nat := life.reads + life.writes + life.pushes

def handleRead (life : Life) (error : Nat) (verdict : Verdict) (keepAlive : Bool) : Life :=
  if error ≠ 0 then {life with reads := life.reads - 1,managerStops := life.managerStops + 1}
  else
    match verdict with
    | .complete =>
      {life with
        reads := life.reads - 1
        isLongConnection := life.isLongConnection || keepAlive
        handling := .request}
    | .invalid => {life with reads := life.reads - 1,reply := .stockReply .badRequest,handling := .reply}
    | .indeterminate => life

def handleWrite (life : Life) (error : Nat) : Life :=
  let life := {life with writes := life.writes - 1}
  if error ≠ 0 ∨ life.reply.status ≠ .ok ∨ !life.isLongConnection then
    {life with managerStops := life.managerStops + 1}
  else {life with reads := life.reads + 1}

/-- The handlers of a connection run one at a time. An endpoint is found only while the
socket is open; `Stop` posts `DoClose`. The strand keeps `DoClose` behind a handler that
runs; here it may come at any moment, so the runs are these and more. -/
def step (life : Life) : LifeEvent → Option Life
  | .start ok =>
    if life.started ∨ ok ∧ !life.isOpen then none
    else if ok then some {life with started := true,reads := life.reads + 1}
    else some {life with started := true,failed := true}
  | .read error verdict keepAlive =>
    if 0 < life.reads ∧ life.handling = .idle then some (life.handleRead error verdict keepAlive) else none
  | .handled reply =>
    if life.handling = .request then some {life with reply := reply,handling := .reply} else none
  | .reply =>
    if life.handling = .reply then some {life with handling := .idle,writes := life.writes + 1} else none
  | .written error => if 0 < life.writes ∧ life.handling = .idle then some (life.handleWrite error) else none
  | .pushMsg msg => some {life with reply := buidlReply msg,pushing := life.pushing + 1}
  | .pushWrite =>
    if 0 < life.pushing then some {life with pushing := life.pushing - 1,pushes := life.pushes + 1} else none
  | .pushed _ => if 0 < life.pushes then some {life with pushes := life.pushes - 1} else none
  | .stop => some life
  | .doClose => some {life with isOpen := false}

def created (status : StatusType) : Life := {reply := {status}}

/-- The steps one by one. -/
inductive Steps (life : Life) : LifeEvent → Life → Prop where
  | start (fresh : life.started = false) : Steps life (.start true) {life with started := true,reads := life.reads + 1}
  | noStart (fresh : life.started = false) : Steps life (.start false) {life with started := true,failed := true}
  | readFails (error : Nat) (verdict : Verdict) (keepAlive : Bool) (reading : 0 < life.reads)
      (idle : life.handling = .idle) (fails : error ≠ 0) : Steps life (.read error verdict keepAlive)
        {life with reads := life.reads - 1,managerStops := life.managerStops + 1}
  | complete (keepAlive : Bool) (reading : 0 < life.reads) (idle : life.handling = .idle) :
    Steps life (.read 0 .complete keepAlive) {life with
      reads := life.reads - 1
      isLongConnection := life.isLongConnection || keepAlive
      handling := .request}
  | invalid (keepAlive : Bool) (reading : 0 < life.reads) (idle : life.handling = .idle) :
    Steps life (.read 0 .invalid keepAlive)
      {life with reads := life.reads - 1,reply := .stockReply .badRequest,handling := .reply}
  | indeterminate (keepAlive : Bool) (reading : 0 < life.reads) (idle : life.handling = .idle) :
    Steps life (.read 0 .indeterminate keepAlive) life
  | handled (reply : Reply) (request : life.handling = .request) :
    Steps life (.handled reply) {life with reply := reply,handling := .reply}
  | reply (ready : life.handling = .reply) :
    Steps life .reply {life with handling := .idle,writes := life.writes + 1}
  | ends (error : Nat) (writing : 0 < life.writes) (idle : life.handling = .idle) :
    Steps life (.written error) {life with writes := life.writes - 1,managerStops := life.managerStops + 1}
  | goesOn (writing : 0 < life.writes) (idle : life.handling = .idle) (ok : life.reply.status = .ok)
      (long : life.isLongConnection = true) :
    Steps life (.written 0) {life with writes := life.writes - 1,reads := life.reads + 1}
  | pushMsg (msg : Bytes) :
    Steps life (.pushMsg msg) {life with reply := buidlReply msg,pushing := life.pushing + 1}
  | pushWrite (calling : 0 < life.pushing) :
    Steps life .pushWrite {life with pushing := life.pushing - 1,pushes := life.pushes + 1}
  | pushed (error : Nat) (pending : 0 < life.pushes) : Steps life (.pushed error) {life with pushes := life.pushes - 1}
  | stop : Steps life .stop life
  | doClose : Steps life .doClose {life with isOpen := false}

theorem handleRead_steps {life : Life} (error : Nat) (verdict : Verdict) (keepAlive : Bool)
    (reading : 0 < life.reads) (idle : life.handling = .idle) :
    Steps life (.read error verdict keepAlive) (life.handleRead error verdict keepAlive) := by
  unfold handleRead
  split
  next fails => exact .readFails error verdict keepAlive reading idle fails
  next fine =>
    obtain rfl : error = 0 := not_not.mp fine
    cases verdict with
    | complete => exact .complete keepAlive reading idle
    | invalid => exact .invalid keepAlive reading idle
    | indeterminate => exact .indeterminate keepAlive reading idle

theorem handleWrite_steps {life : Life} (error : Nat) (writing : 0 < life.writes) (idle : life.handling = .idle) :
    Steps life (.written error) (life.handleWrite error) := by
  unfold handleWrite
  simp only
  split
  next => exact .ends error writing idle
  next fine =>
    simp only [not_or,not_not,Bool.not_eq_true',Bool.not_eq_false] at fine
    obtain ⟨rfl,ok,long⟩ := fine
    exact .goesOn writing idle ok long

theorem step_cases {life after : Life} {event : LifeEvent} (taken : life.step event = some after) :
    Steps life event after := by
  unfold step at taken
  split at taken
  next ok =>
    split at taken
    · cases taken
    next new =>
      have fresh : life.started = false := by simpa using (not_or.mp new).1
      split at taken
      next yes =>
        subst yes
        cases taken
        exact .start fresh
      next no =>
        obtain rfl : ok = false := by simpa using no
        cases taken
        exact .noStart fresh
  next error verdict keepAlive =>
    split at taken
    next ready =>
      cases taken
      exact handleRead_steps error verdict keepAlive ready.1 ready.2
    next => cases taken
  next reply =>
    split at taken
    next request =>
      cases taken
      exact .handled reply request
    next => cases taken
  next =>
    split at taken
    next ready =>
      cases taken
      exact .reply ready
    next => cases taken
  next error =>
    split at taken
    next ready =>
      cases taken
      exact handleWrite_steps error ready.1 ready.2
    next => cases taken
  next msg =>
    cases taken
    exact .pushMsg msg
  next =>
    split at taken
    next calling =>
      cases taken
      exact .pushWrite calling
    next => cases taken
  next error =>
    split at taken
    next pending =>
      cases taken
      exact .pushed error pending
    next => cases taken
  next =>
    cases taken
    exact .stop
  next =>
    cases taken
    exact .doClose

/-- The operations of the connection itself: the reads, the replies, and a handler that is
about to start one of them. -/
def chain (life : Life) : Nat := life.reads + life.writes + if life.handling = .idle then 0 else 1

/-- A connection that has been started does one thing after the other until it is stopped. -/
structure Chained (life : Life) : Prop where
  single : life.chain ≤ 1
  fresh : life.started = false → life.chain = 0
  ends : life.started = true → life.chain = 0 → life.failed = true ∨ 0 < life.managerStops

theorem Chained.reading {life : Life} (chained : Chained life) (reading : 0 < life.reads) :
    life.reads = 1 ∧ life.writes = 0 := by
  have single := chained.single
  simp only [chain] at single
  omega

theorem Chained.writing {life : Life} (chained : Chained life) (writing : 0 < life.writes) :
    life.reads = 0 ∧ life.writes = 1 := by
  have single := chained.single
  simp only [chain] at single
  omega

theorem Chained.handling {life : Life} (chained : Chained life) (busy : life.handling ≠ .idle) :
    life.reads = 0 ∧ life.writes = 0 := by
  have single := chained.single
  simp only [chain,if_neg busy] at single
  omega

/-- A step that ends what the connection does, and begins something else or stops it. -/
theorem Chained.next {life after : Life} (chained : Chained life) (busy : 0 < life.chain)
    (started : after.started = life.started) (single : after.chain ≤ 1)
    (ends : after.chain = 0 → 0 < after.managerStops) : Chained after := by
  refine ⟨single,?_,fun _ none => .inr (ends none)⟩
  intro new
  have none := chained.fresh (started ▸ new)
  omega

/-- A step that leaves alone what the connection does. -/
theorem Chained.aside {life after : Life} (chained : Chained life) (started : after.started = life.started)
    (chain : after.chain = life.chain) (failed : after.failed = life.failed)
    (managerStops : after.managerStops = life.managerStops) : Chained after := by
  obtain ⟨single,fresh,ends⟩ := chained
  exact ⟨by rwa [chain],by rwa [started,chain],by rwa [started,chain,failed,managerStops]⟩

theorem chained_created (status : StatusType) : Chained (created status) :=
  ⟨Nat.zero_le _,fun _ => rfl,fun started => nomatch started⟩

theorem chained_step {life after : Life} {event : LifeEvent} (chained : Chained life)
    (taken : life.step event = some after) : Chained after := by
  have busyReading (reading : 0 < life.reads) : 0 < life.chain := by
    simp only [chain]
    omega
  have busyWriting (writing : 0 < life.writes) : 0 < life.chain := by
    simp only [chain]
    omega
  cases step_cases taken with
  | start new =>
    have none := chained.fresh new
    simp only [chain] at none
    have one : chain {life with started := true,reads := life.reads + 1} = 1 := by
      simp only [chain]
      omega
    exact ⟨one.le,fun no => (nomatch no),fun _ none => by omega⟩
  | noStart new => exact ⟨chained.single,fun no => (nomatch no),fun _ _ => .inl rfl⟩
  | readFails error verdict keepAlive reading idle =>
    obtain ⟨one,none⟩ := chained.reading reading
    exact chained.next (busyReading reading) rfl (by simp [chain,idle,one,none]) fun _ => Nat.succ_pos _
  | complete keepAlive reading idle | invalid keepAlive reading idle =>
    obtain ⟨one,none⟩ := chained.reading reading
    exact chained.next (busyReading reading) rfl (by simp [chain,one,none]) (by simp [chain])
  | handled reply request =>
    obtain ⟨noRead,noWrite⟩ := chained.handling (by simp [request])
    exact chained.next (by simp [chain,request]) rfl (by simp [chain,noRead,noWrite]) (by simp [chain])
  | reply ready =>
    obtain ⟨noRead,noWrite⟩ := chained.handling (by simp [ready])
    exact chained.next (by simp [chain,ready]) rfl (by simp [chain,noRead,noWrite]) (by simp [chain])
  | ends error writing idle =>
    obtain ⟨none,one⟩ := chained.writing writing
    exact chained.next (busyWriting writing) rfl (by simp [chain,idle,one,none]) fun _ => Nat.succ_pos _
  | goesOn writing idle ok long =>
    obtain ⟨none,one⟩ := chained.writing writing
    exact chained.next (busyWriting writing) rfl (by simp [chain,idle,one,none]) (by simp [chain])
  | indeterminate | stop => exact chained
  | pushMsg | pushWrite | pushed | doClose => exact chained.aside rfl rfl rfl rfl

/-- After a refusal nothing is read any more. -/
structure Refused (life : Life) : Prop where
  started : life.started = true
  unread : life.reads = 0
  answered : life.handling ≠ .request
  status : life.reply.status ≠ .ok

theorem refused_of_refuses {life after : Life} {event : LifeEvent} (chained : Chained life)
    (refuses : event.refuses = true) (taken : life.step event = some after) : Refused after := by
  cases step_cases taken with
  | invalid keepAlive reading idle =>
    have started : life.started = true := by
      by_contra new
      have none := chained.fresh (by simpa using new)
      simp only [chain] at none
      omega
    exact ⟨started,by simp [chained.reading reading],by simp,by simp [Reply.stockReply]⟩
  | readFails error verdict keepAlive reading idle fails =>
    cases error with
    | zero => exact absurd rfl fails
    | succ error => cases refuses
  | _ => cases refuses

theorem refused_step {life after : Life} {event : LifeEvent} (refused : Refused life) (noPush : event.isPush = false)
    (taken : life.step event = some after) : Refused after ∧ event.invokes = false := by
  obtain ⟨started,unread,answered,status⟩ := refused
  cases step_cases taken with
  | start new | noStart new => simp [started] at new
  | readFails _ _ _ reading | complete _ reading | invalid _ reading | indeterminate _ reading => omega
  | handled reply request => exact absurd request answered
  | goesOn writing idle ok long => exact absurd ok status
  | pushMsg | pushWrite | pushed => cases noPush
  | reply => exact ⟨⟨started,unread,by simp,status⟩,rfl⟩
  | ends | stop | doClose => exact ⟨⟨started,unread,answered,status⟩,rfl⟩

theorem chained_run {status : StatusType} {events : List LifeEvent} {life : Life}
    (run : follow step (created status) events = some life) : Chained life :=
  follow_invariant (fun _ _ _ => chained_step) (chained_created status) run

theorem noPushes_step {life after : Life} {event : LifeEvent} (none : life.pushing = 0 ∧ life.pushes = 0)
    (noPush : event.isPush = false) (taken : life.step event = some after) : after.pushing = 0 ∧ after.pushes = 0 := by
  cases step_cases taken with
  | pushMsg | pushWrite | pushed => cases noPush
  | _ => exact none

theorem noPushes_run {status : StatusType} {events : List LifeEvent} {life : Life}
    (noPush : ∀ event ∈ events, event.isPush = false) (run : follow step (created status) events = some life) :
    life.pushes = 0 := by
  have along : Along step (fun _ event => event.isPush = false) (created status) events :=
    along_of_forall fun event member _ => noPush event member
  exact (follow_along (fun _ _ _ => noPushes_step) ⟨rfl,rfl⟩ along run).2

theorem refused_run {life after : Life} {events : List LifeEvent} (refused : Refused life)
    (noPush : ∀ event ∈ events, event.isPush = false) (run : follow step life events = some after) :
    ∀ event ∈ events, event.invokes = false := by
  induction events generalizing life with
  | nil => simp
  | cons event rest ih =>
    obtain ⟨middle,taken,run⟩ := (follow_cons _ _ _ _).mp run
    obtain ⟨refused,uninvoked⟩ := refused_step refused (noPush event List.mem_cons_self) taken
    have later := ih refused (fun other member => noPush other (List.mem_cons_of_mem _ member)) run
    simpa [uninvoked] using later

/-- At most one operation is outstanding; without one the connection did not start or has
been stopped; and `HandleRequest` is not called after a refusal. -/
structure Orderly (events : List LifeEvent) (life : Life) : Prop where
  single : life.outstanding ≤ 1
  ends : life.started = true → life.outstanding = 0 → life.handling = .idle →
    life.failed = true ∨ 0 < life.managerStops
  refused : ∀ before refusal after, events = before ++ refusal :: after → refusal.refuses = true →
    ∀ event ∈ after, event.invokes = false

theorem connection_orderly (status : StatusType) (events : List LifeEvent) (life : Life)
    (noPush : ∀ event ∈ events, event.isPush = false) (run : follow step (created status) events = some life) :
    Orderly events life := by
  have chained := chained_run run
  have noPushes := noPushes_run noPush run
  refine ⟨?_,?_,?_⟩
  · have single := chained.single
    simp only [chain] at single
    simp only [outstanding]
    omega
  · intro started none idle
    apply chained.ends started
    simp only [outstanding] at none
    simp only [chain,idle,if_true]
    omega
  · rintro before refusal after rfl refuses
    obtain ⟨middle,past,run⟩ := (follow_append _ _ _ _).mp run
    obtain ⟨answered,taken,rest⟩ := (follow_cons _ _ _ _).mp run
    have refused := refused_of_refuses (chained_run past) refuses taken
    exact refused_run refused (fun event member => noPush event (by simp [member])) rest

/-- A request is answered, and the next one refused. -/
def answeredThenRefused : List LifeEvent :=
  [.start true,.read 0 .complete true,.handled (buidlReply (ascii "done")),.reply,.written 0,
    .read 0 .invalid false,.reply,.stop,.doClose,.written 125]

theorem connection_orderly_sample :
    ∃ life, follow step (created .ok) answeredThenRefused = some life ∧ life.managerStops = 1 ∧
      Orderly answeredThenRefused life :=
  ⟨_,rfl,rfl,connection_orderly .ok answeredThenRefused _ (by decide) rfl⟩

def writing (life : Life) : Prop := 0 < life.writes + life.pushes

/-- While a write is outstanding the reply stays as it is, and no other write is started. -/
def Undisturbed (life : Life) (event : LifeEvent) : Prop :=
  life.writing → ∀ after, life.step event = some after →
    after.reply = life.reply ∧ after.writes + after.pushes ≤ life.writes + life.pushes

/-- No call of `PushMsg` is under way, and none of its writes is outstanding. -/
def noPush (life : Life) : Prop := life.pushing = 0 ∧ life.pushes = 0

/-- `PushMsg` is called only while no request is handled and nothing is sent, and until the
write that it starts has completed no read brings the end of a request. -/
def PushesApart (life : Life) : LifeEvent → Prop
  | .pushMsg _ => life.handling = .idle ∧ life.writes = 0 ∧ life.noPush
  | .read error verdict _ => error = 0 → verdict ≠ .indeterminate → life.noPush
  | _ => True

/-- A push that is under way is the only one, and the connection neither handles a request
nor sends a reply meanwhile. -/
structure Apart (life : Life) : Prop where
  chained : Chained life
  one : life.pushing + life.pushes ≤ 1
  alone : 0 < life.pushing + life.pushes → life.handling = .idle ∧ life.writes = 0

theorem apart_created (status : StatusType) : Apart (created status) :=
  ⟨chained_created status,Nat.zero_le _,fun pending => absurd pending (by simp [created])⟩

/-- Nothing is pushed while the strand is in `HandleRead`. -/
theorem Apart.handling {life : Life} (apart : Apart life) (busy : life.handling ≠ .idle) :
    life.pushing + life.pushes = 0 := by
  by_contra pending
  exact busy (apart.alone (by omega)).1

theorem Apart.writing {life : Life} (apart : Apart life) (writing : 0 < life.writes) :
    life.pushing + life.pushes = 0 := by
  by_contra pending
  have none := (apart.alone (by omega)).2
  omega

theorem apart_step {life after : Life} {event : LifeEvent} (apart : Apart life)
    (allowed : PushesApart life event) (taken : life.step event = some after) : Apart after := by
  have chained := chained_step apart.chained taken
  obtain ⟨_,one,alone⟩ := apart
  cases step_cases taken with
  | start | noStart | readFails | indeterminate | stop | doClose => exact ⟨chained,one,alone⟩
  | complete keepAlive reading idle | invalid keepAlive reading idle =>
    obtain ⟨noCall,noWrite⟩ : life.noPush := allowed rfl (by decide)
    exact ⟨chained,one,fun pending => absurd pending (by simp [noCall,noWrite])⟩
  | handled reply request =>
    exact ⟨chained,one,fun pending => absurd (alone pending).1 (by simp [request])⟩
  | reply ready =>
    exact ⟨chained,one,fun pending => absurd (alone pending).1 (by simp [ready])⟩
  | ends error writing idle | goesOn writing idle =>
    refine ⟨chained,one,fun pending => ?_⟩
    have none := (alone pending).2
    omega
  | pushMsg msg =>
    obtain ⟨idle,unwritten,noCall,noWrite⟩ := allowed
    exact ⟨chained,by simp [noCall,noWrite],fun _ => ⟨idle,unwritten⟩⟩
  | pushWrite calling =>
    refine ⟨chained,?_,fun _ => alone (by omega)⟩
    dsimp only
    omega
  | pushed error pending =>
    refine ⟨chained,?_,fun _ => alone (by omega)⟩
    dsimp only
    omega

theorem Apart.undisturbed {life : Life} {event : LifeEvent} (apart : Apart life)
    (allowed : PushesApart life event) : Undisturbed life event := by
  intro writing after taken
  simp only [Life.writing] at writing
  cases step_cases taken with
  | start | noStart | readFails | complete | indeterminate | stop | doClose => exact ⟨rfl,le_rfl⟩
  | invalid keepAlive reading idle =>
    have unwritten := (apart.chained.reading reading).2
    obtain ⟨_,unpushed⟩ : life.noPush := allowed rfl (by decide)
    omega
  | handled reply request =>
    have unwritten := (apart.chained.handling (by simp [request])).2
    have unpushed := apart.handling (by simp [request])
    omega
  | reply ready =>
    have unwritten := (apart.chained.handling (by simp [ready])).2
    have unpushed := apart.handling (by simp [ready])
    omega
  | ends | goesOn | pushed => exact ⟨rfl,by simp⟩
  | pushMsg msg =>
    obtain ⟨_,unwritten,_,unpushed⟩ := allowed
    omega
  | pushWrite calling =>
    have unwritten := (apart.alone (by omega)).2
    have one := apart.one
    omega

/-- Some steps that are always allowed disturb a write. -/
def Endangered (life : Life) : Prop :=
  ∃ more, (∀ next ∈ more, ∀ state, PushesApart state next) ∧ ¬ Along step Undisturbed life more

theorem Endangered.before {life after : Life} {event : LifeEvent} (taken : life.step event = some after)
    (allowed : ∀ state, PushesApart state event) (endangered : Endangered after) : Endangered life := by
  obtain ⟨more,all,disturbed⟩ := endangered
  refine ⟨event :: more,?_,fun along => disturbed (along.2 after taken)⟩
  intro next member
  rcases List.mem_cons.mp member with rfl | later
  · exact allowed
  · exact all next later

theorem endangered_of_write {life after : Life} {event : LifeEvent} (writing : life.writing)
    (taken : life.step event = some after) (allowed : ∀ state, PushesApart state event)
    (more : life.writes + life.pushes < after.writes + after.pushes) : Endangered life := by
  refine ⟨[event],by simpa using allowed,fun along => ?_⟩
  have kept := (along.1 writing after taken).2
  omega

theorem endangered_of_pushing {life : Life} (calling : 0 < life.pushing) (writing : life.writing) :
    Endangered life := by
  have taken : life.step .pushWrite = some {life with pushing := life.pushing - 1,pushes := life.pushes + 1} := by
    rw [step,if_pos calling]
  refine endangered_of_write writing taken (fun _ => trivial) ?_
  dsimp only
  omega

/-- A push that is under way while a request is handled meets the reply to it. -/
theorem endangered_of_handling {life : Life} (pending : 0 < life.pushing + life.pushes)
    (busy : life.handling ≠ .idle) : Endangered life := by
  have replying {life : Life} (pending : 0 < life.pushing + life.pushes) (ready : life.handling = .reply) :
      Endangered life := by
    have taken : life.step .reply = some {life with handling := .idle,writes := life.writes + 1} := by
      rw [step,if_pos ready]
    by_cases sending : 0 < life.pushes
    · refine endangered_of_write ?_ taken (fun _ => trivial) ?_
      · rw [writing]
        omega
      · dsimp only
        omega
    · refine .before taken (fun _ => trivial) (endangered_of_pushing ?_ ?_)
      · dsimp only
        omega
      · rw [writing]
        dsimp only
        omega
  cases handling : life.handling with
  | idle => exact absurd handling busy
  | request =>
    have taken : life.step (.handled life.reply) = some {life with reply := life.reply,handling := .reply} := by
      rw [step,if_pos handling]
    exact .before taken (fun _ => trivial) (replying pending rfl)
  | reply => exact replying pending handling

/-- After a step that breaks the condition, steps that cannot break it can disturb a write. -/
theorem endangered_of_not_apart {life after : Life} {event : LifeEvent} (taken : life.step event = some after)
    (breaks : ¬ PushesApart life event) : Endangered after := by
  cases step_cases taken with
  | pushMsg msg =>
    by_cases busy : life.handling = .idle
    · by_cases writing : life.writing
      · exact endangered_of_pushing (Nat.succ_pos _) writing
      · rw [Life.writing] at writing
        have calling : 0 < life.pushing := by
          by_contra none
          exact breaks ⟨busy,by omega,by omega,by omega⟩
        let called := {life with reply := buidlReply msg,pushing := life.pushing + 1}
        have begun : called.step .pushWrite =
            some {called with pushing := called.pushing - 1,pushes := called.pushes + 1} := by
          rw [step,if_pos (Nat.succ_pos _)]
        refine .before begun (fun _ => trivial) (endangered_of_pushing ?_ ?_)
        · exact calling
        · rw [Life.writing]
          dsimp only
          omega
    · exact endangered_of_handling (by dsimp only; omega) busy
  | complete keepAlive | invalid keepAlive =>
    have pending : 0 < life.pushing + life.pushes := by
      by_contra none
      exact breaks fun _ _ => ⟨by omega,by omega⟩
    exact endangered_of_handling pending (by simp)
  | readFails error _ _ _ _ fails => exact absurd (fun zero => absurd zero fails) breaks
  | indeterminate => exact absurd (fun _ other => absurd rfl other) breaks
  | _ => exact absurd trivial breaks

theorem Apart.not_endangered {life : Life} (apart : Apart life) : ¬ Endangered life := by
  rintro ⟨more,all,disturbed⟩
  have along : Along step PushesApart life more := along_of_forall all
  exact disturbed (along_of_along Apart (fun _ _ _ => apart_step) (fun _ _ => Apart.undisturbed) apart along)

/-- In every run whose pushes keep to themselves, no step changes a reply under transmission
or starts a second write. A step that breaks the condition, and no other, makes it possible
that what is under way does, without another push or request. -/
theorem reply_undisturbed (status : StatusType) (events : List LifeEvent)
    (apart : Along step PushesApart (created status) events) :
    Along step Undisturbed (created status) events ∧
    ∀ life event after, follow step (created status) events = some life → life.step event = some after →
      (PushesApart life event ↔ ¬ Endangered after) := by
  refine ⟨along_of_along Apart (fun _ _ _ => apart_step) (fun _ _ => Apart.undisturbed) (apart_created status) apart,?_⟩
  intro life event after run taken
  have reached : Apart life := follow_along (fun _ _ _ => apart_step) (apart_created status) apart run
  constructor
  · exact fun allowed => (apart_step reached allowed taken).not_endangered
  · intro safe
    by_contra breaks
    exact safe (endangered_of_not_apart taken breaks)

/-- A message is pushed while the connection waits for a request, and the request comes when
it has been sent. -/
def pushedBetween : List LifeEvent :=
  [.start true,.pushMsg (ascii "news"),.pushWrite,.pushed 0,.read 0 .complete true,
    .handled (buidlReply (ascii "done")),.reply,.written 0]

theorem reply_undisturbed_between :
    (follow step (created .ok) pushedBetween).isSome ∧ Along step Undisturbed (created .ok) pushedBetween := by
  refine ⟨rfl,(reply_undisturbed .ok pushedBetween ?_).1⟩
  simp [pushedBetween,Along,PushesApart,noPush,step,created,handleRead]

/-- A message is pushed while a reply is being sent. -/
def pushedIntoReply : List LifeEvent :=
  [.start true,.read 0 .complete true,.handled (buidlReply (ascii "done")),.reply,.pushMsg (ascii "news")]

theorem pushed_into_reply : ¬ Along step Undisturbed (created .ok) pushedIntoReply := by
  intro along
  have undisturbed := ((((along.2 _ rfl).2 _ rfl).2 _ rfl).2 _ rfl).1
  have same := (undisturbed (by decide : 0 < 1 + 0) _ rfl).1
  exact absurd (congrArg Reply.content same) (by decide)

/-- Without `PushMsg` the handlers never disturb a write. -/
theorem undisturbed_without_push (status : StatusType) (events : List LifeEvent)
    (noPush : ∀ event ∈ events, event.isPush = false) : Along step Undisturbed (created status) events := by
  have along : Along step (fun _ event => event.isPush = false) (created status) events :=
    along_of_forall fun event member _ => noPush event member
  have apart {life : Life} {event : LifeEvent} (none : life.noPush) (noPush : event.isPush = false) :
      PushesApart life event := by
    cases event with
    | pushMsg => cases noPush
    | read => exact fun _ _ => none
    | _ => trivial
  apply along_of_along (fun life => Apart life ∧ life.noPush) _ _ _ along
  · rintro life event after ⟨alone,none⟩ noPush taken
    exact ⟨apart_step alone (apart none noPush) taken,noPushes_step none noPush taken⟩
  · rintro life event ⟨alone,none⟩ noPush
    exact alone.undisturbed (apart none noPush)
  · exact ⟨apart_created status,rfl,rfl⟩

end Life

namespace Connection

/-- What is left of a connection without its bytes; the manager's `Stop` has been called for
one that is stopped. -/
structure Lives (conn : Connection) (life : Life) : Prop where
  started : life.started = true
  reply : life.reply = conn.reply
  isLongConnection : life.isLongConnection = conn.isLongConnection
  handling : life.handling = .idle
  reads : life.reads = if conn.pending = .read then 1 else 0
  writes : life.writes = if conn.pending = .write then 1 else 0
  stopped : conn.pending = .stopped → 0 < life.managerStops

theorem lives_start (memory : Memory) :
    ∃ life, (Life.created memory.status).step (.start true) = some life ∧ Lives (start memory) life :=
  ⟨_,rfl,rfl,rfl,rfl,rfl,rfl,rfl,fun stopped => nomatch stopped⟩

@[simp] theorem receive_pending (conn : Connection) (bytes : Bytes) : (conn.receive bytes).2.pending = conn.pending := rfl
@[simp] theorem receive_reply (conn : Connection) (bytes : Bytes) : (conn.receive bytes).2.reply = conn.reply := rfl
@[simp] theorem receive_isLongConnection (conn : Connection) (bytes : Bytes) :
    (conn.receive bytes).2.isLongConnection = conn.isLongConnection := rfl

section
variable (registered : Bytes → Bool)

theorem handleRead_lives {conn : Connection} {life : Life} (lives : Lives conn life) (reading : conn.pending = .read)
    (bytes outData : Bytes) :
    ∃ events after, follow Life.step life events = some after ∧ Lives (conn.handleRead registered bytes outData).1 after ∧
      ∀ event ∈ events, event.isPush = false := by
  obtain ⟨started,reply,long,handling,reads,writes,_⟩ := lives
  rw [reading,if_pos rfl] at reads
  rw [reading,if_neg (by simp)] at writes
  rcases result : conn.receive bytes with ⟨verdict,received⟩
  have same : received = (conn.receive bytes).2 := by rw [result]
  have sameReply : received.reply = conn.reply := by rw [same,receive_reply]
  have sameLong : received.isLongConnection = conn.isLongConnection := by rw [same,receive_isLongConnection]
  have pending : received.pending = .read := by rw [same,receive_pending,reading]
  cases verdict with
  | complete =>
    let keepAlive := requestKeepAlive received.request.headers
    let answered := (received.serve registered outData).1.reply
    refine ⟨[.read 0 .complete keepAlive,.handled answered,.reply],
      {life with reads := 0,isLongConnection := life.isLongConnection || keepAlive,reply := answered,writes := 1},
      by simp [follow,Life.step,Life.handleRead,reads,writes,handling],?_,by simp [LifeEvent.isPush]⟩
    rw [handleRead,result]
    exact ⟨started,rfl,by rw [long,← sameLong]; rfl,handling,rfl,rfl,by simp [serve,answer]⟩
  | invalid =>
    refine ⟨[.read 0 .invalid false,.reply],{life with reads := 0,reply := .stockReply .badRequest,writes := 1},
      by simp [follow,Life.step,Life.handleRead,reads,writes,handling],?_,by simp [LifeEvent.isPush]⟩
    rw [handleRead,result]
    exact ⟨started,rfl,long.trans sameLong.symm,handling,rfl,rfl,by simp [refuse,answer]⟩
  | indeterminate =>
    refine ⟨[.read 0 .indeterminate false],life,by simp [follow,Life.step,Life.handleRead,reads,handling],?_,
      by simp [LifeEvent.isPush]⟩
    rw [handleRead,result]
    exact ⟨started,reply.trans sameReply.symm,long.trans sameLong.symm,handling,by simp [reads,pending],
      by simp [writes,pending],by simp [pending]⟩

theorem handleWrite_lives {conn : Connection} {life : Life} (lives : Lives conn life) (writing : conn.pending = .write) :
    ∃ after, life.step (.written 0) = some after ∧ Lives conn.handleWrite after := by
  obtain ⟨started,reply,long,handling,reads,writes,_⟩ := lives
  rw [writing,if_neg (by simp)] at reads
  rw [writing,if_pos rfl] at writes
  by_cases goesOn : conn.reply.status = .ok ∧ conn.isLongConnection = true
  · obtain ⟨ok,longer⟩ := goesOn
    have next : conn.handleWrite = {conn with pending := .read} := by simp [handleWrite,ok,longer]
    refine ⟨{life with reads := 1,writes := 0},
      by simp [Life.step,Life.handleWrite,reads,writes,handling,reply,long,ok,longer],?_⟩
    rw [next]
    exact ⟨started,reply,long,handling,rfl,rfl,fun stopped => nomatch stopped⟩
  · have next : conn.handleWrite = {conn with pending := .stopped} := by
      by_cases ok : conn.reply.status = .ok <;> simp_all [handleWrite]
    have ends : 0 ≠ 0 ∨ life.reply.status ≠ .ok ∨ (!life.isLongConnection) = true := by
      rw [reply,long]
      by_cases ok : conn.reply.status = .ok <;> simp_all
    refine ⟨{life with writes := 0,managerStops := life.managerStops + 1},?_,?_⟩
    · rw [Life.step,if_pos ⟨by simp [writes],handling⟩]
      simp only [Life.handleWrite,if_pos ends,writes]
    · rw [next]
      exact ⟨started,reply,long,handling,by simp [reads],rfl,fun _ => Nat.succ_pos _⟩

theorem error_lives {conn : Connection} {life : Life} (lives : Lives conn life) :
    ∃ events after, follow Life.step life events = some after ∧ Lives {conn with pending := .stopped} after ∧
      ∀ event ∈ events, event.isPush = false := by
  obtain ⟨started,reply,long,handling,reads,writes,stopped⟩ := lives
  cases pending : conn.pending with
  | read =>
    rw [pending,if_pos rfl] at reads
    rw [pending,if_neg (by simp)] at writes
    refine ⟨[.read 1 .indeterminate false],{life with reads := 0,managerStops := life.managerStops + 1},
      by simp [follow,Life.step,Life.handleRead,reads,handling],?_,by simp [LifeEvent.isPush]⟩
    exact ⟨started,reply,long,handling,rfl,by simp [writes],fun _ => Nat.succ_pos _⟩
  | write =>
    rw [pending,if_neg (by simp)] at reads
    rw [pending,if_pos rfl] at writes
    refine ⟨[.written 1],{life with writes := 0,managerStops := life.managerStops + 1},
      by simp [follow,Life.step,Life.handleWrite,writes,handling],?_,by simp [LifeEvent.isPush]⟩
    exact ⟨started,reply,long,handling,by simp [reads],rfl,fun _ => Nat.succ_pos _⟩
  | stopped =>
    rw [pending,if_neg (by simp)] at reads writes
    refine ⟨[],life,rfl,?_,by simp⟩
    exact ⟨started,reply,long,handling,by simp [reads],by simp [writes],fun _ => stopped pending⟩

theorem step_lives {conn : Connection} {life : Life} (lives : Lives conn life) (completion : Completion) :
    ∃ events after, follow Life.step life events = some after ∧ Lives (conn.step registered completion).1 after ∧
      ∀ event ∈ events, event.isPush = false := by
  cases completion with
  | read bytes outData =>
    simp only [step]
    split
    next reading => exact handleRead_lives registered lives reading bytes outData
    next => exact ⟨[],life,rfl,lives,by simp⟩
  | written =>
    simp only [step]
    split
    next writing =>
      obtain ⟨after,taken,lives⟩ := handleWrite_lives lives writing
      exact ⟨[.written 0],after,by simp [follow,taken],lives,by simp [LifeEvent.isPush]⟩
    next => exact ⟨[],life,rfl,lives,by simp⟩
  | error => exact error_lives lives

/-- A life without `PushMsg` has led to this connection. -/
def Lived (memory : Memory) (conn : Connection) : Prop :=
  ∃ events life, follow Life.step (Life.created memory.status) events = some life ∧ Lives conn life ∧
    ∀ event ∈ events, event.isPush = false

theorem lived_step {memory : Memory} {conn : Connection} (lived : Lived memory conn) (completion : Completion) :
    Lived memory (conn.step registered completion).1 := by
  obtain ⟨events,life,run,lives,noPush⟩ := lived
  obtain ⟨more,after,rest,lives,noPush'⟩ := step_lives registered lives completion
  refine ⟨events ++ more,after,(follow_append _ _ _ _).mpr ⟨life,run,rest⟩,lives,?_⟩
  intro event member
  rcases List.mem_append.mp member with past | new
  · exact noPush event past
  · exact noPush' event new

theorem run_lived (memory : Memory) (completions : List Completion) :
    Lived memory ((start memory).run registered completions).1 := by
  obtain ⟨life,taken,lives⟩ := lives_start memory
  have begins : Lived memory (start memory) :=
    ⟨[.start true],life,by simp [follow,taken],lives,by simp [LifeEvent.isPush]⟩
  exact @run_invariant registered (fun conn _ => Lived memory conn)
    (fun _ _ completion lived => lived_step registered lived completion) completions _ [] begins

end

end Connection

end FuturesCellProxy.Server
