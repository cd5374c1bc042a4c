import FuturesCellProxy.Server.ConnectionLife

/-! What decides whether a connection is kept open: `HandleRead` sets the flag at the first request
that asks for it, and nothing takes it back. -/
namespace FuturesCellProxy.Server
open Foundation

/-- A header `Connection: keep-alive`, whatever the case of its letters. -/
def CarriesKeepAlive (headers : List Header) : Prop :=
  ∃ h ∈ headers, headersEqual h.name (ascii "Connection") ∧ headersEqual h.value (ascii "keep-alive")

theorem headersEqual_iff (a b : Bytes) : headersEqual a b = true ↔ a.map tolower = b.map tolower := by
  rw [headersEqual,Bool.and_eq_true,beq_iff_eq,beq_iff_eq]
  constructor
  · exact And.right
  · intro same
    have length := congrArg List.length same
    rw [List.length_map,List.length_map] at length
    exact ⟨length,same⟩

theorem requestKeepAlive_iff (headers : List Header) : requestKeepAlive headers = true ↔ CarriesKeepAlive headers := by
  have name : (ascii "Connection").map tolower = ascii "connection" := by decide +kernel
  have value : (ascii "keep-alive").map tolower = ascii "keep-alive" := by decide +kernel
  simp only [requestKeepAlive,CarriesKeepAlive,List.any_eq_true,decide_eq_true_eq,headersEqual_iff,name,value]

namespace LifeEvent

/-- The flag of a request that the parser accepts. -/
def keepAlive : LifeEvent → Option Bool
  | read 0 .complete keepAlive => some keepAlive
  | _ => none

/-- The status of the reply to a request, handled or refused. -/
def answer : LifeEvent → Option StatusType
  | read 0 .invalid _ => some .badRequest
  | handled answer => some answer.status
  | _ => none

/-- The status that is set in `m_reply`. -/
def sets : LifeEvent → Option StatusType
  | pushMsg _ => some .ok
  | event => event.answer

/-- The parser is done with a request. -/
def isRequest (event : LifeEvent) : Bool := event.invokes || event.refuses

def isWritten : LifeEvent → Bool
  | written _ => true
  | _ => false

end LifeEvent

/-- What happens to a connection, and the headers of the requests that its parser accepts. -/
structure History where
  events : List LifeEvent
  heads : List (List Header)
  flags : events.filterMap LifeEvent.keepAlive = heads.map requestKeepAlive

namespace Life

/-- The status that the reply holds: that of the last answer, or of a message pushed since. -/
def standing (status : StatusType) (events : List LifeEvent) : StatusType :=
  events.foldl (fun status event => event.sets.getD status) status

structure Tracks (status : StatusType) (past : List LifeEvent) (life : Life) : Prop where
  long : life.isLongConnection = true ↔ true ∈ past.filterMap LifeEvent.keepAlive
  standing : life.reply.status = Life.standing status past
  answers : (past.filterMap LifeEvent.answer).length =
    past.countP LifeEvent.isWritten + life.writes + if life.handling = .reply then 1 else 0
  requests : past.countP LifeEvent.isRequest =
    (past.filterMap LifeEvent.answer).length + if life.handling = .request then 1 else 0

theorem tracks_created (status : StatusType) : Tracks status [] (created status) :=
  ⟨by simp [created],rfl,rfl,rfl⟩

theorem Tracks.snoc {status : StatusType} {past : List LifeEvent} {life after : Life} {event : LifeEvent}
    (tracks : Tracks status past life)
    (long : after.isLongConnection = (life.isLongConnection || event.keepAlive.getD false))
    (reply : after.reply.status = event.sets.getD life.reply.status)
    (answers : (after.writes + if after.handling = .reply then 1 else 0) + event.isWritten.toNat =
      (life.writes + if life.handling = .reply then 1 else 0) + event.answer.toList.length)
    (requests : (if after.handling = .request then 1 else 0) + event.answer.toList.length =
      (if life.handling = .request then 1 else 0) + event.isRequest.toNat) :
    Tracks status (past ++ [event]) after := by
  have answered : ((past ++ [event]).filterMap LifeEvent.answer).length =
      (past.filterMap LifeEvent.answer).length + event.answer.toList.length := by
    rw [List.filterMap_append,List.length_append]
    cases last : event.answer <;> simp [last]
  have count (counted : LifeEvent → Bool) :
      (past ++ [event]).countP counted = past.countP counted + (counted event).toNat := by
    rw [List.countP_append]
    cases last : counted event <;> simp [last]
  constructor
  · rw [long,Bool.or_eq_true,tracks.long,List.filterMap_append,List.mem_append]
    cases flag : event.keepAlive <;> simp [flag]
  · rw [reply,tracks.standing]
    simp [Life.standing,List.foldl_append]
  · have before := tracks.answers
    rw [answered,count]
    omega
  · have before := tracks.requests
    rw [answered,count]
    omega

theorem tracks_step {status : StatusType} {past : List LifeEvent} {life after : Life} {event : LifeEvent}
    (tracks : Tracks status past life) (taken : life.step event = some after) :
    Tracks status (past ++ [event]) after := by
  cases step_cases taken with
  | start | noStart | pushMsg | pushWrite | pushed | stop | doClose | indeterminate =>
    exact tracks.snoc (Bool.or_false _).symm rfl rfl rfl
  | readFails error verdict keepAlive reading idle fails =>
    obtain ⟨error,rfl⟩ := Nat.exists_eq_succ_of_ne_zero fails
    exact tracks.snoc (Bool.or_false _).symm rfl rfl rfl
  | complete keepAlive reading idle =>
    apply tracks.snoc rfl rfl
    · simp [idle,LifeEvent.isWritten,LifeEvent.answer]
    · simp [idle,LifeEvent.isRequest,LifeEvent.invokes,LifeEvent.answer]
  | invalid keepAlive reading idle =>
    apply tracks.snoc (Bool.or_false _).symm rfl
    · simp [idle,LifeEvent.isWritten,LifeEvent.answer]
    · simp [idle,LifeEvent.isRequest,LifeEvent.refuses,LifeEvent.answer]
  | handled reply request =>
    apply tracks.snoc (Bool.or_false _).symm rfl
    · simp [request,LifeEvent.isWritten,LifeEvent.answer]
    · simp [request,LifeEvent.isRequest,LifeEvent.invokes,LifeEvent.refuses,LifeEvent.answer]
  | reply ready =>
    apply tracks.snoc (Bool.or_false _).symm rfl
    · simp [ready,LifeEvent.isWritten,LifeEvent.answer]
    · simp [ready,LifeEvent.isRequest,LifeEvent.invokes,LifeEvent.refuses,LifeEvent.answer]
  | ends error writing idle | goesOn writing idle =>
    refine tracks.snoc (Bool.or_false _).symm rfl ?_ rfl
    simp only [LifeEvent.isWritten,LifeEvent.answer,Option.toList_none,List.length_nil,Bool.toNat_true]
    omega

theorem tracks_run {status : StatusType} {events : List LifeEvent} {life : Life}
    (run : follow step (created status) events = some life) : Tracks status events life :=
  @follow_history _ _ _ (Tracks status) (fun _ _ _ _ => tracks_step) [] _ _ _ (tracks_created status) run

/-- Where nothing is pushed, the reply is the last answer. -/
theorem standing_last {events : List LifeEvent} (noPush : ∀ event ∈ events, event.isPush = false)
    (status : StatusType) :
    standing status events = (events.filterMap LifeEvent.answer).getLast?.getD status := by
  induction events using List.reverseRecOn with
  | nil => rfl
  | append_singleton past event ih =>
    have before := ih fun other member => noPush other (by simp [member])
    have same : event.sets = event.answer := by
      cases event with
      | pushMsg msg => exact absurd (noPush (.pushMsg msg) (by simp)) (by simp [LifeEvent.isPush])
      | _ => rfl
    rw [standing] at before ⊢
    rw [List.foldl_append,List.foldl_cons,List.foldl_nil,before,same,List.filterMap_append]
    cases answered : event.answer <;> simp [answered]

/-- The next read is started. -/
def Continues (life after : Life) : Prop :=
  after.reads = life.reads + 1 ∧ after.managerStops = life.managerStops

/-- The manager's `Stop` is called, and no read is started. -/
def Stops (life after : Life) : Prop :=
  after.reads = life.reads ∧ after.managerStops = life.managerStops + 1

theorem written_continues {life after : Life} (taken : life.step (.written 0) = some after) :
    (Continues life after ↔ life.isLongConnection = true ∧ life.reply.status = .ok) ∧
      (¬ Continues life after → Stops life after) := by
  have ready : 0 < life.writes ∧ life.handling = .idle := by
    by_contra busy
    rw [step,if_neg busy] at taken
    cases taken
  rw [step,if_pos ready] at taken
  obtain rfl := Option.some.inj taken
  by_cases keeps : life.isLongConnection = true ∧ life.reply.status = .ok
  · obtain ⟨long,ok⟩ := keeps
    have next : life.handleWrite 0 = {life with writes := life.writes - 1,reads := life.reads + 1} := by
      simp [handleWrite,long,ok]
    have continues : Continues life (life.handleWrite 0) := by
      rw [next]
      exact ⟨rfl,rfl⟩
    exact ⟨iff_of_true continues ⟨long,ok⟩,fun stops => absurd continues stops⟩
  · have ends : 0 ≠ 0 ∨ life.reply.status ≠ .ok ∨ (!life.isLongConnection) = true := by
      by_cases ok : life.reply.status = .ok
      · exact .inr (.inr (by simpa [ok] using keeps))
      · exact .inr (.inl ok)
    have stops : Stops life (life.handleWrite 0) := by
      simp only [handleWrite,if_pos ends]
      exact ⟨rfl,rfl⟩
    have no : ¬ Continues life (life.handleWrite 0) := by
      intro continues
      have more := continues.1
      rw [stops.1] at more
      omega
    exact ⟨iff_of_false no keeps,fun _ => stops⟩

theorem Tracks.carries {status : StatusType} {history : History} {life : Life}
    (tracks : Tracks status history.events life) :
    life.isLongConnection = true ↔ ∃ headers ∈ history.heads, CarriesKeepAlive headers := by
  rw [tracks.long,history.flags,List.mem_map]
  simp only [requestKeepAlive_iff]

/-- The reply that has been written is the last answer so far; whether a request up to it asked for
keep-alive decides with its status. -/
theorem persistence (status : StatusType) (history : History) (life after : Life)
    (run : follow step (created status) history.events = some life) (written : life.step (.written 0) = some after) :
    history.events.countP LifeEvent.isRequest = history.events.countP LifeEvent.isWritten + 1 ∧
    (history.events.filterMap LifeEvent.answer).length = history.events.countP LifeEvent.isWritten + 1 ∧
    ((∀ event ∈ history.events, event.isPush = false) →
      (history.events.filterMap LifeEvent.answer).getLast? = some (standing status history.events)) ∧
    (Continues life after ↔
      (∃ headers ∈ history.heads, CarriesKeepAlive headers) ∧ standing status history.events = .ok) ∧
    (¬ Continues life after → Stops life after) := by
  have tracks := tracks_run run
  obtain ⟨continues,stops⟩ := written_continues written
  obtain ⟨writing,idle⟩ : 0 < life.writes ∧ life.handling = .idle := by
    cases step_cases written with
    | ends error writing idle | goesOn writing idle => exact ⟨writing,idle⟩
  have counted : (history.events.filterMap LifeEvent.answer).length =
      history.events.countP LifeEvent.isWritten + 1 := by
    rw [tracks.answers,((chained_run run).writing writing).2,if_neg (by simp [idle])]
  have asked : history.events.countP LifeEvent.isRequest = history.events.countP LifeEvent.isWritten + 1 := by
    rw [tracks.requests,if_neg (by simp [idle]),Nat.add_zero,counted]
  refine ⟨asked,counted,?_,?_,stops⟩
  · intro noPush
    have some_answer : history.events.filterMap LifeEvent.answer ≠ [] := by
      rintro none_
      rw [none_] at counted
      cases counted
    rw [standing_last noPush,List.getLast?_eq_some_getLast some_answer,Option.getD_some]
  · rw [continues,tracks.carries,tracks.standing]

/-- The first request asks for keep-alive, the second one does not. -/
def keptBySecond : History where
  events := [.start true,.read 0 .complete true,.handled (buidlReply (ascii "first")),.reply,.written 0,
    .read 0 .complete false,.handled (buidlReply (ascii "second")),.reply]
  heads := [[⟨ascii "Connection",ascii "Keep-Alive"⟩],[]]
  flags := by decide +kernel

theorem kept_by_second :
    ∃ life after, follow step (created .ok) keptBySecond.events = some life ∧
      life.step (.written 0) = some after ∧ keptBySecond.heads.getLast? = some [] ∧
      ¬ (Continues life after ↔ CarriesKeepAlive [] ∧ standing .ok keptBySecond.events = .ok) := by
  refine ⟨_,_,rfl,rfl,rfl,?_⟩
  intro follows
  obtain ⟨_,none_,_⟩ := (follows.mp ⟨rfl,rfl⟩).1
  cases none_

theorem persistence_sample :
    ∃ life after, follow step (created .ok) keptBySecond.events = some life ∧ life.step (.written 0) = some after ∧
      (Continues life after ↔
        (∃ headers ∈ keptBySecond.heads, CarriesKeepAlive headers) ∧ standing .ok keptBySecond.events = .ok) :=
  ⟨_,_,rfl,rfl,(persistence .ok keptBySecond _ _ rfl rfl).2.2.2.1⟩

end Life

end FuturesCellProxy.Server
