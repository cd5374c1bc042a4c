import FuturesCellProxy.Foundation.Machine

/-! Threads that work on shared data, each operation under one mutex from its first to its
last step. Whatever the order of the steps, the data are those that the operations leave one
after the other, in the order in which they get the mutex. -/
namespace FuturesCellProxy.Foundation

/-- The code under the mutex: how an operation begins, and one step of what is left of it,
after which there is more of it or the mutex is given back. -/
structure Critical (Data Op Task : Type) where
  enter : Op → Task
  next : Task → Data → Data × Option Task

structure Locked (Data Thread Task : Type) where
  data : Data
  holder : Option (Thread × Task) := none

inductive LockEvent (Thread Op : Type) where
  | lock (thread : Thread) (operation : Op)
  | advance (thread : Thread)

/-- The operation that gets the mutex. -/
def LockEvent.operation {Thread Op : Type} : LockEvent Thread Op → Option Op
  | lock _ operation => some operation
  | advance _ => none

namespace Critical
variable {Data Thread Op Task : Type} (critical : Critical Data Op Task)

def step [DecidableEq Thread] (state : Locked Data Thread Task) : LockEvent Thread Op → Option (Locked Data Thread Task)
  | .lock thread operation =>
    match state.holder with
    | none => some {state with holder := some (thread,critical.enter operation)}
    | some _ => none
  | .advance thread =>
    match state.holder with
    | none => none
    | some (holder,task) =>
      if holder = thread then
        let (data,rest) := critical.next task state.data
        some {data := data,holder := rest.map (Prod.mk thread)}
      else none

/-- What a task does to the data from its next step to its end. -/
def Completes (complete : Task → Data → Data) : Prop :=
  ∀ task data, complete task data =
    match critical.next task data with
    | (after,none) => after
    | (after,some rest) => complete rest after

/-- The data once the operation under way is over. -/
def finish (complete : Task → Data → Data) (state : Locked Data Thread Task) : Data :=
  match state.holder with
  | none => state.data
  | some (_,task) => complete task state.data

def serial (complete : Task → Data → Data) (data : Data) (operations : List Op) : Data :=
  operations.foldl (fun data operation => complete (critical.enter operation) data) data

variable {critical} [DecidableEq Thread] {complete : Task → Data → Data}

theorem finish_step (completes : critical.Completes complete) {state after : Locked Data Thread Task}
    {event : LockEvent Thread Op} (taken : critical.step state event = some after) :
    finish complete after = critical.serial complete (finish complete state) event.operation.toList := by
  cases event with
  | lock thread operation =>
    simp only [step] at taken
    split at taken
    next free =>
      cases taken
      simp [finish,free,serial,LockEvent.operation]
    next => cases taken
  | advance thread =>
    simp only [step] at taken
    split at taken
    · cases taken
    next holder task held =>
      split at taken
      next =>
        cases taken
        have whole := completes task state.data
        cases moved : critical.next task state.data with
        | mk data rest =>
          rw [moved] at whole
          cases rest <;> simp [finish,held,serial,LockEvent.operation,moved,whole]
      next => cases taken

theorem finish_run (completes : critical.Completes complete) {data : Data} {state : Locked Data Thread Task}
    {events : List (LockEvent Thread Op)} (run : follow critical.step {data := data} events = some state) :
    finish complete state = critical.serial complete data (events.filterMap LockEvent.operation) := by
  apply @follow_history _ _ critical.step
    (fun past state => finish complete state = critical.serial complete data (past.filterMap LockEvent.operation)) _ [] _ _ _ rfl run
  intro past state event after holds taken
  rw [finish_step completes taken,holds,List.filterMap_append]
  simp only [serial,List.foldl_append]
  cases event <;> rfl

end Critical

end FuturesCellProxy.Foundation
