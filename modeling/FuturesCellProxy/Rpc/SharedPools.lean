import FuturesCellProxy.Rpc.Leasing
import Mathlib.Data.Finset.Image

/-! Programs side by side on the pools that they share. A pool gives out its lowest client; if
it has none it stays locked until the new client is constructed. What a wrapper holds travels
with the program that has its client, and the programs' steps are those of the pools' machine,
where the wrappers are in one memory. -/
namespace FuturesCellProxy.Rpc
open Foundation

/-- The two pools, the addresses at which clients live, and the client that each request
points to. -/
structure Pools (Request : Type) where
  clientSet : Service → Finset Client := fun _ => ∅
  clientsMutex : Service → Option Request := fun _ => none
  heap : Finset Nat := ∅
  client : Request → Option Nat := fun _ => none

namespace Pools
variable {Request : Type} [DecidableEq Request]

/-- What an event does to the pools, if it can occur. -/
def step (pools : Pools Request) (request : Request) : Step → Option (Pools Request)
  | ⟨.getClient service,some client⟩ =>
    if pools.clientsMutex service = none ∧ client ∈ pools.clientSet service ∧
        ∀ other ∈ pools.clientSet service, client.address ≤ other.address then
      some {pools with
        clientSet := Function.update pools.clientSet service ((pools.clientSet service).erase client)
        client := Function.update pools.client request (some client.address)}
    else none
  | ⟨.getClient service,none⟩ =>
    if pools.clientsMutex service = none ∧ pools.clientSet service = ∅ then
      some {pools with clientsMutex := Function.update pools.clientsMutex service (some request)}
    else none
  | ⟨.newClient service,address⟩ =>
    if pools.clientsMutex service = some request ∧ (address : Nat) ∉ pools.heap then
      some {pools with
        heap := insert (address : Nat) pools.heap
        client := Function.update pools.client request (some address)}
    else none
  | ⟨.openTransport service _,_⟩ =>
    if pools.clientsMutex service = some request then
      some {pools with clientsMutex := Function.update pools.clientsMutex service none}
    else some pools
  | ⟨.freeClient service client usable,_⟩ =>
    if pools.clientsMutex service = none then
      if usable then
        some {pools with
          clientSet := Function.update pools.clientSet service (insert client (pools.clientSet service))
          client := Function.update pools.client request none}
      else some pools
    else none
  | _ => some pools

/-- A request is over, and with it the client that it still points to. -/
def leave (pools : Pools Request) (request : Request) : Pools Request :=
  match pools.client request with
  | some address => {pools with
      heap := pools.heap.erase address
      client := Function.update pools.client request none}
  | none => pools

end Pools

section Serve
variable {Request α : Type} [DecidableEq Request]

/-- One event of one request, with what it does to the pools. -/
def serve (state : (Request → Prog α) × Pools Request) (entry : Request × Step) :
    Option ((Request → Prog α) × Pools Request) := do
  let programs ← interleave state.1 entry
  let pools ← state.2.step entry.1 entry.2
  some (programs,if (programs entry.1).finished then pools.leave entry.1 else pools)

/-- The two pools as machines of their own. -/
def poolsStep (pools : Service → Pool Request) (event : Service × PoolEvent Request) : Option (Service → Pool Request) :=
  (Pool.step event.1 (pools event.1) event.2).map (Function.update pools event.1)

end Serve

inductive Seen where
  | got (address : Nat)
  | opened (ok : Bool)
  | called (normal : Bool)
  | freed (address : Nat)
  deriving DecidableEq, Repr

def seen : Step → Option (Service × Seen)
  | ⟨.getClient service,some client⟩ => some (service,.got client.address)
  | ⟨.newClient service,address⟩ => some (service,.got address)
  | ⟨.openTransport service _,ok⟩ => some (service,.opened ok)
  | ⟨.validateSession _ _,answer⟩ => some (.authen,.called answer.isSome)
  | ⟨.tradeCall _ _,answer⟩ => some (.spTradeInfo,.called answer.isSome)
  | ⟨.freeClient service client true,_⟩ => some (service,.freed client.address)
  | _ => none

def seenOf {Request : Type} (entry : Request × Step) : Option (Request × Service × Seen) :=
  (seen entry.2).map (Prod.mk entry.1)

def Action.shows : Action → Option Seen
  | attempt => none
  | opened ok => some (.opened ok)
  | called normal => some (.called normal)

def PoolEvent.shows {Request : Type} : PoolEvent Request → Option (Request × Seen)
  | get request address _ => some (request,.got address)
  | act request action => action.shows.map (Prod.mk request)
  | free request address => some (request,.freed address)
  | drop _ _ => none

def showsOf {Request : Type} (event : Service × PoolEvent Request) : Option (Request × Service × Seen) :=
  event.2.shows.map fun shown => (shown.1,event.1,shown.2)

namespace Holding

def client : Holding → Option Nat
  | held _ address _ _ => some address
  | _ => none

/-- The pool that is locked while its client is made. -/
def locks : Holding → Option Service
  | making service => some service
  | held service _ (.constructing _) _ => some service
  | _ => none

def use (service : Service) : Holding → Option (Nat × Stage)
  | held of address stage _ => if of = service then some (address,stage) else none
  | _ => none

end Holding

end FuturesCellProxy.Rpc
