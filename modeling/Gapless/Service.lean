/-
# Gapless.Service -- a buffer that serves requests from a queue

Instead of sharing a buffer, its users can send their requests to a service that
owns it.  Requests are served one at a time in the order in which they entered a
queue with room for `capacity` of them.

A request lives from its arrival until its caller has the answer or leaves
(`Service.pending`).  On its way it is first `waiting` for room, then `queued`, then
`answered`.  Room is given out in the order of arrival, and it is kept for those to
whom it was given: a request enters when all that still wait before it would fit in
as well.  The queue does not know whether a caller is still there: what has entered
it stays, and a caller is gone once its number is no longer pending.

The service runs from the moment it is started until it is cancelled, or until
nobody is left who could send anything.  A service may also be thrown away before
it was started.  After either it is `closed`: nothing more is served.  Who waits for room
then, or arrives, cannot send any more, and what was sent is dropped without an answer.
To a caller one `Loss` is like the other, and is told as a refusal (`resolve`).

This module holds the state and the part of the caller; `Gapless.Service.Serving`
holds the part of the service.
-/
import Gapless.Buffer.Request

namespace Gapless

set_option autoImplicit false

namespace Service

inductive Phase where
  | unstarted
  | running
  | ended
  | discarded
  deriving DecidableEq

inductive Stage where
  /-- Waits for room in the queue. -/
  | waiting
  | queued
  | answered (answer : Answer)

/-- Why a request has no answer of the service. -/
inductive Loss where
  /-- The queue takes nothing any more. -/
  | unsent
  /-- It was dropped, and the way back to its caller with it. -/
  | dropped

/-- What a request comes to for its caller. -/
def resolve : Except Loss Answer → Answer
  | .ok answer => answer
  | .error .unsent => .error .closed
  | .error .dropped => .error .closed

/-- A request whose caller is still there. -/
structure Pending where
  id : Nat
  request : Request
  stage : Stage

/-- Whether a request waits for room in the queue. -/
def Pending.waits (pending : Pending) : Bool :=
  match pending.stage with
  | .waiting => true
  | .queued | .answered _ => false

/-- The room in the queue of a service that is started right away. -/
def defaultCapacity : Nat := 64

end Service

structure Service where
  buffer : Buffer
  capacity : Nat := Service.defaultCapacity
  phase : Service.Phase := .running
  /-- Whether the service was told to stop. -/
  cancelled : Bool := false
  /-- What has entered and was not taken yet, in order, with the callers' numbers. -/
  queue : List (Nat × Request) := []
  /-- The requests whose callers are still there, in the order of their arrival. -/
  pending : List Service.Pending := []
  /-- The numbers of the open handles. -/
  handles : List Nat := [0]
  /-- How many handles were ever opened. -/
  opened : Nat := 1
  /-- How many requests ever arrived. -/
  arrived : Nat := 0

namespace Service

/-- Whether the service has stopped for good. -/
def closed (service : Service) : Bool :=
  match service.phase with
  | .unstarted | .running => false
  | .ended | .discarded => true

/-- Whether a caller is still there. -/
def present (service : Service) (id : Nat) : Bool := service.pending.any (·.id == id)

/-- The answer a caller has got. -/
def answer? (service : Service) (id : Nat) : Option Answer :=
  (service.pending.find? (·.id == id)).bind fun pending =>
    match pending.stage with
    | .answered answer => some answer
    | .waiting | .queued => none

/-- Move a request on to another stage. -/
def setStage (service : Service) (id : Nat) (stage : Stage) : Service :=
  { service with
    pending := service.pending.map fun pending =>
      if pending.id = id then { pending with stage } else pending }

/-! ## The caller's part -/

/-- What a request comes to when it asks for nothing: it is not sent at all. -/
def unsent? : Request → Option Reply
  | .ingest _ data => if data.isEmpty then some .done else none
  | .read count => if count = 0 then some (.filled []) else none
  | .take count => if count = 0 then some (.taken []) else none
  | .stats => none

/-- A request arrives, and waits for room unless the service is closed.  Its number is
the result. -/
def arrive (service : Service) (request : Request) : Service × Nat :=
  let stage := if service.closed then .answered (resolve (.error .unsent)) else .waiting
  ({ service with
      pending := service.pending ++ [{ id := service.arrived, request, stage }]
      arrived := service.arrived + 1 },
    service.arrived)

/-- How many requests that arrived before this one still wait for room. -/
def ahead (service : Service) (id : Nat) : Nat :=
  (service.pending.takeWhile (·.id ≠ id)).countP (·.waits)

/-- A waiting request enters the queue if there is room for it and for those ahead of
it. -/
def enter (service : Service) (id : Nat) : Service :=
  match service.pending.find? (·.id == id) with
  | some { request, stage := .waiting, .. } =>
      if service.queue.length + service.ahead id < service.capacity then
        { service.setStage id .queued with queue := service.queue ++ [(id, request)] }
      else service
  | _ => service

/-- A caller leaves. -/
def leave (service : Service) (id : Nat) : Service :=
  { service with pending := service.pending.filter (·.id ≠ id) }

/-- All callers leave. -/
def leaveAll (service : Service) : Service := { service with pending := [] }

/-- Open another handle. -/
def openHandle (service : Service) : Service :=
  { service with
    handles := service.handles ++ [service.opened]
    opened := service.opened + 1 }

def closeHandle (service : Service) (handle : Nat) : Service :=
  { service with handles := service.handles.filter (· ≠ handle) }

/-- Whether nobody is left who could send a request.  A pending request counts:
its caller has a handle of its own. -/
def deserted (service : Service) : Bool := service.handles.isEmpty && service.pending.isEmpty

end Service

end Gapless
