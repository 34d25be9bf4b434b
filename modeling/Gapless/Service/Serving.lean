/-
# Gapless.Service.Serving -- the part of the service

A running service does one thing at a time (`Service.turn`): told to stop it stops,
else it serves the request at the head of the queue, else it stops when it is
deserted, else there is nothing to do.  Being told to stop comes before everything
that is still queued; being deserted comes after.

A queued chunk is ingested whether or not its caller is still there.  Reading uses
bytes up, so a read whose caller has left is passed over.

A turn is taken to be atomic.  On several threads it has parts, and somebody may be told
or may leave between them; `Gapless.Proofs.Between` says what that comes to.
-/
import Gapless.Service

namespace Gapless.Service

set_option autoImplicit false

/-- Close the service: who waits for room cannot send any more, and what is queued is
dropped. -/
def close (service : Service) (phase : Phase) : Service :=
  { service with
    phase
    queue := []
    pending := service.pending.map fun pending =>
      match pending.stage with
      | .waiting => { pending with stage := .answered (resolve (.error .unsent)) }
      | .queued => { pending with stage := .answered (resolve (.error .dropped)) }
      | .answered _ => pending }

/-- Send an answer back to a caller; one that has left does not get it. -/
def respond (service : Service) (id : Nat) (answer : Answer) : Service :=
  service.setStage id (.answered (resolve (.ok answer)))

/-- Send bytes back to a caller, which have left the buffer already.  Without a caller they
are lost. -/
def deliver (service : Service) (id : Nat) (bytes : Bytes) (reply : Bytes → Reply) :
    Step Service Unit :=
  if service.present id then ⟨service.respond id (.ok (reply bytes)), (), []⟩
  else ⟨service, (), if bytes.isEmpty then [] else [.discarded bytes.length]⟩

/-- Take the next bytes out of the buffer and send them to a caller. -/
def sendBytes (service : Service) (id count : Nat) (reply : Bytes → Reply) : Step Service Unit :=
  ((service.buffer.take count).lift ({ service with buffer := · })).andThen fun service bytes =>
    service.deliver id bytes reply

/-- Hand a caller the next bytes, if it is still there to take them. -/
def serveBytes (service : Service) (id count : Nat) (reply : Bytes → Reply) :
    Step Service Unit :=
  if service.present id then service.sendBytes id count reply else ⟨service, (), []⟩

/-- Nobody comes in between, so that the bytes are not lost. -/
theorem serveBytes_of_present {service : Service} {id : Nat} (there : service.present id = true)
    (count : Nat) (reply : Bytes → Reply) :
    service.serveBytes id count reply =
      { state := { service with buffer := (service.buffer.take count).state }.respond id
          (.ok (reply (service.buffer.take count).result))
        result := ()
        events := (service.buffer.take count).events } := by
  have stays : ({ service with buffer := (service.buffer.take count).state } : Service).present id =
      true := there
  simp [serveBytes, sendBytes, deliver, Step.andThen, Step.lift, there, stays]

theorem events_serveBytes (service : Service) (id count : Nat) (reply : Bytes → Reply) :
    (service.serveBytes id count reply).events =
      if service.present id then (service.buffer.take count).events else [] := by
  cases there : service.present id with
  | true => rw [serveBytes_of_present there, if_pos rfl]
  | false => simp [serveBytes, there]

/-- Serve a request taken from the queue.  Bytes are always taken out of the buffer
as they are; a caller with a destination puts them there itself. -/
def serve (service : Service) (id : Nat) : Request → Step Service Unit
  | .ingest offset data =>
      let step := service.buffer.ingest offset data
      { state := { service with buffer := step.state }.respond id
          (step.result.map fun _ => .done)
        result := ()
        events := step.events ++ Desk.service.report offset data.length step.result }
  | .read count => service.serveBytes id count .filled
  | .take count => service.serveBytes id count .taken
  | .stats => ⟨service.respond id (.ok (.stats service.buffer.stats)), (), []⟩

/-- What a running service does after it has seen that it was not told to stop. -/
def proceed (service : Service) : Step Service Unit :=
  match service.queue with
  | (id, request) :: rest => { service with queue := rest }.serve id request
  | [] =>
      if service.deserted then ⟨service.close .ended, (), [.stopped .abandoned]⟩
      else ⟨service, (), []⟩

/-- The one thing that the service does next. -/
def turn (service : Service) : Step Service Unit :=
  match service.phase with
  | .running =>
      if service.cancelled then ⟨service.close .ended, (), [.stopped .cancelled]⟩
      else service.proceed
  | .unstarted | .ended | .discarded => ⟨service, (), []⟩

def turns : Nat → Service → Step Service Unit
  | 0, service => ⟨service, (), []⟩
  | count + 1, service => service.turn.andThen fun service _ => turns count service

/-- Let the service go on until it has nothing left to do: one turn for each queued
request, and one in which it may stop. -/
def settle (service : Service) : Step Service Unit :=
  turns (service.queue.length + 1) service

/-! ## Beginning and end -/

/-- Start a service that was not started. -/
def start (service : Service) : Service :=
  if service.phase = .unstarted then { service with phase := .running } else service

/-- Tell a service to stop. -/
def cancel (service : Service) : Service := { service with cancelled := true }

/-- Throw away a service that was not started, and its buffer with it. -/
def discard (service : Service) : Step Service Unit :=
  match service.phase with
  | .unstarted => ⟨service.close .discarded, (), service.buffer.release⟩
  | .running | .ended | .discarded => ⟨service, (), []⟩

/-- The buffer of a service that has run to its end. -/
def returned? (service : Service) : Option Buffer :=
  if service.phase = .ended then some service.buffer else none

/-- Everybody goes: all callers leave, all handles are closed, and the service
stops if it was running.  The result is the buffer it hands back, if any; what the
buffer still holds is released. -/
def conclude (service : Service) : Step Service (Option Buffer) :=
  let gone := { service.leaveAll with handles := [] }
  gone.settle.andThen fun service _ =>
    let events := if service.phase = .discarded then [] else service.buffer.release
    ⟨service, service.returned?, events⟩

end Gapless.Service
