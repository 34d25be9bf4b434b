/-
# Gapless.Session -- using a service from a single thread

Here callers and service take turns: the service goes on only while somebody waits
for something.  A session is a list of moves.  A caller either waits for its
answer (`Move.request`) or leaves the request pending (`Move.enqueue`) to wait for
it later (`Move.collect`) or never (`Move.abandon`).

So that the service gets its turn, there is only so much that the callers may do
without waiting (`Session.allowance`).  Entering the queue takes one off, and so does
having an answer.  When nothing is left, a request waits even if there is room for it
and an answer stays where it is, until somebody has waited.  A closed service needs
no turn, and there all answers are had at once.

Waiting for an answer takes at most two waits: after the first one the queue is empty
and the allowance is full, so that a request which still waited for room enters, and
after the second one it is answered.
-/
import Gapless.Service.Serving

namespace Gapless

set_option autoImplicit false

structure Session where
  service : Service
  /-- What the callers may still do before somebody waits. -/
  allowance : Nat := 128

namespace Session

/-- A session in which somebody has just waited. -/
def rested (service : Service) : Session := { service }

/-! ## Waiting for answers -/

/-- Let the service go on until it has nothing left to do. -/
def wait (session : Session) : Step Session Unit := session.service.settle.lift rested

/-- Look once for the answer to a pending request, and have it if it is there.  A
request that still waits for room enters first, if it can. -/
def look (session : Session) (id : Nat) : Session × Option Answer :=
  if session.allowance = 0 && !session.service.closed then (session, none)
  else
    let service := session.service.enter id
    match service.answer? id with
    | some answer =>
        ({ service := service.leave id, allowance := session.allowance - 1 }, some answer)
    | none =>
        let entered := service.queue.length - session.service.queue.length
        ({ service, allowance := session.allowance - entered }, none)

/-- Wait for the answer to a pending request, and have it; look again after each of so
many waits.  `none` when no answer comes. -/
def awaitFor (session : Session) (id : Nat) : Nat → Step Session (Option Answer)
  | 0 =>
      let (session, answer) := session.look id
      ⟨{ session with service := session.service.leave id }, answer, []⟩
  | waits + 1 =>
      match session.look id with
      | (session, some answer) => ⟨session, some answer, []⟩
      | (session, none) => session.wait.andThen fun session _ => session.awaitFor id waits

/-- Wait for the answer to a pending request, and have it.  `none` when no answer
will come. -/
def await (session : Session) (id : Nat) : Step Session (Option Answer) := session.awaitFor id 2

/-- A request arrives.  Its number is the result. -/
def arrive (session : Session) (request : Request) : Session × Nat :=
  let (service, id) := session.service.arrive request
  ({ session with service }, id)

/-- Send a request and wait for the answer. -/
def request (session : Session) (request : Request) : Step Session (Option Answer) :=
  match Service.unsent? request with
  | some reply => ⟨session, some (.ok reply), []⟩
  | none =>
      let (session, id) := session.arrive request
      session.await id

/-- Send a request and look once for the answer, without letting the service go on. -/
def enqueue (session : Session) (request : Request) : Step Session (Option Answer) :=
  match Service.unsent? request with
  | some reply => ⟨session, some (.ok reply), []⟩
  | none =>
      let (session, id) := session.arrive request
      let (session, answer) := session.look id
      ⟨session, answer, []⟩

/-- Wait for all pending requests, in the order of their arrival. -/
def collect (session : Session) : Step Session (List (Option Answer)) :=
  Step.each await session (session.service.pending.map (·.id))

/-! ## Moves -/

inductive Move where
  | request (handle : Nat) (request : Request)
  | enqueue (handle : Nat) (requests : List Request)
  | collect
  | abandon
  | settle
  | start
  | cancel
  | discard
  | isClosed (handle : Nat)
  | openHandle (handle : Nat)
  | closeHandle (handle : Nat)
  deriving DecidableEq

inductive Result where
  | done
  /-- `none` when no answer will come. -/
  | answer (answer : Option Answer)
  /-- `none` for each request that is still pending. -/
  | answers (answers : List (Option Answer))
  | count (count : Nat)
  | flag (flag : Bool)
  /-- There is no such open handle. -/
  | noHandle

/-- Do something with an open handle. -/
def withHandle (session : Session) (handle : Nat) (step : Step Session Result) :
    Step Session Result :=
  if handle ∈ session.service.handles then step else ⟨session, .noHandle, []⟩

/-- The session after something was done to the service and nobody waited. -/
def onService (session : Session) (service : Service) : Session := { session with service }

def perform (session : Session) : Move → Step Session Result
  | .request handle request =>
      session.withHandle handle ((session.request request).map .answer)
  | .enqueue handle requests =>
      session.withHandle handle ((Step.each enqueue session requests).map .answers)
  | .collect => session.collect.map .answers
  | .abandon =>
      ⟨session.onService session.service.leaveAll, .count session.service.pending.length, []⟩
  | .settle => session.wait.map fun _ => .done
  | .start =>
      (session.onService session.service.start).wait.map fun _ =>
        .flag (session.service.phase = .unstarted)
  | .cancel => (session.onService session.service.cancel).wait.map fun _ => .done
  | .discard => (session.service.discard.lift session.onService).map fun _ => .done
  | .isClosed handle => session.withHandle handle ⟨session, .flag session.service.closed, []⟩
  | .openHandle handle =>
      session.withHandle handle
        ⟨session.onService session.service.openHandle, .count (session.service.opened + 1), []⟩
  | .closeHandle handle =>
      session.withHandle handle <|
        (session.onService (session.service.closeHandle handle)).wait.andThen fun session _ =>
          ⟨session, .flag (session.service.phase = .ended), []⟩

end Session

end Gapless
