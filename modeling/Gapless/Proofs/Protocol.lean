/-
# Gapless.Proofs.Protocol -- everything that callers and a service can do

Callers, the holders of handles, the owner of a service and the service itself act one
after another, in any order (`Service.Act`).  A turn of the service is one act: it looks
whether it was told to stop, takes a request and answers it, and nobody comes in between;
`Gapless.Proofs.Between` is about those who do.  A caller that leaves while it is being
answered leaves afterwards.

`Service.play` is a run of acts; an act that is not possible when its time comes does
nothing.  Of every act it is kept what it came to (`Service.Outcome`), and the history of
a run is read off from that: what was sent, what entered the queue, what was taken from
it and who left at which stage, each in the order in which it happened.

`Acted` lists the ways in which an act can go, with all that is true when it goes that
way; what is proved of runs is proved of each of them.
-/
import Gapless.Service.Serving
import Mathlib.Data.List.Basic

namespace Gapless

set_option autoImplicit false

namespace Service

deriving instance DecidableEq for Stage

/-! ## Acts -/

/-- A service around a buffer that was not started yet. -/
def unstarted (buffer : Buffer) (capacity : Nat) : Service :=
  { buffer, capacity, phase := .unstarted }

/-- The request with a number, while its caller is there. -/
def caller? (service : Service) (id : Nat) : Option Pending :=
  service.pending.find? (·.id == id)

/-- What the service takes from the queue in the next turn. -/
def next? (service : Service) : Option (Nat × Request) :=
  match service.phase with
  | .running => if service.cancelled then none else service.queue.head?
  | .unstarted | .ended | .discarded => none

inductive Act where
  | send (handle : Nat) (request : Request)
  /-- A request that waits looks for room in the queue. -/
  | enter (id : Nat)
  /-- A caller takes its answer and goes. -/
  | collect (id : Nat)
  /-- A caller goes without an answer. -/
  | abandon (id : Nat)
  | openHandle (handle : Nat)
  | closeHandle (handle : Nat)
  | start
  | cancel
  | discard
  /-- The service does the next thing. -/
  | turn

inductive Outcome where
  | silent
  /-- A request that asks for nothing was answered without being sent. -/
  | spared (reply : Reply)
  | sent (id : Nat) (request : Request)
  | entered (id : Nat) (request : Request)
  /-- The service took a request; `present` says whether its caller was there then. -/
  | served (id : Nat) (request : Request) (present : Bool)
  | received (id : Nat) (answer : Answer)
  /-- A caller left at this stage of its request. -/
  | abandoned (id : Nat) (stage : Stage)
  deriving DecidableEq

def act (service : Service) : Act → Step Service Outcome
  | .send handle request =>
      if handle ∈ service.handles then
        match unsent? request with
        | some reply => ⟨service, .spared reply, []⟩
        | none => ⟨(service.arrive request).1, .sent (service.arrive request).2 request, []⟩
      else ⟨service, .silent, []⟩
  | .enter id =>
      let outcome :=
        match (service.enter id).queue[service.queue.length]? with
        | some (id, request) => .entered id request
        | none => .silent
      ⟨service.enter id, outcome, []⟩
  | .collect id =>
      match service.answer? id with
      | some answer => ⟨service.leave id, .received id answer, []⟩
      | none => ⟨service, .silent, []⟩
  | .abandon id =>
      match service.caller? id with
      | some caller => ⟨service.leave id, .abandoned id caller.stage, []⟩
      | none => ⟨service, .silent, []⟩
  | .openHandle handle =>
      ⟨if handle ∈ service.handles then service.openHandle else service, .silent, []⟩
  | .closeHandle handle => ⟨service.closeHandle handle, .silent, []⟩
  | .start => ⟨service.start, .silent, []⟩
  | .cancel => ⟨service.cancel, .silent, []⟩
  | .discard => service.discard.map fun _ => .silent
  | .turn =>
      service.turn.map fun _ =>
        match service.next? with
        | some (id, request) => .served id request (service.present id)
        | none => .silent

/-- A run of acts. -/
def play (service : Service) (acts : List Act) : Step Service (List Outcome) :=
  Step.each act service acts

theorem play_append (service : Service) (acts more : List Act) :
    service.play (acts ++ more) =
      (service.play acts).andThen fun after outcomes =>
        (after.play more).map (outcomes ++ ·) :=
  Step.each_append act service acts more

/-! ## Histories -/

/-- A request that was taken from the queue. -/
structure Serving where
  id : Nat
  request : Request
  /-- Whether the caller was still there. -/
  present : Bool
  deriving DecidableEq

def Serving.command (serving : Serving) : Nat × Request := (serving.id, serving.request)

structure History where
  sent : List (Nat × Request) := []
  /-- What entered the queue. -/
  entered : List (Nat × Request) := []
  /-- What was taken from the queue. -/
  taken : List Serving := []
  /-- Who left, and at which stage. -/
  left : List (Nat × Stage) := []

def History.add (history : History) : Outcome → History
  | .silent | .spared _ => history
  | .sent id request => { history with sent := history.sent ++ [(id, request)] }
  | .entered id request => { history with entered := history.entered ++ [(id, request)] }
  | .served id request present =>
      { history with taken := history.taken ++ [{ id, request, present }] }
  | .received id answer => { history with left := history.left ++ [(id, .answered answer)] }
  | .abandoned id stage => { history with left := history.left ++ [(id, stage)] }

/-- The history of a run, from what its acts came to. -/
def historyOf (outcomes : List Outcome) : History := outcomes.foldl History.add {}

theorem historyOf_append (outcomes more : List Outcome) :
    historyOf (outcomes ++ more) = more.foldl History.add (historyOf outcomes) :=
  List.foldl_append

end Service

/-! ## What serving does to a buffer -/

namespace Buffer

/-- What a buffer answers to a request that is served.  Bytes are taken out of it as they
are, also for a caller with a destination. -/
def reply (buffer : Buffer) : Request → Answer
  | .read count => .ok (.filled (buffer.take count).result)
  | request => (buffer.answer request).result

end Buffer

/-- The call on the buffer by which a request is served.  Nothing is read for a caller
that has left. -/
def Service.Serving.call? (serving : Service.Serving) : Option Buffer.Call :=
  match serving.request with
  | .ingest offset data => some (.request (.ingest offset data))
  | .read count | .take count =>
      if serving.present then some (.request (.take count)) else none
  | .stats => none

namespace Buffer

/-- The buffer after requests were served. -/
def served (buffer : Buffer) (servings : List Service.Serving) : Buffer :=
  (buffer.run (servings.filterMap Service.Serving.call?)).state

theorem served_append (buffer : Buffer) (servings more : List Service.Serving) :
    buffer.served (servings ++ more) = (buffer.served servings).served more := by
  unfold served run
  rw [List.filterMap_append, Step.each_append]
  rfl

theorem accept_ne_closed (buffer : Buffer) (incoming : Segment) :
    (buffer.accept incoming).result ≠ .error .closed := by
  unfold accept Limits.check
  dsimp only
  cases Limits.passed? _ buffer.limits.bytes with
  | some limit => simp
  | none =>
      cases Limits.passed? _ buffer.limits.segments with
      | some limit => simp
      | none => simp [Step.map, Step.lift]

theorem place_ne_closed (buffer : Buffer) (chunk : Chunk) :
    (buffer.place chunk).result ≠ .error .closed := by
  unfold place
  cases Offset.advance? chunk.offset chunk.length with
  | none => simp
  | some stop =>
      cases chunk.above? buffer.cursor with
      | none => simp
      | some incoming =>
          exact fun closed => buffer.accept_ne_closed incoming (error_of_map closed)

/-- No buffer refuses a chunk as a closed service does. -/
theorem ingest_ne_closed (buffer : Buffer) (offset : Nat) (data : Bytes) :
    (buffer.ingest offset data).result ≠ .error .closed := by
  unfold ingest ingestChunk
  split
  · simp
  · exact fun closed => buffer.place_ne_closed _ (error_of_map closed)

/-- **Only a closed service answers that it is closed.** -/
theorem reply_ne_closed (buffer : Buffer) (request : Request) :
    buffer.reply request ≠ .error .closed := by
  intro closed
  cases request with
  | ingest offset data => exact buffer.ingest_ne_closed offset data (error_of_map closed)
  | read count => cases closed
  | take count => cases closed
  | stats => cases closed

end Buffer

namespace Service

/-! ## Callers after each step -/

/-- What becomes of a request when the service closes. -/
def Pending.refused (pending : Pending) : Pending :=
  match pending.stage with
  | .waiting | .queued => { pending with stage := .answered (.error .closed) }
  | .answered _ => pending

@[simp] theorem Pending.id_refused (pending : Pending) : pending.refused.id = pending.id := by
  unfold refused
  cases pending.stage <;> rfl

@[simp] theorem Pending.request_refused (pending : Pending) :
    pending.refused.request = pending.request := by
  unfold refused
  cases pending.stage <;> rfl

section Callers

variable (service : Service) (id other : Nat)

theorem present_eq : service.present id = (service.caller? id).isSome := by
  unfold present caller?
  rw [List.isSome_find?]

theorem answer?_eq_some_iff {service : Service} {id : Nat} {answer : Answer} :
    service.answer? id = some answer ↔
      ∃ caller, service.caller? id = some caller ∧ caller.stage = .answered answer := by
  unfold answer? caller?
  rw [Option.bind_eq_some_iff]
  refine exists_congr fun caller => and_congr_right fun _ => ?_
  cases caller.stage with
  | waiting => simp
  | queued => simp
  | answered _ => simp

/-- A change to the pending requests that leaves them their numbers. -/
theorem find?_map_id {change : Pending → Pending}
    (keeps : ∀ pending, (change pending).id = pending.id) (pending : List Pending) :
    (pending.map change).find? (·.id == id) = (pending.find? (·.id == id)).map change := by
  rw [List.find?_map]
  congr 2
  funext pending
  simp [keeps]

theorem caller?_close (phase : Phase) :
    (service.close phase).caller? other = (service.caller? other).map Pending.refused :=
  find?_map_id other Pending.id_refused service.pending

theorem id_of_caller? {service : Service} {id : Nat} {caller : Pending}
    (found : service.caller? id = some caller) : caller.id = id := by
  simpa using List.find?_some found

theorem caller?_setStage {service : Service} {id : Nat} {caller : Pending}
    (found : service.caller? id = some caller) (stage : Stage) (other : Nat) :
    (service.setStage id stage).caller? other =
      if other = id then some { caller with stage } else service.caller? other := by
  have moved : (service.setStage id stage).caller? other =
      (service.caller? other).map fun caller =>
        if caller.id = id then { caller with stage } else caller :=
    find?_map_id other (fun pending => by split <;> rfl) service.pending
  rw [moved]
  by_cases same : other = id
  · subst same
    simp [found, id_of_caller? found]
  · cases known : service.caller? other with
    | none => simp [same]
    | some there => simp [same, id_of_caller? known]

/-- Nothing changes for a caller that is not there. -/
theorem setStage_of_absent {service : Service} {id : Nat} (absent : service.caller? id = none)
    (stage : Stage) : service.setStage id stage = service := by
  have same (pending : Pending) (member : pending ∈ service.pending) :
      (if pending.id = id then { pending with stage } else pending) = pending := by
    have other : (pending.id == id) ≠ true := List.find?_eq_none.1 absent pending member
    exact if_neg (by simpa using other)
  unfold setStage
  rw [List.map_congr_left same, List.map_id']

theorem caller?_leave :
    (service.leave id).caller? other = if other = id then none else service.caller? other := by
  unfold caller? leave
  dsimp only
  rw [List.find?_filter]
  by_cases same : other = id
  · simp [same]
  · rw [if_neg same]
    congr 1
    funext pending
    by_cases found : pending.id = other
    · simp [found, same]
    · simp [found]

theorem caller?_arrive (request : Request) :
    (service.arrive request).1.caller? other =
      (service.caller? other).or
        (if other = service.arrived then
          some
            { id := service.arrived
              request
              stage := if service.closed then .answered (.error .closed) else .waiting }
        else none) := by
  unfold caller? arrive
  dsimp only
  rw [List.find?_append, List.find?_singleton]
  congr 1
  by_cases same : other = service.arrived
  · simp [same, resolve]
  · simp [same, Ne.symm same]

end Callers

/-! ## Sending -/

section Send

variable {service : Service} {handle : Nat} (opened : handle ∈ service.handles) {request : Request}

include opened

/-- A request that asks for nothing needs no service. -/
theorem act_send_spared {reply : Reply} (nothing : unsent? request = some reply) :
    service.act (.send handle request) = ⟨service, .spared reply, []⟩ := by
  unfold act
  simp only [if_pos opened, nothing]

theorem act_send_asking (asks : unsent? request = none) :
    service.act (.send handle request) =
      ⟨(service.arrive request).1, .sent service.arrived request, []⟩ := by
  unfold act
  simp only [if_pos opened, asks]
  rfl

end Send

/-! ## Turns -/

/-- Serving does to the buffer what its history says, and answers the caller if it is
there. -/
theorem state_serve (service : Service) (id : Nat) (request : Request) :
    (service.serve id request).state =
      { service.setStage id (.answered (service.buffer.reply request)) with
        buffer := service.buffer.served [⟨id, request, service.present id⟩] } := by
  have absent (gone : service.present id = false) (stage : Stage) :
      service.setStage id stage = service := by
    rw [present_eq, Option.isSome_eq_false_iff, Option.isNone_iff_eq_none] at gone
    exact setStage_of_absent gone stage
  cases request with
  | ingest offset data => rfl
  | read count =>
      cases known : service.present id with
      | true =>
          rw [serve, serveBytes_of_present known]
          rfl
      | false => simp only [serve, serveBytes, known, absent known]; rfl
  | take count =>
      cases known : service.present id with
      | true =>
          rw [serve, serveBytes_of_present known]
          rfl
      | false => simp only [serve, serveBytes, known, absent known]; rfl
  | stats => rfl

section Queued

variable {service : Service} {id : Nat} {request : Request} {rest : List (Nat × Request)}
  (running : service.phase = .running) (going : service.cancelled = false)
  (first : service.queue = (id, request) :: rest)

include running going first

theorem turn_of_queued :
    service.turn = ({ service with queue := rest } : Service).serve id request := by
  cases service
  cases running
  cases going
  cases first
  rfl

theorem next?_of_queued : service.next? = some (id, request) := by
  cases service
  cases running
  cases going
  cases first
  rfl

end Queued

/-! ## The ways in which an act can go -/

inductive Acted (service : Service) : Outcome → Service → Prop
  /-- Nothing happened to any request, and the service did not stop. -/
  | quiet {outcome : Outcome} (silent : ∀ history : History, history.add outcome = history)
      {phase : Phase}
      (begun : phase = service.phase ∨ service.phase = .unstarted ∧ phase = .running)
      {cancelled : Bool} (lasting : service.cancelled = true → cancelled = true)
      (handles : List Nat) (opened : Nat) :
      Acted service outcome { service with phase, cancelled, handles, opened }
  | sent (request : Request) :
      Acted service (.sent service.arrived request) (service.arrive request).1
  | entered {id : Nat} {caller : Pending} (found : service.caller? id = some caller)
      (waits : caller.stage = .waiting) (room : service.queue.length < service.capacity) :
      Acted service (.entered id caller.request)
        { service.setStage id .queued with queue := service.queue ++ [(id, caller.request)] }
  | served {id : Nat} {request : Request} {rest : List (Nat × Request)}
      (running : service.phase = .running) (going : service.cancelled = false)
      (first : service.queue = (id, request) :: rest) :
      Acted service (.served id request (service.present id))
        { service.setStage id (.answered (service.buffer.reply request)) with
          buffer := service.buffer.served [⟨id, request, service.present id⟩]
          queue := rest }
  | received {id : Nat} {answer : Answer} {caller : Pending}
      (found : service.caller? id = some caller) (answered : caller.stage = .answered answer) :
      Acted service (.received id answer) (service.leave id)
  | abandoned {id : Nat} {caller : Pending} (found : service.caller? id = some caller) :
      Acted service (.abandoned id caller.stage) (service.leave id)
  | closed {phase : Phase}
      (ends : service.phase = .running ∧ phase = .ended ∨
        service.phase = .unstarted ∧ phase = .discarded) :
      Acted service .silent (service.close phase)

/-- An act that changes nothing. -/
theorem Acted.idle (service : Service) : Acted service .silent service :=
  .quiet (fun _ => rfl) (.inl rfl) id service.handles service.opened

theorem acted_enter (service : Service) (id : Nat) :
    Acted service (service.act (.enter id)).result (service.act (.enter id)).state := by
  have idle : service.enter id = service →
      Acted service (service.act (.enter id)).result (service.act (.enter id)).state := by
    intro same
    simp only [act, same, List.getElem?_eq_none (Nat.le_refl _)]
    exact .idle service
  cases found : service.caller? id with
  | none =>
      refine idle ?_
      unfold caller? at found
      unfold enter
      rw [found]
  | some caller =>
      obtain ⟨own, request, stage⟩ := caller
      have looked := found
      unfold caller? at looked
      cases stage with
      | waiting =>
          by_cases room : service.queue.length + service.ahead id < service.capacity
          · have enters : service.enter id =
                { service.setStage id .queued with queue := service.queue ++ [(id, request)] } := by
              unfold enter
              rw [looked]
              exact if_pos room
            have entered := Acted.entered found rfl (by omega)
            simp only [act, enters]
            simpa using entered
          · refine idle ?_
            unfold enter
            rw [looked]
            exact if_neg room
      | queued =>
          refine idle ?_
          unfold enter
          rw [looked]
      | answered answer =>
          refine idle ?_
          unfold enter
          rw [looked]

theorem acted_turn (service : Service) :
    Acted service (service.act .turn).result (service.act .turn).state := by
  cases running : service.phase with
  | running =>
      cases going : service.cancelled with
      | true =>
          simp only [act, turn, next?, running, going, if_true, Step.map]
          exact .closed (.inl ⟨running, rfl⟩)
      | false =>
          cases first : service.queue with
          | nil =>
              simp only [act, turn, proceed, next?, running, going, first, Step.map,
                List.head?_nil, Bool.false_eq_true, if_false]
              split
              · exact .closed (.inl ⟨running, rfl⟩)
              · exact .idle service
          | cons command rest =>
              have served := Acted.served running going first
              rw [act, turn_of_queued running going first, next?_of_queued running going first]
              dsimp only [Step.map]
              rw [state_serve]
              exact served
  | unstarted =>
      simp only [act, turn, next?, running, Step.map]
      exact .idle service
  | ended =>
      simp only [act, turn, next?, running, Step.map]
      exact .idle service
  | discarded =>
      simp only [act, turn, next?, running, Step.map]
      exact .idle service

/-- **Every act goes in one of these ways.** -/
theorem acted (service : Service) (act : Act) :
    Acted service (service.act act).result (service.act act).state := by
  cases act with
  | send handle request =>
      unfold Service.act
      dsimp only
      split
      · cases unsent? request with
        | some reply => exact .quiet (fun _ => rfl) (.inl rfl) id service.handles service.opened
        | none => exact .sent request
      · exact .idle service
  | enter id => exact service.acted_enter id
  | collect id =>
      cases known : service.answer? id with
      | none =>
          simp only [Service.act, known]
          exact .idle service
      | some answer =>
          obtain ⟨caller, found, answered⟩ := answer?_eq_some_iff.1 known
          simp only [Service.act, known]
          exact .received found answered
  | abandon id =>
      cases found : service.caller? id with
      | none =>
          simp only [Service.act, found]
          exact .idle service
      | some caller =>
          simp only [Service.act, found]
          exact .abandoned found
  | openHandle handle =>
      unfold Service.act
      dsimp only
      split
      · exact .quiet (fun _ => rfl) (.inl rfl) id _ _
      · exact .idle service
  | closeHandle handle => exact .quiet (fun _ => rfl) (.inl rfl) id _ _
  | start =>
      unfold Service.act start
      dsimp only
      split
      · next fresh => exact .quiet (fun _ => rfl) (.inr ⟨fresh, rfl⟩) id _ _
      · exact .idle service
  | cancel => exact .quiet (fun _ => rfl) (.inl rfl) (fun _ => rfl) _ _
  | discard =>
      cases known : service.phase with
      | unstarted =>
          simp only [Service.act, discard, known, Step.map]
          exact .closed (.inr ⟨known, rfl⟩)
      | running => simp only [Service.act, discard, known, Step.map]; exact .idle service
      | ended => simp only [Service.act, discard, known, Step.map]; exact .idle service
      | discarded => simp only [Service.act, discard, known, Step.map]; exact .idle service
  | turn => exact service.acted_turn

/-- What every act keeps is true after every run. -/
theorem play_induction {motive : History → Service → Prop}
    (step : ∀ {history service outcome after}, Acted service outcome after →
      motive history service → motive (history.add outcome) after)
    (history : History) {service : Service} (base : motive history service) (acts : List Act) :
    motive ((service.play acts).result.foldl History.add history) (service.play acts).state := by
  induction acts generalizing history service with
  | nil => exact base
  | cons act acts ih => exact ih _ (step (service.acted act) base)

end Service

end Gapless
