/-
# Gapless.Proofs.FrontEnds -- a buffer alone, behind handles and owned by a service

Whoever sends one request after another, and waits for each answer before the next one, gets
the answers of a buffer of its own, and the buffer ends as its own would
(`front_ends_agree`).

Behind handles that is `Shared.run_mirrors`, and for a service that gets on somehow while its
callers wait it is `Service.Stands.play`.  In a session it gets on only while somebody waits,
and there waiting is enough: between two requests a service has nothing to do
(`Session.Idle`), and a request finds it so and leaves it so (`Idle.request`).
-/
import Gapless.Proofs.Awaiting

namespace Gapless

set_option autoImplicit false

/-! ## Sessions in which every answer is awaited -/

namespace Session

/-- The handles of a service: which are open, and how many ever were. -/
structure Handles where
  there : List Nat := [0]
  opened : Nat := 1

/-- The handles after a move. -/
def Handles.after (handles : Handles) : Move → Handles
  | .openHandle handle =>
      if handle ∈ handles.there then ⟨handles.there ++ [handles.opened], handles.opened + 1⟩
      else handles
  | .closeHandle handle => { handles with there := handles.there.filter (· ≠ handle) }
  | _ => handles

/-- What a move asks of the buffer when these handles are open. -/
def Move.asks (handles : Handles) : Move → List Request
  | .request handle one => if handle ∈ handles.there then [one] else []
  | _ => []

def asked : Handles → List Move → List Request
  | _, [] => []
  | handles, move :: moves => move.asks handles ++ asked (handles.after move) moves

/-- A move that leaves no request behind and does not tell the service to stop. -/
def Move.Awaits : Move → Prop
  | .enqueue _ _ | .cancel => False
  | _ => True

instance (move : Move) : Decidable move.Awaits :=
  match move with
  | .enqueue _ _ | .cancel => .isFalse id
  | .request _ _ | .collect | .abandon | .settle | .start | .discard | .isClosed _
  | .openHandle _ | .closeHandle _ => .isTrue trivial

/-- A session between two requests: nobody waits for anything, and the service runs while there
is a handle. -/
structure Idle (session : Session) (buffer : Buffer) (handles : Handles) : Prop where
  buffer : session.service.buffer = buffer
  pending : session.service.pending = []
  queue : session.service.queue = []
  going : session.service.cancelled = false
  room : 0 < session.service.capacity
  there : session.service.handles = handles.there
  opened : session.service.opened = handles.opened
  phase : session.service.phase = .running ∨
    handles.there = [] ∧ session.service.phase = .ended

/-! ## One request -/

section Only

variable (service : Service) (id : Nat) (request : Request) (allowance : Nat)

theorem look_waiting (room : 0 < service.capacity) :
    look ⟨service.only id request .waiting [], allowance + 1⟩ id =
      (⟨service.only id request .queued [(id, request)], allowance⟩, none) := by
  simp only [look, Service.enter_only service id request room, Service.answer?_only]
  rfl

theorem look_exhausted (going : service.closed = false) (stage : Service.Stage)
    (queue : List (Nat × Request)) :
    look ⟨service.only id request stage queue, 0⟩ id =
      (⟨service.only id request stage queue, 0⟩, none) := by
  have still : (service.only id request stage queue).closed = false := going
  simp [look, still]

theorem look_answered (answer : Answer) :
    look ⟨service.only id request (.answered answer) [], allowance + 1⟩ id =
      (⟨{ service with pending := [], queue := [] }, allowance⟩, some answer) := by
  have stays := service.enter_only_of_entered id request (.answered answer) nofun []
  simp only [look, stays, Service.answer?_only, Service.leave_only]
  rfl

variable (running : service.phase = .running) (going : service.cancelled = false)

include running going

theorem wait_waiting :
    wait ⟨service.only id request .waiting [], allowance⟩ =
      ⟨rested (service.only id request .waiting []), (), []⟩ := by
  have still := service.turn_only id request running going .waiting
  show Step.lift rested ((service.only id request .waiting []).turn.andThen _) = _
  rw [still]
  rfl

theorem wait_queued :
    (wait ⟨service.only id request .queued [(id, request)], allowance⟩).state =
        rested
          ((service.past id request).only id request
            (.answered (service.buffer.reply request)) []) ∧
      ∀ metrics : Metrics,
        metrics.after (wait ⟨service.only id request .queued [(id, request)], allowance⟩).events =
          metrics.after
            (service.buffer.run (Service.Serving.call? ⟨id, request, true⟩).toList).events := by
  obtain ⟨state, counts⟩ := service.turn_only_queued id request running going
  -- After the turn in which the request was served there is another one.
  have still := (service.past id request).turn_only id request running going
    (.answered (service.buffer.reply request))
  have settled :
      (Service.settle (service.only id request .queued [(id, request)])) =
        (service.only id request .queued [(id, request)]).turn.andThen fun service _ =>
          service.turn.andThen fun service _ => ⟨service, (), []⟩ := rfl
  constructor
  · show rested (Service.settle _).state = _
    rw [settled]
    show rested (Service.turn (Service.turn _).state).state = _
    rw [state, still]
  · intro metrics
    show metrics.after (Service.settle _).events = _
    rw [settled]
    show metrics.after (_ ++ ((Service.turn (Service.turn _).state).events ++ [])) = _
    rw [state, still, Metrics.after_append, counts]
    rfl

omit running going in
/-- Who has an answer takes it at the first look. -/
theorem awaitFor_answered (answer : Answer) (waits : Nat) :
    let step := awaitFor ⟨service.only id request (.answered answer) [], allowance + 1⟩ id waits
    step.state.service = { service with pending := [], queue := [] } ∧
      step.result = some answer ∧ step.events = [] := by
  cases waits with
  | zero =>
      rw [awaitFor, look_answered]
      exact ⟨rfl, rfl, rfl⟩
  | succ waits =>
      rw [awaitFor, look_answered]
      exact ⟨rfl, rfl, rfl⟩

/-- What a request comes to that is the only one: it was served, and its caller is gone with
the answer. -/
structure Brings (step : Step Session (Option Answer)) : Prop where
  left : step.state.service = { service.past id request with pending := [], queue := [] }
  answer : step.result = some (service.buffer.reply request)
  counts : ∀ metrics : Metrics, metrics.after step.events =
    metrics.after (service.buffer.run (Service.Serving.call? ⟨id, request, true⟩).toList).events

/-- A request that may enter is answered after the next wait. -/
theorem brings_waiting (room : 0 < service.capacity) (waits : Nat) :
    Brings service id request
      (awaitFor ⟨service.only id request .waiting [], allowance + 1⟩ id (waits + 1)) := by
  obtain ⟨state, counts⟩ := wait_queued service id request allowance running going
  simp only [awaitFor, look_waiting service id request allowance room]
  generalize wait ⟨service.only id request .queued [(id, request)], allowance⟩ = waited
    at state counts
  obtain ⟨session, nothing, events⟩ := waited
  cases state
  obtain ⟨after, answer, silent⟩ := awaitFor_answered (service.past id request) id request 127
    (service.buffer.reply request) waits
  refine ⟨after, answer, fun metrics => ?_⟩
  show metrics.after (events ++ (awaitFor (rested _) id waits).events) = _
  rw [show (awaitFor (rested _) id waits).events = [] from silent, List.append_nil]
  exact counts metrics

/-- The request waits for room, is served and answered, however much the callers may do. -/
theorem brings_await (room : 0 < service.capacity) :
    Brings service id request (await ⟨service.only id request .waiting [], allowance⟩ id) := by
  cases allowance with
  | zero =>
      have open_ : service.closed = false := by
        rw [Service.closed, running]
      have later := brings_waiting service id request 127 running going room 0
      unfold await
      rw [awaitFor, look_exhausted service id request open_]
      simp only [wait_waiting service id request 0 running going]
      exact later
  | succ allowance => exact brings_waiting service id request allowance running going room 1

end Only

/-! ## One move after another -/

section Idle

variable {session : Session} {buffer : Buffer} {handles : Handles}
  (idle : Idle session buffer handles)

include idle

theorem Idle.running {handle : Nat} (there : handle ∈ handles.there) :
    session.service.phase = .running := by
  rcases idle.phase with running | ⟨nothing, -⟩
  · exact running
  · rw [nothing] at there
    cases there

/-- Between two requests a service that goes on has nothing to do, but it may find that the
last handle is closed. -/
theorem Idle.wait :
    Idle session.wait.state buffer handles ∧
      ∀ metrics : Metrics, metrics.after session.wait.events = metrics := by
  have settled : session.service.settle = session.service.turn.andThen fun service _ =>
      ⟨service, (), []⟩ := by
    unfold Service.settle
    rw [idle.queue]
    rfl
  have state : session.wait.state = rested (session.service.act .turn).state := by
    show rested session.service.settle.state = _
    rw [settled]
    rfl
  have events : session.wait.events = (session.service.act .turn).events := by
    show session.service.settle.events = _
    rw [settled]
    exact List.append_nil _
  have turned := session.service.turned
  rw [state, events]
  generalize session.service.act .turn = step at turned
  cases turned with
  | cancelled running told => exact absurd (idle.going.symm.trans told) nofun
  | served running going first => exact absurd (idle.queue.symm.trans first) nofun
  | abandoned running going nothing gone =>
      have deserted : handles.there = [] := by
        rw [← idle.there]
        exact ((Service.deserted_iff _).1 gone).1
      exact ⟨{ idle with
        pending := congrArg (List.map _) idle.pending
        queue := rfl
        phase := .inr ⟨deserted, rfl⟩ }, fun _ => rfl⟩
  | waits running going nothing there => exact ⟨{ idle with }, fun _ => rfl⟩
  | still elsewhere => exact ⟨{ idle with }, fun _ => rfl⟩

theorem Idle.request (sound : buffer.Sound) {handle : Nat} (there : handle ∈ handles.there)
    (request : Request) :
    Idle (session.request request).state (buffer.answer request).state handles ∧
      (session.request request).result = some (buffer.answer request).result ∧
      ∀ metrics : Metrics, metrics.after (session.request request).events =
        metrics.after (buffer.answer request).events := by
  cases asks : Service.unsent? request with
  | some reply =>
      rw [Session.request, asks, sound.answer_unsent asks]
      exact ⟨idle, rfl, fun _ => rfl⟩
  | none =>
      have running := idle.running there
      have going : session.service.closed = false := by rw [Service.closed, running]
      have arrived : session.arrive request =
          (⟨Service.only { session.service with arrived := session.service.arrived + 1 }
            session.service.arrived request .waiting [], session.allowance⟩,
            session.service.arrived) := by
        simp only [Session.arrive, Service.arrive, Service.only, going, idle.pending, idle.queue,
          List.nil_append, Bool.false_eq_true, if_false]
      have brings := brings_await { session.service with arrived := session.service.arrived + 1 }
        session.service.arrived request session.allowance running idle.going idle.room
      have serves := sound.serves session.service.arrived request
      rw [← idle.buffer] at serves ⊢
      obtain ⟨answer, served, counts⟩ := serves
      simp only [Session.request, asks, arrived]
      refine ⟨?_, brings.answer.trans (congrArg some answer), fun metrics => ?_⟩
      · have left := brings.left
        exact
          { buffer := by rw [left]; exact served
            pending := by rw [left]
            queue := by rw [left]
            going := by rw [left]; exact idle.going
            room := by rw [left]; exact idle.room
            there := by rw [left]; exact idle.there
            opened := by rw [left]; exact idle.opened
            phase := by rw [left]; exact idle.phase }
      · exact (brings.counts metrics).trans (counts metrics)

end Idle

/-- A step of a session does to the buffer what these requests do one after another, and
counts for as much; the answers received are theirs. -/
structure Mirrors (buffer : Buffer) (handles : Handles) (step : Step Session Result)
    (requests : List Request) : Prop where
  idle : Idle step.state (buffer.run (requests.map .request)).state handles
  answers : step.result.received = (buffer.run (requests.map .request)).result
  counts : ∀ metrics : Metrics, metrics.after step.events =
    metrics.after (buffer.run (requests.map .request)).events

section Moves

variable {session : Session} {buffer : Buffer} {handles : Handles}

theorem Idle.mirrors {result : Result} (idle : Idle session buffer handles)
    (nothing : result.received = []) : Mirrors buffer handles ⟨session, result, []⟩ [] where
  idle := idle
  answers := nothing
  counts _ := rfl

variable (idle : Idle session buffer handles)

include idle

/-- Whoever waits without having asked anything sees nothing happen. -/
theorem Idle.mirrors_wait {step : Step Session Result} (state : step.state = session.wait.state)
    (events : step.events = session.wait.events) (nothing : step.result.received = []) :
    Mirrors buffer handles step [] := by
  obtain ⟨waited, free⟩ := idle.wait
  rw [← state] at waited
  refine ⟨waited, nothing, fun metrics => ?_⟩
  rw [events]
  exact free metrics

/-- A move through a handle that is not open does nothing. -/
theorem Idle.mirrors_withHandle {handle : Nat} {step : Step Session Result} {after : Handles}
    {requests : List Request}
    (mirrors : handle ∈ handles.there → Mirrors buffer after step requests)
    (missing : handle ∉ handles.there → after = handles ∧ requests = []) :
    Mirrors buffer after (session.withHandle handle step) requests := by
  unfold withHandle
  rw [idle.there]
  by_cases there : handle ∈ handles.there
  · rw [if_pos there]
    exact mirrors there
  · obtain ⟨rfl, rfl⟩ := missing there
    rw [if_neg there]
    exact idle.mirrors rfl

theorem Idle.begun : session.service.phase ≠ .unstarted := by
  rcases idle.phase with running | ⟨-, ended⟩
  · rw [running]
    exact nofun
  · rw [ended]
    exact nofun

/-- **A move does what its requests do.** -/
theorem Idle.perform (sound : buffer.Sound) (move : Move) (awaits : move.Awaits) :
    Mirrors buffer (handles.after move) (session.perform move) (move.asks handles) := by
  cases move with
  | request handle request =>
      refine idle.mirrors_withHandle (fun there => ?_) fun missing => ⟨rfl, if_neg missing⟩
      obtain ⟨after, answer, counts⟩ := idle.request sound there request
      rw [Move.asks, if_pos there]
      refine ⟨after, ?_, fun metrics => ?_⟩
      · show (session.request request).result.toList = [(buffer.answer request).result]
        rw [answer]
        rfl
      · show metrics.after (session.request request).events =
          metrics.after ((buffer.answer request).events ++ [])
        rw [counts, List.append_nil]
  | enqueue handle requests => exact awaits.elim
  | collect =>
      have nobody : session.collect = ⟨session, [], []⟩ := by
        unfold collect
        rw [idle.pending]
        rfl
      show Mirrors buffer handles (session.collect.map .answers) []
      rw [nobody]
      exact idle.mirrors rfl
  | abandon =>
      have left : Idle (session.onService session.service.leaveAll) buffer handles :=
        { idle with pending := rfl }
      exact left.mirrors rfl
  | settle => exact idle.mirrors_wait rfl rfl rfl
  | start =>
      have same : session.onService session.service.start = session := by
        rw [Service.start, if_neg idle.begun]
        rfl
      refine idle.mirrors_wait ?_ ?_ rfl
      · show (session.onService session.service.start).wait.state = _
        rw [same]
      · show (session.onService session.service.start).wait.events = _
        rw [same]
  | cancel => exact awaits.elim
  | discard =>
      have same : session.service.discard = ⟨session.service, (), []⟩ := by
        unfold Service.discard
        rcases idle.phase with running | ⟨-, ended⟩
        · rw [running]
        · rw [ended]
      show Mirrors buffer handles
        ((session.service.discard.lift session.onService).map fun _ => .done) []
      rw [same]
      exact idle.mirrors rfl
  | isClosed handle =>
      exact idle.mirrors_withHandle (fun _ => idle.mirrors rfl) fun _ => ⟨rfl, rfl⟩
  | openHandle handle =>
      refine idle.mirrors_withHandle (fun there => ?_) fun missing => ⟨if_neg missing, rfl⟩
      have after : handles.after (.openHandle handle) =
          ⟨handles.there ++ [handles.opened], handles.opened + 1⟩ := if_pos there
      have opened : Idle (session.onService session.service.openHandle) buffer
          ⟨handles.there ++ [handles.opened], handles.opened + 1⟩ :=
        { idle with
          there := by
            show session.service.handles ++ [session.service.opened] = _
            rw [idle.there, idle.opened]
          opened := congrArg (· + 1) idle.opened
          phase := .inl (idle.running there) }
      rw [after]
      exact opened.mirrors rfl
  | closeHandle handle =>
      refine idle.mirrors_withHandle (fun there => ?_) fun missing => ⟨?_, rfl⟩
      · have closed : Idle (session.onService (session.service.closeHandle handle)) buffer
            (handles.after (.closeHandle handle)) :=
          { idle with
            there := congrArg (List.filter _) idle.there
            phase := .inl (idle.running there) }
        exact closed.mirrors_wait rfl (List.append_nil _) rfl
      · have all : handles.there.filter (· ≠ handle) = handles.there := by
          refine List.filter_eq_self.2 fun other member => ?_
          simp only [decide_eq_true_eq]
          rintro rfl
          exact missing member
        show Handles.mk (handles.there.filter (· ≠ handle)) handles.opened = handles
        rw [all]

end Moves

/-- **A session in which every answer is awaited does what its requests do.** -/
theorem Idle.each {session : Session} {buffer : Buffer} {handles : Handles}
    (idle : Idle session buffer handles) (sound : buffer.Sound) {moves : List Move}
    (awaits : ∀ move ∈ moves, move.Awaits) :
    let done := Step.each Session.perform session moves
    let alone := buffer.run ((asked handles moves).map .request)
    done.state.service.buffer = alone.state ∧
      done.result.flatMap Result.received = alone.result ∧
      ∀ metrics : Metrics, metrics.after done.events = metrics.after alone.events := by
  induction moves generalizing session buffer handles with
  | nil => exact ⟨idle.buffer, rfl, fun _ => rfl⟩
  | cons move moves ih =>
      obtain ⟨first, rest⟩ := List.forall_mem_cons.1 awaits
      have mirrors := idle.perform sound move first
      obtain ⟨state, answers, counts⟩ := ih mirrors.idle (sound.run _).sound rest
      intro done alone
      have split : alone = (buffer.run ((move.asks handles).map .request)).andThen
          fun after answers =>
            (after.run ((asked (handles.after move) moves).map .request)).map (answers ++ ·) := by
        rw [← Buffer.run_append, ← List.map_append]
        rfl
      rw [split]
      refine ⟨state, ?_, fun metrics => ?_⟩
      · show (session.perform move).result.received ++ _ = _ ++ _
        rw [mirrors.answers]
        exact congrArg (_ ++ ·) answers
      · show metrics.after ((session.perform move).events ++ _) = metrics.after (_ ++ _)
        rw [Metrics.after_append, Metrics.after_append, mirrors.counts]
        exact counts _

/-- A session with a service that was just started around a buffer. -/
def started (buffer : Buffer) (capacity allowance : Nat) : Session :=
  { service := Service.started buffer capacity, allowance }

theorem idle_started (buffer : Buffer) {capacity : Nat} (room : 0 < capacity) (allowance : Nat) :
    Idle (started buffer capacity allowance) buffer {} where
  buffer := rfl
  pending := rfl
  queue := rfl
  going := rfl
  room := room
  there := rfl
  opened := rfl
  phase := .inl rfl

end Session

/-- **The three front ends agree.**  A script of requests has the same answers on a buffer
alone, through any handles to a shared one, and from a service that was started and is not told
to stop, whose callers await each answer before the next request.  The buffer ends in the same
state, and the totals are the same. -/
theorem front_ends_agree (limits : Limits) (calls : List Buffer.Call) (script : List Request) :
    let start := ((Buffer.fresh limits).run calls).state
    let alone := start.run (script.map .request)
    -- Behind handles, with several requests at once by one holder or not; a holder that breaks
    -- off tells no answers.
    (∀ uses, Shared.asked 1 uses = script.map .request →
      let shared := Shared.run { buffer := start } uses
      Shared.Told 1 uses alone.result shared.result ∧ shared.state.buffer = alone.state ∧
        ∀ metrics : Metrics, metrics.after shared.events = metrics.after alone.events) ∧
      ∀ capacity, 0 < capacity →
        -- From a service, however callers, handles and service take turns.
        (∀ acts, Service.Awaits (Service.started start capacity) acts →
          Service.requested (Service.started start capacity) acts = script →
          let served := (Service.started start capacity).play acts
          (served.state.pending = [] →
            served.result.filterMap Service.Outcome.answer? = alone.result ∧
              served.state.buffer = alone.state ∧
              ∀ metrics : Metrics, metrics.after served.events = metrics.after alone.events) ∧
            -- The last request has its answer when it has entered and was served.
            ∀ caller ∈ served.state.pending,
              ((Service.started start capacity).play
                (acts ++ [.enter caller.id, .turn, .collect caller.id])).state.pending = []) ∧
          -- From a service in a session on a single thread.
          ∀ allowance moves, (∀ move ∈ moves, move.Awaits) → Session.asked {} moves = script →
            let session :=
              Step.each Session.perform (Session.started start capacity allowance) moves
            session.result.flatMap Session.Result.received = alone.result ∧
              session.state.service.buffer = alone.state ∧
              ∀ metrics : Metrics, metrics.after session.events = metrics.after alone.events := by
  intro start alone
  have sound : start.Sound := (Buffer.follows_fresh limits calls).sound
  refine ⟨fun uses used => ?_, fun capacity room => ⟨fun acts awaits sent => ?_,
    fun allowance moves awaits sent => ?_⟩⟩
  · obtain ⟨buffer, told, counts⟩ := Shared.run_mirrors { buffer := start } uses
    rw [used] at buffer told counts
    exact ⟨told, buffer, counts⟩
  · obtain ⟨count, stands⟩ := (Service.stands_started start room).play sound awaits
    rw [List.nil_append, sent] at stands
    refine ⟨fun nobody => ?_, fun caller there => ?_⟩
    · have standing := stands.standing
      rw [nobody] at standing
      obtain ⟨-, rfl, answers⟩ := standing.of_nobody
      exact ⟨answers, stands.buffer, stands.counts⟩
    · rw [Service.state_play_append]
      exact stands.soon there
  · obtain ⟨buffer, answers, counts⟩ :=
      (Session.idle_started start room allowance).each sound awaits
    rw [sent] at buffer answers counts
    exact ⟨answers, buffer, counts⟩

/-- A chunk that closes a gap, an empty one, one that is refused to a holder that breaks off,
and three requests more, two of them by one holder; a service with room for one request whose
handles are closed on the way, the last one while the last request is queued. -/
theorem front_ends_agree_refusing :
    let script : List Request :=
      [.ingest 0 [1, 2], .ingest 9 [], .ingest 3 [4, 5], .read 2, .stats, .take 5]
    let uses : List (Nat × Shared.Call) :=
      [(0, .request (.ingest 0 [1, 2])), (0, .openHandle), (1, .request (.ingest 9 [])),
        (1, .aborting [.request (.ingest 3 [4, 5])]), (0, .closeHandle), (0, .request (.read 2)),
        (0, .exclusive [.request .stats, .request (.take 5)])]
    let acts : List Service.Act :=
      [.openHandle 0, .send 1 (.ingest 0 [1, 2]), .turn, .enter 0, .closeHandle 0, .turn, .turn,
        .collect 0, .send 1 (.ingest 9 []), .send 1 (.ingest 3 [4, 5]), .enter 1, .turn,
        .collect 1, .send 1 (.read 2), .enter 2, .turn, .collect 2, .send 1 .stats, .enter 3,
        .turn, .collect 3, .send 1 (.take 5), .enter 4, .closeHandle 1, .turn, .collect 4, .turn]
    let moves : List Session.Move :=
      [.openHandle 0, .request 1 (.ingest 0 [1, 2]), .closeHandle 0, .request 1 (.ingest 9 []),
        .request 1 (.ingest 3 [4, 5]), .request 1 (.read 2), .settle, .request 1 .stats,
        .request 1 (.take 5), .isClosed 1]
    let start := ((Buffer.fresh { bytes := some 4 }).run [.request (.ingest 2 [3])]).state
    let alone := start.run (script.map .request)
    let served := (Service.started start 1).play acts
    let session := Step.each Session.perform (Session.started start 1 0) moves
    alone.result =
        [.ok .done, .ok .done, .error (.bufferLimit 5 4), .ok (.filled [1, 2]),
          .ok (.stats ⟨2, 1, 1, 1⟩), .ok (.taken [3])] ∧
      Shared.Told 1 uses alone.result (Shared.run { buffer := start } uses).result ∧
      served.state.phase = .ended ∧
      served.result.filterMap Service.Outcome.answer? = alone.result ∧
      session.result.flatMap Session.Result.received = alone.result := by
  intro script uses acts moves
  have agreed := front_ends_agree { bytes := some 4 } [.request (.ingest 2 [3])] script
  generalize begun : ((Buffer.fresh { bytes := some 4 }).run [.request (.ingest 2 [3])]).state =
    start at agreed ⊢
  obtain ⟨sharing, serving⟩ := agreed
  obtain ⟨acting, moving⟩ := serving 1 Nat.zero_lt_one
  have awaits : Service.Awaits (Service.started start 1) acts := by subst begun; decide
  have sent : Service.requested (Service.started start 1) acts = script := by subst begun; decide
  have told := sharing uses (by decide)
  have answered := acting acts awaits sent
  have received := moving 0 moves (by decide) (by decide)
  have quit : ((Service.started start 1).play acts).state.phase = .ended ∧
      ((Service.started start 1).play acts).state.pending = [] := by
    subst begun
    decide +kernel
  have answers : (start.run (script.map .request)).result =
      [.ok .done, .ok .done, .error (.bufferLimit 5 4), .ok (.filled [1, 2]),
        .ok (.stats ⟨2, 1, 1, 1⟩), .ok (.taken [3])] := by
    subst begun
    decide +kernel
  dsimp only
  exact ⟨answers, told.1, quit.1, (answered.1 quit.2).1, received.1⟩

end Gapless
