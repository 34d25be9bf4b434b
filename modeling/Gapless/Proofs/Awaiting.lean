/-
# Gapless.Proofs.Awaiting -- one request after another, however the service gets on

Whoever awaits each answer before the next request (`Service.Awaits`) has one request under
way at most.  It waits for room, is queued or is answered (`Standing`), and every act takes it
on to the next stage or leaves it where it is (`Stands.act`).

So in whatever order callers, handles and service act, the answers are those of a buffer
alone (`Stands.play`).  What is under way needs no more than to enter the queue and to be
served (`Stands.soon`).
-/
import Gapless.Proofs.Handouts
import Gapless.Proofs.Sessions
import Gapless.Proofs.Turning

namespace Gapless

set_option autoImplicit false

/-! ## One request and the buffer alone -/

namespace Buffer

variable {buffer : Buffer} (sound : buffer.Sound)

include sound

/-- A request that asks for nothing is answered by the buffer in the same way. -/
theorem Sound.answer_unsent {request : Request} {reply : Reply}
    (nothing : Service.unsent? request = some reply) :
    buffer.answer request = ⟨buffer, .ok reply, []⟩ := by
  have empty : buffer.read 0 = ⟨buffer, [], []⟩ := rfl
  cases request with
  | ingest offset data =>
      cases data with
      | nil => cases nothing; rfl
      | cons byte data => cases nothing
  | read count =>
      cases count with
      | zero => cases nothing; rfl
      | succ count => cases nothing
  | take count =>
      cases count with
      | zero =>
          cases nothing
          rw [answer, sound.take_eq_read, empty]
          rfl
      | succ count => cases nothing
  | stats => cases nothing

/-- Serving a request whose caller is there does what the buffer alone would do. -/
theorem Sound.serves (id : Nat) (request : Request) :
    buffer.reply request = (buffer.answer request).result ∧
      buffer.served [⟨id, request, true⟩] = (buffer.answer request).state ∧
      ∀ metrics : Metrics,
        metrics.after (buffer.run (Service.Serving.call? ⟨id, request, true⟩).toList).events =
          metrics.after (buffer.answer request).events := by
  have alone (one : Request) (metrics : Metrics) :
      metrics.after (buffer.run [.request one]).events = metrics.after (buffer.answer one).events :=
    congrArg metrics.after (List.append_nil _)
  cases request with
  | ingest offset data => exact ⟨rfl, rfl, alone (.ingest offset data)⟩
  | read count =>
      refine ⟨?_, ?_, fun metrics => (alone (.take count) metrics).trans ?_⟩
      · rw [reply, sound.take_eq_read]
        rfl
      · show (buffer.take count).state = (buffer.read count).state
        rw [sound.take_eq_read]
      · show metrics.after (buffer.take count).events = metrics.after (buffer.read count).events
        rw [sound.take_eq_read]
  | take count => exact ⟨rfl, rfl, alone (.take count)⟩
  | stats => exact ⟨rfl, rfl, fun _ => rfl⟩

omit sound in
/-- One request more. -/
theorem run_request (requests : List Request) (request : Request) :
    let alone := buffer.run (requests.map .request)
    let one := alone.state.answer request
    buffer.run ((requests ++ [request]).map .request) =
      ⟨one.state, alone.result ++ [one.result], alone.events ++ one.events⟩ := by
  intro alone one
  have last : alone.state.run [.request request] = ⟨one.state, [one.result], one.events ++ []⟩ :=
    rfl
  rw [List.map_append, run_append]
  show (alone.andThen fun after answers => (after.run [.request request]).map (answers ++ ·)) = _
  simp only [Step.andThen, Step.map, last, List.append_nil]

end Buffer

/-! ## A service with a single request -/

namespace Service

section Only

variable (service : Service) (id : Nat) (request : Request)

/-- The service when this request is the only one. -/
def only (stage : Stage) (queue : List (Nat × Request)) : Service :=
  { service with pending := [⟨id, request, stage⟩], queue }

theorem eq_only {service : Service} {id : Nat} {request : Request} {stage : Stage}
    {queue : List (Nat × Request)} (pending : service.pending = [⟨id, request, stage⟩])
    (queued : service.queue = queue) : service = service.only id request stage queue := by
  rw [only, ← pending, ← queued]

/-- The service when its buffer has served the request to a caller that is there. -/
def past : Service :=
  { service with buffer := service.buffer.served [⟨id, request, true⟩] }

theorem enter_only (room : 0 < service.capacity) :
    (service.only id request .waiting []).enter id =
      service.only id request .queued [(id, request)] := by
  simp [only, enter, ahead, setStage, room]

/-- What has entered the queue does not enter it again. -/
theorem enter_only_of_entered (stage : Stage) (entered : stage ≠ .waiting)
    (queue : List (Nat × Request)) :
    (service.only id request stage queue).enter id = service.only id request stage queue := by
  cases stage with
  | waiting => exact absurd rfl entered
  | queued => simp [only, enter]
  | answered answer => simp [only, enter]

theorem answer?_only (stage : Stage) (queue : List (Nat × Request)) :
    (service.only id request stage queue).answer? id =
      match stage with
      | .answered answer => some answer
      | .waiting | .queued => none := by
  cases stage <;> simp [only, answer?]

theorem leave_only (stage : Stage) (queue : List (Nat × Request)) :
    (service.only id request stage queue).leave id = { service with pending := [], queue } := by
  simp [only, leave]

theorem collect_only (answer : Answer) :
    ((service.only id request (.answered answer) []).act (.collect id)).state.pending = [] := by
  simp only [Service.act, answer?_only, leave_only]

section Running

variable (running : service.phase = .running) (going : service.cancelled = false)

include running going

/-- A service waits for the callers that are still there. -/
theorem turn_only (stage : Stage) :
    (service.only id request stage []).turn = ⟨service.only id request stage [], (), []⟩ := by
  simp [turn, proceed, only, running, going, deserted]

/-- The request is served, and its caller has the answer. -/
theorem turn_only_queued :
    (service.only id request .queued [(id, request)]).turn.state =
        (service.past id request).only id request (.answered (service.buffer.reply request)) [] ∧
      ∀ metrics : Metrics,
        metrics.after (service.only id request .queued [(id, request)]).turn.events =
          metrics.after
            (service.buffer.run (Serving.call? ⟨id, request, true⟩).toList).events := by
  have turned : (service.only id request .queued [(id, request)]).turn =
      (service.only id request .queued []).serve id request :=
    turn_of_queued running going rfl
  have there : (service.only id request .queued []).present id = true := by
    simp [only, present]
  have moved (answer : Answer) :
      (service.only id request .queued []).setStage id (.answered answer) =
        service.only id request (.answered answer) [] := by
    simp [only, setStage]
  constructor
  · rw [turned, state_serve, there, moved]
    rfl
  · intro metrics
    rw [turned, after_serve, there]
    rfl

end Running

end Only

/-! ## Awaiting each answer -/

/-- What an act asks of the buffer. -/
def Act.asks (service : Service) : Act → List Request
  | .send handle request => if handle ∈ service.handles then [request] else []
  | _ => []

/-- What is asked of the buffer in a run. -/
def requested : Service → List Act → List Request
  | _, [] => []
  | service, act :: acts => act.asks service ++ requested (service.act act).state acts

/-- Nothing is sent while a request is under way, nobody leaves without an answer, and the
service is not told to stop. -/
def Act.Awaits (service : Service) : Act → Prop
  | .send _ _ => service.pending = []
  | .abandon _ | .cancel => False
  | _ => True

instance (service : Service) (act : Act) : Decidable (act.Awaits service) :=
  match act with
  | .send _ _ => inferInstanceAs (Decidable (service.pending = []))
  | .abandon _ | .cancel => .isFalse id
  | .enter _ | .collect _ | .openHandle _ | .closeHandle _ | .start | .discard | .turn =>
      .isTrue trivial

def Awaits : Service → List Act → Prop
  | _, [] => True
  | service, act :: acts => act.Awaits service ∧ Awaits (service.act act).state acts

instance Awaits.decidable :
    (service : Service) → (acts : List Act) → Decidable (Awaits service acts)
  | _, [] => .isTrue trivial
  | service, act :: acts =>
      have := Awaits.decidable (service.act act).state acts
      inferInstanceAs (Decidable (act.Awaits service ∧ Awaits (service.act act).state acts))

/-- The request that is under way, if there is one, when these requests were asked and served
and these of the answers to them received. -/
inductive Standing (answers : List Answer) (asked served : List Request) (had : List Answer) :
    List Pending → List (Nat × Request) → Prop
  | free (all : asked = served) (same : had = answers) :
      Standing answers asked served had [] []
  | waiting (id : Nat) (request : Request) (next : asked = served ++ [request])
      (same : had = answers) :
      Standing answers asked served had [⟨id, request, .waiting⟩] []
  | queued (id : Nat) (request : Request) (next : asked = served ++ [request])
      (same : had = answers) :
      Standing answers asked served had [⟨id, request, .queued⟩] [(id, request)]
  | answered (id : Nat) (request : Request) (answer : Answer) (all : asked = served)
      (last : had ++ [answer] = answers) :
      Standing answers asked served had [⟨id, request, .answered answer⟩] []

/-- A service after a run in which each answer was awaited, with a first buffer, what was
asked, the answers received and the events. -/
structure Stands (start : Buffer) (asked served : List Request) (had : List Answer)
    (events : List Event) (service : Service) : Prop where
  buffer : service.buffer = (start.run (served.map .request)).state
  counts : ∀ metrics : Metrics,
    metrics.after events = metrics.after (start.run (served.map .request)).events
  standing : Standing (start.run (served.map .request)).result asked served had
    service.pending service.queue
  going : service.cancelled = false
  room : 0 < service.capacity
  phase : service.phase = .running ∨
    service.handles = [] ∧ service.pending = [] ∧ service.phase = .ended

section Standing

variable {answers : List Answer} {asked served : List Request} {had : List Answer}
  {pending : List Pending} {queue : List (Nat × Request)}

theorem Standing.of_nobody (standing : Standing answers asked served had [] queue) :
    queue = [] ∧ asked = served ∧ had = answers := by
  cases standing with
  | free all same => exact ⟨rfl, all, same⟩

theorem Standing.of_queue {command : Nat × Request} {rest : List (Nat × Request)}
    (standing : Standing answers asked served had pending (command :: rest)) :
    rest = [] ∧ pending = [⟨command.1, command.2, .queued⟩] ∧ asked = served ++ [command.2] ∧
      had = answers := by
  cases standing with
  | queued id request next same => exact ⟨rfl, rfl, next, same⟩

/-- Whoever is there is there alone. -/
theorem Standing.alone (standing : Standing answers asked served had pending queue) {id : Nat}
    {caller : Pending} (found : pending.find? (·.id == id) = some caller) :
    pending = [caller] := by
  have member := List.mem_of_find?_eq_some found
  cases standing with
  | free all same => cases member
  | waiting own request next same => rw [List.mem_singleton.1 member]
  | queued own request next same => rw [List.mem_singleton.1 member]
  | answered own request answer all last => rw [List.mem_singleton.1 member]

/-- Who waits for room finds the queue empty. -/
theorem Standing.of_waiting {id : Nat} {request : Request}
    (standing : Standing answers asked served had [⟨id, request, .waiting⟩] queue) :
    queue = [] ∧ asked = served ++ [request] ∧ had = answers := by
  cases standing with
  | waiting id request next same => exact ⟨rfl, next, same⟩

theorem Standing.of_answered {id : Nat} {request : Request} {answer : Answer}
    (standing : Standing answers asked served had [⟨id, request, .answered answer⟩] queue) :
    queue = [] ∧ asked = served ∧ had ++ [answer] = answers := by
  cases standing with
  | answered id request answer all last => exact ⟨rfl, all, last⟩

end Standing

/-- The service stands after one step more, by which so much was asked in all. -/
def Onward (start : Buffer) (asked : List Request) (had : List Answer) (events : List Event)
    (step : Step Service Outcome) : Prop :=
  ∃ served, Stands start asked served (had ++ step.result.answer?.toList) (events ++ step.events)
    step.state

section Stands

variable {start : Buffer} {asked served : List Request} {had : List Answer}
  {events : List Event} {service : Service}
  (stands : Stands start asked served had events service)

include stands

/-- Nothing was asked or answered. -/
theorem Stands.onward {outcome : Outcome} (silent : outcome.answer? = none) :
    Onward start asked had events ⟨service, outcome, []⟩ := by
  refine ⟨served, ?_⟩
  show Stands start asked served (had ++ outcome.answer?.toList) (events ++ []) service
  rw [silent, List.append_nil]
  show Stands start asked served (had ++ []) events service
  rw [List.append_nil]
  exact stands

theorem Stands.running (there : service.handles ≠ [] ∨ service.pending ≠ []) :
    service.phase = .running := by
  rcases stands.phase with running | ⟨nowhere, nobody, -⟩
  · exact running
  · exact there.elim (absurd nowhere) (absurd nobody)

theorem Stands.send (sound : start.Sound) (handle : Nat) (request : Request)
    (nobody : service.pending = []) :
    Onward start (asked ++ Act.asks service (.send handle request)) had events
      (service.act (.send handle request)) := by
  by_cases there : handle ∈ service.handles
  · have standing := stands.standing
    rw [nobody] at standing
    obtain ⟨nothing, all, same⟩ := standing.of_nobody
    have running := stands.running (.inl (List.ne_nil_of_mem there))
    rw [Act.asks, if_pos there]
    cases asks : unsent? request with
    | some reply =>
        have answer : (start.run (served.map .request)).state.answer request = ⟨_, .ok reply, []⟩ :=
          (sound.run _).sound.answer_unsent asks
        have further := start.run_request served request
        dsimp only at further
        rw [answer] at further
        rw [act_send_spared there asks]
        refine ⟨served ++ [request],
          { stands with buffer := ?_, counts := fun metrics => ?_, standing := ?_ }⟩
        · rw [further]
          exact stands.buffer
        · rw [further, List.append_nil, List.append_nil]
          exact stands.counts metrics
        · rw [further, nobody, nothing, all, same]
          exact .free rfl rfl
    | none =>
        have closed : service.closed = false := by rw [closed, running]
        have arrived : Stands start (asked ++ [request]) served had events
            (service.arrive request).1 := by
          refine { stands with standing := ?_, phase := .inl running }
          simp only [arrive, closed, nobody, nothing, all]
          exact .waiting _ _ rfl same
        rw [act_send_asking there asks]
        exact arrived.onward rfl
  · rw [Act.asks, if_neg there, Service.act, if_neg there, List.append_nil]
    exact stands.onward rfl

/-- A request that waits enters the queue at once, as no other is under way. -/
theorem Stands.enter (id : Nat) : Onward start asked had events (service.act (.enter id)) := by
  have still (same : service.enter id = service) :
      Onward start asked had events (service.act (.enter id)) := by
    simp only [Service.act, same, List.getElem?_eq_none (Nat.le_refl _)]
    exact stands.onward rfl
  cases found : service.pending.find? (·.id == id) with
  | none => exact still (by rw [Service.enter, found])
  | some caller =>
      have single := stands.standing.alone found
      have running := stands.running (.inr (single ▸ List.cons_ne_nil _ _))
      obtain ⟨own, request, stage⟩ := caller
      cases stage with
      | waiting =>
          have standing := stands.standing
          rw [single] at standing
          obtain ⟨nothing, next, same⟩ := standing.of_waiting
          cases id_of_caller? found
          have enters := service.enter_only own request stands.room
          rw [← eq_only single nothing] at enters
          have entered : Stands start asked served had events (service.enter own) := by
            rw [enters]
            exact { stands with
              standing := .queued own request next same
              phase := .inl running }
          have outcome : service.act (.enter own) =
              ⟨service.enter own, .entered own request, []⟩ := by
            simp only [Service.act, enters, nothing]
            rfl
          rw [outcome]
          exact entered.onward rfl
      | queued => exact still (by rw [Service.enter, found])
      | answered answer => exact still (by rw [Service.enter, found])

theorem Stands.collect (id : Nat) : Onward start asked had events (service.act (.collect id)) := by
  cases has : service.answer? id with
  | none =>
      simp only [Service.act, has]
      exact stands.onward rfl
  | some answer =>
      obtain ⟨⟨own, request, stage⟩, found, rfl⟩ := answer?_eq_some_iff.1 has
      have single := stands.standing.alone found
      have running := stands.running (.inr (single ▸ List.cons_ne_nil _ _))
      have standing := stands.standing
      rw [single] at standing
      obtain ⟨nothing, all, last⟩ := standing.of_answered
      cases id_of_caller? found
      have left := service.leave_only own request (.answered answer) []
      rw [← eq_only single nothing] at left
      simp only [Service.act, has, left]
      refine ⟨served, { stands with
        counts := fun metrics => ?_
        standing := .free all last
        phase := .inl running }⟩
      rw [List.append_nil]
      exact stands.counts metrics

/-- The request that is under way is served to a caller that is there. -/
theorem Stands.serve (sound : start.Sound) {id : Nat} {request : Request}
    {rest : List (Nat × Request)} (running : service.phase = .running)
    (first : service.queue = (id, request) :: rest) :
    Stands start asked (served ++ [request]) had
      (events ++ (({ service with queue := rest } : Service).serve id request).events)
      { service.setStage id (.answered (service.buffer.reply request)) with
        buffer := service.buffer.served [⟨id, request, service.present id⟩]
        queue := rest } := by
  have standing := stands.standing
  rw [first] at standing
  obtain ⟨rfl, single, next, same⟩ := standing.of_queue
  have there : service.present id = true := by simp [present, single]
  have still : ({ service with queue := [] } : Service).present id = true := there
  have alone : service.buffer.Sound := by
    rw [stands.buffer]
    exact (sound.run _).sound
  obtain ⟨answer, after, counts⟩ := alone.serves id request
  have further := start.run_request served request
  dsimp only at further
  rw [← stands.buffer] at further
  refine ⟨?_, fun metrics => ?_, ?_, stands.going, stands.room, .inl running⟩
  · rw [there, further]
    exact after
  · rw [further, Metrics.after_append, Metrics.after_append, stands.counts, after_serve, still]
    exact counts _
  · have moved : (service.setStage id (.answered (service.buffer.reply request))).pending =
        [⟨id, request, .answered (service.buffer.reply request)⟩] := by
      simp [setStage, single]
    show Standing _ asked (served ++ [request]) had
      (service.setStage id (.answered (service.buffer.reply request))).pending []
    rw [further, moved, same, answer]
    exact .answered id request _ next rfl

theorem Stands.turn (sound : start.Sound) :
    Onward start asked had events (service.act .turn) := by
  have turned := service.turned
  generalize service.act .turn = step at turned
  cases turned with
  | cancelled running told => exact absurd (stands.going.symm.trans told) nofun
  | @served id request rest running going first =>
      refine ⟨served ++ [request], ?_⟩
      show Stands start asked _ (had ++ []) _ _
      rw [List.append_nil]
      exact stands.serve sound running first
  | abandoned running going nothing gone =>
      obtain ⟨nowhere, nobody⟩ := (deserted_iff service).1 gone
      have standing := stands.standing
      rw [nobody, nothing] at standing
      have closed : (service.close .ended).pending = [] := congrArg (List.map _) nobody
      refine ⟨served, stands.buffer, fun metrics => ?_, ?_, stands.going, stands.room,
        .inr ⟨nowhere, closed, rfl⟩⟩
      · rw [Metrics.after_append]
        exact stands.counts metrics
      · show Standing _ asked served (had ++ []) (service.close .ended).pending []
        rw [closed, List.append_nil]
        exact standing
  | waits running going nothing there => exact stands.onward rfl
  | still elsewhere => exact stands.onward rfl

theorem Stands.begun : service.phase ≠ .unstarted := by
  rcases stands.phase with running | ⟨-, -, ended⟩
  · rw [running]
    exact nofun
  · rw [ended]
    exact nofun

/-- **Every act takes the request that is under way on, or leaves it where it is.** -/
theorem Stands.act (sound : start.Sound) {act : Act} (awaits : act.Awaits service) :
    Onward start (asked ++ act.asks service) had events (service.act act) := by
  have unasked {step : Step Service Outcome} (onward : Onward start asked had events step) :
      Onward start (asked ++ []) had events step := by
    rw [List.append_nil]
    exact onward
  cases act with
  | send handle request => exact stands.send sound handle request awaits
  | abandon id => exact awaits.elim
  | cancel => exact awaits.elim
  | enter id => exact unasked (stands.enter id)
  | collect id => exact unasked (stands.collect id)
  | turn => exact unasked (stands.turn sound)
  | openHandle handle =>
      apply unasked
      by_cases there : handle ∈ service.handles
      · have running := stands.running (.inl (List.ne_nil_of_mem there))
        have opened : Stands start asked served had events service.openHandle :=
          { stands with phase := .inl running }
        rw [Service.act, if_pos there]
        exact opened.onward rfl
      · rw [Service.act, if_neg there]
        exact stands.onward rfl
  | closeHandle handle =>
      apply unasked
      have closed : Stands start asked served had events (service.closeHandle handle) :=
        { stands with
          phase := by
            rcases stands.phase with running | ⟨nowhere, nobody, ended⟩
            · exact .inl running
            · exact .inr ⟨congrArg (List.filter _) nowhere, nobody, ended⟩ }
      exact closed.onward rfl
  | start =>
      apply unasked
      rw [Service.act, Service.start, if_neg stands.begun]
      exact stands.onward rfl
  | discard =>
      apply unasked
      rw [act_discard_of_begun stands.begun]
      exact stands.onward rfl

end Stands

/-! ## Runs in which each answer is awaited -/

/-- A service that was just started around a buffer. -/
def started (buffer : Buffer) (capacity : Nat) : Service := (unstarted buffer capacity).start

theorem stands_started (start : Buffer) {capacity : Nat} (room : 0 < capacity) :
    Stands start [] [] [] [] (started start capacity) where
  buffer := rfl
  counts _ := rfl
  standing := .free rfl rfl
  going := rfl
  room := room
  phase := .inl rfl

/-- **Where a service stands after a run.** -/
theorem Stands.play {start : Buffer} (sound : start.Sound) {asked served : List Request}
    {had : List Answer} {events : List Event} {service : Service}
    (stands : Stands start asked served had events service) {acts : List Act}
    (awaits : Awaits service acts) :
    let done := service.play acts
    ∃ served, Stands start (asked ++ requested service acts) served
      (had ++ done.result.filterMap Outcome.answer?) (events ++ done.events) done.state := by
  induction acts generalizing asked served had events service with
  | nil =>
      refine ⟨served, ?_⟩
      show Stands start (asked ++ []) served (had ++ []) (events ++ []) service
      simp only [List.append_nil]
      exact stands
  | cons act acts ih =>
      obtain ⟨first, rest⟩ := awaits
      obtain ⟨now, further⟩ := stands.act sound first
      obtain ⟨later, after⟩ := ih further rest
      have answers : (service.play (act :: acts)).result.filterMap Outcome.answer? =
          (service.act act).result.answer?.toList ++
            ((service.act act).state.play acts).result.filterMap Outcome.answer? := by
        show ((service.act act).result ::
          ((service.act act).state.play acts).result).filterMap _ = _
        cases known : (service.act act).result.answer? with
        | none => rw [List.filterMap_cons_none known]; rfl
        | some answer => rw [List.filterMap_cons_some known]; rfl
      refine ⟨later, ?_⟩
      rw [answers, requested, ← List.append_assoc, ← List.append_assoc]
      show Stands start _ later _ (events ++ ((service.act act).events ++ _)) _
      rw [← List.append_assoc]
      exact after

/-- Who awaits an answer has it when the request has entered the queue and the service has done
the next thing. -/
theorem Stands.soon {start : Buffer} {asked served : List Request} {had : List Answer}
    {events : List Event} {service : Service}
    (stands : Stands start asked served had events service) {caller : Pending}
    (there : caller ∈ service.pending) :
    (service.play [.enter caller.id, .turn, .collect caller.id]).state.pending = [] := by
  show (((service.enter caller.id).turn.state).act (.collect caller.id)).state.pending = []
  have running := stands.running (.inr (List.ne_nil_of_mem there))
  have standing := stands.standing
  obtain ⟨id, request, stage⟩ := caller
  generalize pends : service.pending = pending at standing there
  generalize queues : service.queue = queue at standing
  cases standing with
  | free all same => cases there
  | waiting own request next same =>
      cases List.mem_singleton.1 there
      have enters := service.enter_only id request stands.room
      rw [← eq_only pends queues] at enters
      rw [enters, (service.turn_only_queued id request running stands.going).1]
      exact collect_only _ id request _
  | queued own request next same =>
      cases List.mem_singleton.1 there
      have stays := service.enter_only_of_entered id request .queued nofun [(id, request)]
      rw [← eq_only pends queues] at stays
      rw [stays, eq_only pends queues,
        (service.turn_only_queued id request running stands.going).1]
      exact collect_only _ id request _
  | answered own request answer all last =>
      cases List.mem_singleton.1 there
      have stays := service.enter_only_of_entered id request (.answered answer) nofun []
      rw [← eq_only pends queues] at stays
      rw [stays, eq_only pends queues, service.turn_only id request running stands.going]
      exact collect_only _ id request answer

end Service

end Gapless
