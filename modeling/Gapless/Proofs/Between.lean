/-
# Gapless.Proofs.Between -- what comes in between the parts of a turn

A turn is one act (`Service.turn`), so that nobody comes in between its parts.  Where there are
several threads others can: after the service has looked whether it was told to stop, before it
takes what is first in the queue; and after it has looked whether a reader is there, before it
sends what it took out of the buffer.

Such a turn comes to what a turn in one piece comes to.  Being told to stop in between is being
told right after it (`Service.proceed_between`): one request may be served that was not taken
then, and none after that.  A reader that leaves in between has left right after it was
answered, and a warning says that bytes are lost with it (`Service.sendBytes_between`).
-/
import Gapless.Proofs.Turning

namespace Gapless.Service

set_option autoImplicit false

/-! ## Told to stop -/

/-- The service as it would be had it been told to stop, or had it not. -/
def flagged (service : Service) (flag : Bool) : Service := { service with cancelled := flag }

def Act.tells : Act → Bool
  | .cancel => true
  | .send .. | .enter _ | .collect _ | .abandon _ | .openHandle _ | .closeHandle _ => false
  | .start | .discard | .turn => false

section Others

variable (service : Service) (flag : Bool)

theorem enter_flagged (id : Nat) :
    (service.flagged flag).enter id = (service.enter id).flagged flag := by
  unfold enter flagged
  dsimp only
  cases service.pending.find? (·.id == id) with
  | none => rfl
  | some caller =>
      obtain ⟨own, request, stage⟩ := caller
      cases stage with
      | waiting =>
          dsimp only
          show (if service.queue.length + service.ahead id < service.capacity then _ else _) = _
          split <;> rfl
      | queued => rfl
      | answered answer => rfl

/-- Nobody but the service looks whether it was told to stop. -/
theorem act_flagged {act : Act} (others : act ≠ .turn) (untold : act.tells = false) :
    (service.flagged flag).act act = (service.act act).lift (flagged · flag) := by
  cases act with
  | turn => exact absurd rfl others
  | cancel => cases untold
  | send handle request =>
      by_cases opened : handle ∈ service.handles
      · have openedToo : handle ∈ (service.flagged flag).handles := opened
        cases asks : unsent? request with
        | some reply =>
            rw [act_send_spared opened asks, act_send_spared openedToo asks]
            rfl
        | none =>
            rw [act_send_asking opened asks, act_send_asking openedToo asks]
            rfl
      · rw [Service.act, Service.act, if_neg opened]
        exact if_neg opened
  | enter id =>
      simp only [Service.act, enter_flagged]
      rfl
  | collect id =>
      have same : (service.flagged flag).answer? id = service.answer? id := rfl
      simp only [Service.act, same]
      cases service.answer? id <;> rfl
  | abandon id =>
      have same : (service.flagged flag).caller? id = service.caller? id := rfl
      simp only [Service.act, same]
      cases service.caller? id <;> rfl
  | openHandle handle =>
      by_cases opened : handle ∈ service.handles
      · have openedToo : handle ∈ (service.flagged flag).handles := opened
        simp only [Service.act, if_pos opened, if_pos openedToo]
        rfl
      · have closed : handle ∉ (service.flagged flag).handles := opened
        simp only [Service.act, if_neg opened, if_neg closed]
        rfl
  | closeHandle handle => rfl
  | start =>
      by_cases fresh : service.phase = .unstarted
      · have freshToo : (service.flagged flag).phase = .unstarted := fresh
        simp only [Service.act, start, if_pos fresh, if_pos freshToo]
        rfl
      · have begun : (service.flagged flag).phase ≠ .unstarted := fresh
        simp only [Service.act, start, if_neg fresh, if_neg begun]
        rfl
  | discard =>
      by_cases fresh : service.phase = .unstarted
      · have freshToo : (service.flagged flag).phase = .unstarted := fresh
        rw [act_discard_of_unstarted fresh, act_discard_of_unstarted freshToo]
        rfl
      · have begun : (service.flagged flag).phase ≠ .unstarted := fresh
        rw [act_discard_of_begun fresh, act_discard_of_begun begun]
        rfl

/-- A turn goes on after its look as if nobody had told the service anything since. -/
theorem proceed_flagged :
    (service.flagged flag).proceed = service.proceed.lift (flagged · flag) := by
  have same : (service.flagged flag).queue = service.queue := rfl
  unfold proceed
  rw [same]
  cases service.queue with
  | nil =>
      have same : (service.flagged flag).deserted = service.deserted := rfl
      simp only [same]
      cases service.deserted <;> rfl
  | cons command rest =>
      obtain ⟨id, request⟩ := command
      have bytes (service : Service) (count : Nat) (reply : Bytes → Reply) :
          (service.flagged flag).serveBytes id count reply =
            (service.serveBytes id count reply).lift (flagged · flag) := by
        have same : (service.flagged flag).present id = service.present id := rfl
        cases there : service.present id with
        | true =>
            rw [serveBytes_of_present there, serveBytes_of_present (same.trans there)]
            rfl
        | false =>
            rw [serveBytes, serveBytes, same, there]
            rfl
      cases request with
      | ingest offset data => rfl
      | read count => exact bytes { service with queue := rest } count .filled
      | take count => exact bytes { service with queue := rest } count .taken
      | stats => rfl

end Others

/-! ## Between the look and the taking -/

/-- Acts without those that tell the service to stop. -/
def apart (acts : List Act) : List Act := acts.filter (!·.tells)

theorem flagged_of_cancelled {service : Service} {flag : Bool} (same : service.cancelled = flag) :
    service.flagged flag = service := by
  cases service
  cases same
  rfl

/-- A service that runs and was not told to stop. -/
structure Goes (service : Service) : Prop where
  running : service.phase = .running
  going : service.cancelled = false

theorem Goes.turn {service : Service} (goes : service.Goes) : service.turn = service.proceed := by
  unfold Service.turn
  rw [goes.running, goes.going]
  rfl

theorem Goes.act {service : Service} (goes : service.Goes) {act : Act} (others : act ≠ .turn)
    (untold : act.tells = false) : (service.act act).state.Goes := by
  have same := service.act_flagged false others untold
  rw [flagged_of_cancelled goes.going] at same
  refine ⟨?_, congrArg (·.state.cancelled) same⟩
  by_cases discards : act = .discard
  · rw [discards, act_discard_of_begun (by simp [goes.running])]
    exact goes.running
  · rcases (service.quiet_act others discards).phase with kept | ⟨-, fresh, -⟩
    · exact kept.trans goes.running
    · exact absurd fresh (by simp [goes.running])

theorem next?_of_told {service : Service} (told : service.cancelled = true) :
    service.next? = none := by
  unfold next?
  rw [told]
  cases service.phase <;> rfl

section Between

variable {service : Service} (goes : service.Goes) {acts : List Act}
  (others : ∀ act ∈ acts, act ≠ .turn)

include goes others

/-- What others do comes to the same if being told to stop is left to the end. -/
theorem play_apart :
    (service.play (apart acts)).state.Goes ∧
      (service.play acts).state =
        (service.play (apart acts)).state.flagged (acts.any Act.tells) ∧
      (service.play acts).events = (service.play (apart acts)).events := by
  induction acts using List.reverseRecOn with
  | nil => exact ⟨goes, (flagged_of_cancelled goes.going).symm, rfl⟩
  | append_singleton before act ih =>
      rw [List.forall_mem_append, List.forall_mem_singleton] at others
      obtain ⟨still, state, events⟩ := ih others.1
      rw [play_concat]
      dsimp only
      rw [state, events, List.any_append, List.any_cons, List.any_nil, Bool.or_false, apart,
        List.filter_append, ← apart]
      cases told : act.tells with
      | true =>
          cases act with
          | cancel =>
              rw [List.filter_cons_of_neg (by simp [Act.tells]), List.filter_nil, List.append_nil,
                Bool.or_true]
              exact ⟨still, rfl, List.append_nil _⟩
          | _ => cases told
      | false =>
          rw [List.filter_cons_of_pos (by simp [told]), List.filter_nil, play_concat,
            Bool.or_false, act_flagged _ _ others.2 told]
          exact ⟨still.act others.2 told, rfl, rfl⟩

/-- **Being told to stop between its look and its taking** is to a service being told right after
the turn, and no turn after that serves anything. -/
theorem proceed_between :
    let between := service.play acts
    let ended := between.state.proceed
    let whole := service.play (apart acts ++ .turn :: if acts.any Act.tells then [.cancel] else [])
    ended.state = whole.state ∧ between.events ++ ended.events = whole.events ∧
      (acts.any Act.tells = true → ended.state.next? = none) := by
  intro between ended whole
  obtain ⟨still, state, events⟩ := play_apart goes others
  -- The turn in one piece, with whatever comes after it.
  have joined (rest : List Act) :
      (service.play (apart acts ++ .turn :: rest)).state =
          ((service.play (apart acts)).state.turn.state.play rest).state ∧
        (service.play (apart acts ++ .turn :: rest)).events =
          (service.play (apart acts)).events ++
            ((service.play (apart acts)).state.turn.events ++
              ((service.play (apart acts)).state.turn.state.play rest).events) := by
    rw [play_append]
    exact ⟨rfl, rfl⟩
  have parted : ended =
      (service.play (apart acts)).state.turn.lift (flagged · (acts.any Act.tells)) := by
    show (service.play acts).state.proceed = _
    rw [state, proceed_flagged, still.turn]
  have stays : (service.play (apart acts)).state.turn.state.cancelled = false := by
    have same := (service.play (apart acts)).state.proceed_flagged false
    rw [flagged_of_cancelled still.going, ← still.turn] at same
    exact congrArg (·.state.cancelled) same
  obtain ⟨stateJoined, eventsJoined⟩ := joined (if acts.any Act.tells then [.cancel] else [])
  rw [parted]
  refine ⟨?_, ?_, fun told => ?_⟩
  · show _ = (service.play (apart acts ++ .turn :: _)).state
    rw [stateJoined]
    cases acts.any Act.tells with
    | true => rfl
    | false => exact flagged_of_cancelled stays
  · show (service.play acts).events ++ _ = (service.play (apart acts ++ .turn :: _)).events
    rw [eventsJoined, events]
    cases acts.any Act.tells with
    | true => exact congrArg (_ ++ ·) (List.append_nil _).symm
    | false => exact congrArg (_ ++ ·) (List.append_nil _).symm
  · rw [told]
    exact next?_of_told rfl

end Between

/-! ## Between the reading and the sending -/

/-- A caller that leaves takes the stage of its request with it. -/
theorem leave_setStage (service : Service) (id : Nat) (stage : Stage) :
    (service.setStage id stage).leave id = service.leave id := by
  have others (all : List Pending) :
      (all.map fun pending => if pending.id = id then { pending with stage } else pending).filter
          (·.id ≠ id) = all.filter (·.id ≠ id) := by
    induction all with
    | nil => rfl
    | cons first rest ih =>
        rw [List.map_cons]
        by_cases own : first.id = id
        · rw [if_pos own, List.filter_cons_of_neg (by simpa using own),
            List.filter_cons_of_neg (by simpa using own), ih]
        · rw [if_neg own, List.filter_cons_of_pos (by simpa using own),
            List.filter_cons_of_pos (by simpa using own), ih]
  unfold leave setStage
  rw [others]

theorem deliver_of_gone {service : Service} {id : Nat} (gone : service.present id = false)
    (bytes : Bytes) (reply : Bytes → Reply) :
    service.deliver id bytes reply =
      ⟨service, (), if bytes.isEmpty then [] else [.discarded bytes.length]⟩ := by
  rw [deliver, gone]
  rfl

/-- **A reader that leaves between the look for it and the sending** has left right after it was
answered, but for a warning of the bytes that are lost. -/
theorem sendBytes_between {service : Service} {id : Nat} (there : service.present id = true)
    (count : Nat) (reply : Bytes → Reply) :
    let parted := (service.leave id).sendBytes id count reply
    let whole := service.serveBytes id count reply
    let lost := (service.buffer.take count).result
    parted.state = whole.state.leave id ∧
      parted.events = whole.events ++ if lost.isEmpty then [] else [.discarded lost.length] := by
  intro parted whole lost
  let taken : Service := { service with buffer := (service.buffer.take count).state }
  have gone : (taken.leave id).present id = false := by
    rw [present_eq]
    exact congrArg Option.isSome ((taken.caller?_leave id id).trans (if_pos rfl))
  show ((taken.leave id).deliver id lost reply).state =
      (service.serveBytes id count reply).state.leave id ∧
    (service.buffer.take count).events ++ ((taken.leave id).deliver id lost reply).events =
      (service.serveBytes id count reply).events ++ _
  rw [deliver_of_gone gone, serveBytes_of_present there]
  exact ⟨(taken.leave_setStage id _).symm, rfl⟩

end Gapless.Service
