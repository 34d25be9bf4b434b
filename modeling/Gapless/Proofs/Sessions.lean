/-
# Gapless.Proofs.Sessions -- every session is a run of acts

In a session callers and service take turns, and the service goes on only while somebody
waits.  That is one of the many orders in which they can act: whatever moves a session
makes, its service is where some run of acts leads, and the answers that the moves return
are those that are received in that run (`Session.run_plays`).  So what is proved of all
runs is true of all sessions.
-/
import Gapless.Session
import Gapless.Proofs.Protocol

namespace Gapless

set_option autoImplicit false

namespace Service

/-- The answer that an act brought. -/
def Outcome.answer? : Outcome → Option Answer
  | .spared reply => some (.ok reply)
  | .received _ answer => some answer
  | _ => none

/-- Some acts lead from one service to another, and bring these answers. -/
def Plays (service after : Service) (answers : List Answer) : Prop :=
  ∃ acts, (service.play acts).state = after ∧
    (service.play acts).result.filterMap Outcome.answer? = answers

namespace Plays

theorem refl (service : Service) : Plays service service [] := ⟨[], rfl, rfl⟩

theorem trans {service middle after : Service} {answers more : List Answer}
    (first : Plays service middle answers) (second : Plays middle after more) :
    Plays service after (answers ++ more) := by
  obtain ⟨acts, rfl, rfl⟩ := first
  obtain ⟨further, rfl, rfl⟩ := second
  refine ⟨acts ++ further, ?_, ?_⟩
  · rw [play_append]
    rfl
  · rw [play_append]
    exact List.filterMap_append

variable (service : Service)

theorem act (act : Act) :
    Plays service (service.act act).state (service.act act).result.answer?.toList := by
  refine ⟨[act], rfl, ?_⟩
  show [(service.act act).result].filterMap Outcome.answer? = _
  cases known : (service.act act).result.answer? with
  | none => rw [List.filterMap_cons_none known]; rfl
  | some answer => rw [List.filterMap_cons_some known]; rfl

/-! ## What a session does to its service -/

theorem enter (id : Nat) : Plays service (service.enter id) [] := by
  have acted := act service (.enter id)
  have silent : (service.act (.enter id)).result.answer? = none := by
    unfold Service.act
    dsimp only
    cases (service.enter id).queue[service.queue.length]? <;> rfl
  rw [silent] at acted
  exact acted

theorem collect {id : Nat} {answer : Answer} (has : service.answer? id = some answer) :
    Plays service (service.leave id) [answer] := by
  have acted := act service (.collect id)
  unfold Service.act at acted
  simp only [has] at acted
  exact acted

theorem leave (id : Nat) : Plays service (service.leave id) [] := by
  cases found : service.caller? id with
  | none =>
      have stays : service.leave id = service := by
        have all : service.pending.filter (·.id ≠ id) = service.pending := by
          refine List.filter_eq_self.2 fun pending member => ?_
          have other : (pending.id == id) ≠ true := List.find?_eq_none.1 found pending member
          simpa using other
        unfold Service.leave
        rw [all]
      rw [stays]
      exact refl service
  | some caller =>
      have acted := act service (.abandon id)
      unfold Service.act at acted
      simp only [found] at acted
      exact acted

theorem leaveEach (ids : List Nat) :
    Plays service { service with pending := service.pending.filter (·.id ∉ ids) } [] := by
  induction ids generalizing service with
  | nil => simpa using refl service
  | cons id ids ih =>
      have left := (leave service id).trans (ih (service.leave id))
      simpa [Service.leave, List.filter_filter, Bool.and_comm] using left

theorem leaveAll : Plays service service.leaveAll [] := by
  have left := leaveEach service (service.pending.map (·.id))
  have nobody : service.pending.filter (·.id ∉ service.pending.map (·.id)) = [] := by
    refine List.filter_eq_nil_iff.2 fun pending member => ?_
    simpa using ⟨pending, member, rfl⟩
  rw [nobody] at left
  exact left

theorem turn : Plays service service.turn.state [] := by
  have acted := act service .turn
  have silent : (service.act .turn).result.answer? = none := by
    unfold Service.act Step.map
    dsimp only
    cases service.next? <;> rfl
  rw [silent] at acted
  exact acted

theorem turns (count : Nat) : Plays service (turns count service).state [] := by
  induction count generalizing service with
  | zero => exact refl service
  | succ count ih => exact (turn service).trans (ih service.turn.state)

section Opened

variable {handle : Nat} (opened : handle ∈ service.handles)

include opened

theorem arrive {request : Request} (asks : unsent? request = none) :
    Plays service (service.arrive request).1 [] := by
  have acted := act service (.send handle request)
  rw [act_send_asking opened asks] at acted
  exact acted

theorem spared {request : Request} {reply : Reply} (nothing : unsent? request = some reply) :
    Plays service service [.ok reply] := by
  have acted := act service (.send handle request)
  rw [act_send_spared opened nothing] at acted
  exact acted

theorem openHandle : Plays service service.openHandle [] := by
  have acted := act service (.openHandle handle)
  unfold Service.act at acted
  simp only [if_pos opened] at acted
  exact acted

end Opened

end Plays

end Service

/-! ## Sessions -/

namespace Session

open Service (Plays unsent?)

variable (session : Session) (id : Nat)

theorem look_plays :
    Plays session.service (session.look id).1.service (session.look id).2.toList := by
  unfold look
  split
  · exact .refl _
  · dsimp only
    have entered := Plays.enter session.service id
    cases has : (session.service.enter id).answer? id with
    | none => exact entered
    | some answer => exact entered.trans (.collect _ has)

theorem awaitFor_plays (waits : Nat) :
    Plays session.service (session.awaitFor id waits).state.service
      (session.awaitFor id waits).result.toList := by
  induction waits generalizing session with
  | zero =>
      have left := (session.look_plays id).trans (.leave _ id)
      rw [List.append_nil] at left
      exact left
  | succ waits ih =>
      have looked := session.look_plays id
      unfold awaitFor
      rcases known : session.look id with ⟨after, answer⟩
      rw [known] at looked
      cases answer with
      | some answer => exact looked
      | none =>
          have waited := looked.trans (.turns after.service (after.service.queue.length + 1))
          exact waited.trans (ih after.wait.state)

theorem request_plays {handle : Nat} (opened : handle ∈ session.service.handles)
    (request : Request) :
    Plays session.service (session.request request).state.service
      (session.request request).result.toList := by
  unfold Session.request
  cases asks : unsent? request with
  | some reply => exact .spared _ opened asks
  | none =>
      have arrived := Plays.arrive session.service opened asks
      dsimp only [Session.arrive, await]
      exact arrived.trans ((session.arrive request).1.awaitFor_plays _ 2)

theorem handles_enter (service : Service) (id : Nat) :
    (service.enter id).handles = service.handles := by
  unfold Service.enter
  split
  · split <;> rfl
  · rfl

theorem handles_look : (session.look id).1.service.handles = session.service.handles := by
  unfold look
  split
  · rfl
  · dsimp only
    split <;> exact handles_enter _ _

theorem enqueue_plays {handle : Nat} (opened : handle ∈ session.service.handles)
    (request : Request) :
    Plays session.service (session.enqueue request).state.service
        (session.enqueue request).result.toList ∧
      handle ∈ (session.enqueue request).state.service.handles := by
  unfold enqueue
  cases asks : unsent? request with
  | some reply => exact ⟨.spared _ opened asks, opened⟩
  | none =>
      have arrived := Plays.arrive session.service opened asks
      dsimp only [Session.arrive]
      refine ⟨arrived.trans ((session.arrive request).1.look_plays _), ?_⟩
      show handle ∈ (look _ _).1.service.handles
      rw [handles_look]
      exact opened

/-- A list of things to do is a run when each of them is. -/
theorem each_plays {ι α : Type} {act : Session → ι → Step Session α} {answers : α → List Answer}
    (keep : Session → Prop)
    (one : ∀ session item, keep session →
      Plays session.service (act session item).state.service (answers (act session item).result) ∧
        keep (act session item).state)
    (items : List ι) {session : Session} (kept : keep session) :
    Plays session.service (Step.each act session items).state.service
      ((Step.each act session items).result.flatMap answers) := by
  induction items generalizing session with
  | nil => exact .refl _
  | cons item items ih =>
      obtain ⟨first, kept⟩ := one session item kept
      exact first.trans (ih kept)

/-- The answers that a move returns. -/
def Result.received : Result → List Answer
  | .answer one => one.toList
  | .answers all => all.flatMap Option.toList
  | .done | .count _ | .flag _ | .noHandle => []

theorem withHandle_plays {handle : Nat} {step : Step Session Result}
    (plays : handle ∈ session.service.handles →
      Plays session.service step.state.service step.result.received) :
    Plays session.service (session.withHandle handle step).state.service
      (session.withHandle handle step).result.received := by
  unfold withHandle
  split
  · next opened => exact plays opened
  · exact .refl _

/-- **A move is a run of acts.** -/
theorem perform_plays (move : Move) :
    Plays session.service (session.perform move).state.service
      (session.perform move).result.received := by
  have settles (service : Service) : Plays service service.settle.state [] := .turns service _
  cases move with
  | request handle request =>
      exact session.withHandle_plays fun opened => session.request_plays opened request
  | enqueue handle requests =>
      refine session.withHandle_plays fun opened => ?_
      exact each_plays (handle ∈ ·.service.handles)
        (fun _ request opened => enqueue_plays _ opened request) requests opened
  | collect =>
      exact each_plays (fun _ => True) (fun _ id _ => ⟨awaitFor_plays _ id 2, trivial⟩) _ trivial
  | abandon => exact .leaveAll _
  | settle => exact settles _
  | start => exact (Plays.act session.service .start).trans (settles _)
  | cancel => exact (Plays.act session.service .cancel).trans (settles _)
  | discard => exact .act session.service .discard
  | isClosed handle => exact session.withHandle_plays fun _ => .refl _
  | openHandle handle => exact session.withHandle_plays fun opened => .openHandle _ opened
  | closeHandle handle =>
      refine session.withHandle_plays fun _ => ?_
      exact (Plays.act session.service (.closeHandle handle)).trans (settles _)

/-- **Every session is a run of acts**, in which its answers are received. -/
theorem run_plays (session : Session) (moves : List Move) :
    Plays session.service (Step.each perform session moves).state.service
      ((Step.each perform session moves).result.flatMap Result.received) :=
  each_plays (fun _ => True) (fun session move _ => ⟨session.perform_plays move, trivial⟩) moves
    trivial

end Session

end Gapless
