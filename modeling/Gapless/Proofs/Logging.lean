/-
# Gapless.Proofs.Logging -- the log and the totals tell the same

Users of handles who do one thing at a time, and a service that does so by itself, try chunks in
some order.  What the log tells of chunks is what these trials leave in it, one after another
(`Shared.logged_run`, `Service.logged_play`).  So it has one report on each, and as many rejected
chunks and ingested bytes as the totals (`log_agrees`).
-/
import Gapless.Proofs.Trials

namespace Gapless

set_option autoImplicit false

/-! ## Handles -/

namespace Shared

/-- One thing is done at a time, and who has the buffer to itself brings no chunk. -/
def Call.Direct : Call → Prop
  | .exclusive calls | .aborting calls => ∀ call ∈ calls, call.chunk? = none
  | .lanes _ => False
  | .request _ | .describe | .openHandle | .closeHandle => True

instance : DecidablePred Call.Direct
  | .exclusive calls | .aborting calls =>
      inferInstanceAs (Decidable (∀ call ∈ calls, call.chunk? = none))
  | .lanes _ => .isFalse id
  | .request _ | .describe | .openHandle | .closeHandle => .isTrue trivial

variable {shared : Shared} (sound : shared.buffer.Sound)

include sound

theorem logged_answer (request : Request) :
    Logged .shared (shared.buffer.trials [.request request]) (shared.answer request).events := by
  have alone (one : Request) (brings : (Buffer.Call.request one).chunk? = none)
      (same : shared.answer one = shared.holding (·.answer one)) :
      Logged .shared (shared.buffer.trials [.request one]) (shared.answer one).events := by
    have none : ∀ call ∈ [Buffer.Call.request one], call.chunk? = none := by simpa using brings
    rw [same, holding_eq, shared.buffer.trials_of_none none]
    exact .silent (shared.buffer.silent_perform brings)
  cases request with
  | ingest offset data =>
      let trial : Trial := ⟨shared.buffer, offset, data⟩
      show Logged .shared _ (shared.ingest offset data).events
      rw [ingest_eq]
      exact trial.logged .shared sound
  | read count => exact alone (.read count) rfl rfl
  | take count => exact alone (.take count) rfl rfl
  | stats => exact alone .stats rfl rfl

theorem logged_perform {handle : Nat} (opened : handle < shared.handles) {call : Call}
    (direct : call.Direct) :
    Logged .shared (shared.buffer.trials call.asks) (shared.perform handle call).events := by
  unfold perform
  rw [if_neg (Nat.not_le.2 opened)]
  cases call with
  | request request => exact logged_answer sound request
  | exclusive calls =>
      dsimp only
      rw [holding_eq]
      exact shared.buffer.logged_of_none .shared direct
  | aborting calls =>
      dsimp only
      rw [breaking_eq]
      exact shared.buffer.logged_of_none .shared direct
  | lanes lanes => cases direct
  | describe => exact .silent nofun
  | openHandle => exact .silent nofun
  | closeHandle =>
      dsimp only
      split <;> exact .silent nofun

/-- **A run of uses** leaves in the log what its chunks tell. -/
theorem logged_run {uses : List (Nat × Call)} (direct : ∀ use ∈ uses, use.2.Direct) :
    Logged .shared (shared.buffer.trials (asked shared.handles uses)) (shared.run uses).events := by
  induction uses generalizing shared with
  | nil => exact .silent nofun
  | cons use uses ih =>
      obtain ⟨handle, call⟩ := use
      obtain ⟨first, rest⟩ := List.forall_mem_cons.1 direct
      rw [run_cons]
      by_cases missing : shared.handles ≤ handle
      · have nothing : shared.perform handle call = ⟨shared, .noHandle, []⟩ := if_pos missing
        rw [nothing, asked, if_pos missing]
        exact ih sound rest
      · have opened := Nat.not_le.1 missing
        have one := logged_perform sound opened first
        obtain ⟨state, -, -⟩ := shared.perform_opened opened call
        have kept : (shared.perform handle call).state.buffer.Sound := by
          rw [state]
          exact (sound.run _).sound
        have further := ih kept rest
        rw [state] at further
        rw [asked, if_neg missing, Buffer.trials_append]
        refine one.append ?_
        dsimp only
        rw [state]
        exact further

/-- The reports that go with what the users of handles were told: one for each chunk that was
tried, by what its sender got. -/
def reports : List (Nat × Call) → List Result → List Event
  | (_, .request (.ingest offset data)) :: uses, .answer answer :: results =>
      .reported .shared offset data.length (refusal? answer) :: reports uses results
  | _ :: uses, _ :: results => reports uses results
  | _, _ => []

omit sound in
theorem reports_run {uses : List (Nat × Call)} (direct : ∀ use ∈ uses, use.2.Direct) :
    reports uses (shared.run uses).result =
      (shared.buffer.trials (asked shared.handles uses)).map (·.report .shared) := by
  induction uses generalizing shared with
  | nil => rfl
  | cons use uses ih =>
      obtain ⟨handle, call⟩ := use
      obtain ⟨first, rest⟩ := List.forall_mem_cons.1 direct
      rw [run_cons]
      by_cases missing : shared.handles ≤ handle
      · have nothing : shared.perform handle call = ⟨shared, .noHandle, []⟩ := if_pos missing
        rw [nothing, asked, if_pos missing, ← ih rest]
        cases call with
        | request request => cases request <;> rfl
        | _ => rfl
      · have opened := Nat.not_le.1 missing
        obtain ⟨state, -, -⟩ := shared.perform_opened opened call
        have buffer : (shared.perform handle call).state.buffer =
          (shared.buffer.run call.asks).state := congrArg Shared.buffer state
        have handles : (shared.perform handle call).state.handles =
          call.handlesAfter shared.handles := congrArg Shared.handles state
        rw [asked, if_neg missing, Buffer.trials_append, List.map_append, ← buffer, ← handles,
          ← ih rest]
        cases call with
        | request request =>
            have result : (shared.perform handle (.request request)).result =
                .answer (shared.buffer.answer request).result := by
              rw [← shared.result_answer request, perform, if_neg missing]
              rfl
            simp only [Step.andThen, Step.map, result]
            cases request with
            | ingest offset data =>
                have same : refusal? (shared.buffer.answer (.ingest offset data)).result =
                  refusal? (shared.buffer.ingest offset data).result := refusal?_map _ _
                rw [reports, same]
                rfl
            | read count => rfl
            | take count => rfl
            | stats => rfl
        | exclusive calls | aborting calls =>
            rw [Call.asks, shared.buffer.trials_of_none first]
            rfl
        | lanes lanes => cases first
        | describe | openHandle | closeHandle => rfl

end Shared

/-! ## Services -/
namespace Service

theorem logged_serve {service : Service} (sound : service.buffer.Sound) (id : Nat)
    (request : Request) :
    Logged .service
      (service.buffer.trials (Serving.call? ⟨id, request, service.present id⟩).toList)
      (service.serve id request).events := by
  have taken (count : Nat) (reply : Bytes → Reply) :
      Logged .service
        (service.buffer.trials (if service.present id then
          some (Buffer.Call.request (.take count)) else none).toList)
        (service.serveBytes id count reply).events := by
    rw [events_serveBytes]
    split
    · rw [service.buffer.trials_of_none (by simp [Buffer.Call.chunk?])]
      exact .silent (service.buffer.silent_take count)
    · exact .silent nofun
  cases request with
  | ingest offset data =>
      let trial : Trial := ⟨service.buffer, offset, data⟩
      exact trial.logged .service sound
  | read count => exact taken count .filled
  | take count => exact taken count .taken
  | stats => exact .silent nofun

section Play

variable {start : Buffer} {service : Service} {outcomes : List Outcome} {events : List Event}
  (logged : Logged .service (start.trials (asked outcomes)) events)

include logged

/-- An act that takes nothing and tells nothing of a chunk. -/
theorem logged_idle {outcome : Outcome} {more : List Event}
    (untaken : ∀ history : History, (history.add outcome).taken = history.taken)
    (silent : ∀ event ∈ more, event.onChunk = false) :
    Logged .service (start.trials (asked (outcomes ++ [outcome]))) (events ++ more) := by
  rw [asked_of_untaken _ untaken, ← List.append_nil (start.trials _)]
  exact logged.append (.silent silent)

theorem logged_turn (sound : service.buffer.Sound)
    (same : service.buffer = (start.run (asked outcomes)).state) :
    Logged .service (start.trials (asked (outcomes ++ [(service.act .turn).result])))
      (events ++ (service.act .turn).events) := by
  have turned := service.turned
  generalize service.act .turn = step at turned
  cases turned with
  | cancelled running told =>
      exact logged_idle logged (fun _ => rfl) (by simp [Event.onChunk])
  | @served id request rest running going first =>
      have left : ({ service with queue := rest } : Service).buffer.Sound := sound
      have served := logged_serve left id request
      rw [asked_of_served, Buffer.trials_append, ← same]
      exact logged.append served
  | abandoned running going nothing gone =>
      exact logged_idle logged (fun _ => rfl) (by simp [Event.onChunk])
  | waits running going nothing there => exact logged_idle logged (fun _ => rfl) (by simp)
  | still elsewhere => exact logged_idle logged (fun _ => rfl) (by simp)

theorem logged_discard :
    Logged .service (start.trials (asked (outcomes ++ [(service.act .discard).result])))
      (events ++ (service.act .discard).events) := by
  by_cases fresh : service.phase = .unstarted
  · rw [act_discard_of_unstarted fresh]
    refine logged_idle logged (fun _ => rfl) ?_
    unfold Buffer.release
    dsimp only
    split <;> simp [Event.onChunk]
  · rw [act_discard_of_begun fresh]
    exact logged_idle logged (fun _ => rfl) (by simp)

end Play

/-- **A run of a service** leaves in the log what the chunks tell that it took. -/
theorem logged_play {start : Buffer} (sound : start.Sound) (capacity : Nat) (acts : List Act) :
    let done := (unstarted start capacity).play acts
    Logged .service (start.trials (asked done.result)) done.events := by
  induction acts using List.reverseRecOn with
  | nil => exact .silent nofun
  | append_singleton acts act ih =>
      have ledger := ledger_play start capacity acts
      have kept : ((unstarted start capacity).play acts).state.buffer.Sound := by
        rw [ledger.buffer]
        exact sound.served _
      rw [play_concat]
      by_cases turns : act = .turn
      · rw [turns]
        exact logged_turn ih kept ledger.buffer
      by_cases discards : act = .discard
      · rw [discards]
        exact logged_discard ih
      · have quiet := quiet_act ((unstarted start capacity).play acts).state turns discards
        refine logged_idle ih quiet.taken ?_
        rw [quiet.events]
        exact nofun

end Service

/-- The chunk that a request brings. -/
def Service.Serving.chunk? (serving : Service.Serving) : Option (Nat × Bytes) :=
  match serving.request with
  | .ingest offset data => some (offset, data)
  | .read _ | .take _ | .stats => none

theorem Service.trials_asked (buffer : Buffer) (taken : List Serving) :
    (buffer.trials (taken.filterMap Serving.call?)).map (fun trial => (trial.offset, trial.data)) =
      taken.filterMap Serving.chunk? := by
  induction taken generalizing buffer with
  | nil => rfl
  | cons one taken ih =>
      obtain ⟨id, request, present⟩ := one
      cases request with
      | ingest offset data => exact congrArg ((offset, data) :: ·) (ih _)
      | read count | take count =>
          cases present with
          | false => exact ih buffer
          | true => exact ih _
      | stats => exact ih buffer

end Gapless
