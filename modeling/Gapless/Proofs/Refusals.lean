/-
# Gapless.Proofs.Refusals -- who is told of a refused chunk

Whoever offers a chunk is told when the buffer refuses it: the owner by the result of the
call, the user of a handle by the result of the use, and the caller of a service by the
answer that it is sent.  So the refusals can be gathered from what was told (`Shared.heard`,
`Service.heard`), whatever the buffer went through.

Two refusals are told to nobody.  A holder that breaks off loses its results, and a chunk is
ingested also when its caller has left.  Then it counts what the buffer says at that moment
(`Shared.unheard`, `Service.unheard`).

Taken together these are the refusals of the calls that the buffer went through
(`Shared.refused_perm`, `Service.refused_perm`): no answer gets lost, and none is given twice.
For the service this is an invariant of its acts (`Service.Heard`).
-/
import Gapless.Proofs.Turning

namespace Gapless

set_option autoImplicit false

/-! ## Refusals -/

/-- The reason of a refusal. -/
def reason? {α : Type} : Except Refusal α → Option Reason
  | .ok _ => none
  | .error refusal => some refusal.reason

theorem reason?_map {α β : Type} (f : α → β) (result : Except Refusal α) :
    reason? (result.map f) = reason? result := by
  cases result <;> rfl

/-- The reason for which a buffer refused a chunk.  A chunk with a negative offset never gets
to the buffer. -/
def Buffer.Call.refused? : Buffer.Call → Answer → Option Reason
  | .ingestSigned offset _, answer => if offset < 0 then none else reason? answer
  | .request _, answer | .drain _, answer | .limits, answer | .covers _, answer => reason? answer

/-- The reasons for which chunks were refused in a run of calls. -/
def refusals : List Buffer.Call → List Answer → List Reason
  | call :: calls, answer :: answers => (call.refused? answer).toList ++ refusals calls answers
  | _, _ => []

theorem refusals_append {calls : List Buffer.Call} {answers : List Answer}
    (same : answers.length = calls.length) (more : List Buffer.Call) (further : List Answer) :
    refusals (calls ++ more) (answers ++ further) =
      refusals calls answers ++ refusals more further := by
  induction calls generalizing answers with
  | nil =>
      rw [List.eq_nil_of_length_eq_zero same]
      rfl
  | cons call calls ih =>
      cases answers with
      | nil => cases same
      | cons answer answers =>
          have rest := ih (Nat.succ.inj same)
          show _ ++ refusals (calls ++ more) (answers ++ further) = (_ ++ _) ++ _
          rw [rest, List.append_assoc]

/-- Each chunk of a list with its own result. -/
theorem refusals_offers {chunks : List (Nat × Bytes)} {results : List (Except Refusal Unit)}
    (same : results.length = chunks.length) :
    refusals (Buffer.offers chunks) (results.map (·.map fun _ => .done)) =
      results.filterMap reason? := by
  induction chunks generalizing results with
  | nil =>
      rw [List.eq_nil_of_length_eq_zero same]
      rfl
  | cons chunk chunks ih =>
      cases results with
      | nil => cases same
      | cons result results =>
          have rest := ih (Nat.succ.inj same)
          show (reason? (result.map fun _ => Reply.done)).toList ++
            refusals (Buffer.offers chunks) (results.map _) = _
          rw [rest, reason?_map, List.filterMap_cons]
          cases reason? result <;> rfl

namespace Buffer

/-- The reasons for which a buffer refuses chunks in a run of calls. -/
def refused (buffer : Buffer) (calls : List Call) : List Reason :=
  refusals calls (buffer.run calls).result

theorem refused_append (buffer : Buffer) (calls more : List Call) :
    buffer.refused (calls ++ more) =
      buffer.refused calls ++ (buffer.run calls).state.refused more := by
  have same : (buffer.run calls).result.length = calls.length :=
    Shared.length_each perform buffer calls
  rw [refused, run_append]
  exact refusals_append same more _

/-- Serving a request refuses what it is answered with. -/
theorem refused_call (buffer : Buffer) (one : Service.Serving) :
    buffer.refused one.call?.toList = (reason? (buffer.reply one.request)).toList := by
  obtain ⟨id, request, present⟩ := one
  cases request with
  | ingest offset data => exact List.append_nil _
  | read count => cases present <;> rfl
  | take count => cases present <;> rfl
  | stats => rfl

end Buffer

/-- What was told and what was not, one after another. -/
theorem perm_both {α : Type} (first second third fourth : List α) :
    ((first ++ second) ++ (third ++ fourth)).Perm ((first ++ third) ++ (second ++ fourth)) := by
  rw [List.append_assoc, List.append_assoc]
  exact (List.perm_append_comm_assoc second third fourth).append_left first

/-! ## Handles -/

namespace Shared

/-- The refusals that the result of a call tells of. -/
def Call.hears : Call → Result → List Reason
  | .request _, .answer answer => (reason? answer).toList
  | .exclusive calls, .answers answers => refusals calls answers
  | .lanes _, .lanes results => results.flatten.filterMap reason?
  | _, _ => []

/-- The refusals of which nobody is told, as the holder breaks off. -/
def Call.loses (buffer : Buffer) : Call → List Reason
  | .aborting calls => buffer.refused calls
  | .request _ | .exclusive _ | .lanes _ | .describe | .openHandle | .closeHandle => []

/-- The refusals that the results of uses tell of. -/
def heard : List (Nat × Call) → List Result → List Reason
  | (_, call) :: uses, result :: results => call.hears result ++ heard uses results
  | _, _ => []

/-- The refusals of all holders that break off, each by the buffer that it held. -/
def unheard (shared : Shared) : List (Nat × Call) → List Reason
  | [] => []
  | (handle, call) :: uses =>
      (if shared.handles ≤ handle then [] else call.loses shared.held) ++
        (shared.perform handle call).state.unheard uses

/-- A call hears of all refusals, or it loses them all. -/
theorem refused_of_tells {handles : Nat} {call : Call} {buffer : Buffer} {result : Result}
    (tells : call.Tells handles (buffer.run call.asks).result result) :
    buffer.refused call.asks = call.hears result ++ call.loses buffer := by
  unfold Buffer.refused
  cases call with
  | aborting calls => cases tells; rfl
  | request request =>
      generalize (buffer.run (Call.asks (.request request))).result = answers at tells ⊢
      cases tells
      rfl
  | exclusive calls =>
      cases tells
      exact (List.append_nil _).symm
  | lanes lanes =>
      generalize (buffer.run (Call.asks (.lanes lanes))).result = answers at tells ⊢
      cases tells with
      | lanes shape =>
          refine (refusals_offers ?_).trans (List.append_nil _).symm
          rw [List.length_flatten, List.length_flatten, shape]
  | describe => cases tells; rfl
  | openHandle => cases tells; rfl
  | closeHandle =>
      cases tells
      split <;> rfl

/-- **Uses of handles hear of every refusal**, but for those of holders that break off. -/
theorem refused_perm (shared : Shared) (uses : List (Nat × Call)) :
    (heard uses (shared.run uses).result ++ shared.unheard uses).Perm
      (shared.buffer.refused (asked shared.handles uses)) := by
  induction uses generalizing shared with
  | nil => exact .refl _
  | cons use uses ih =>
      obtain ⟨handle, call⟩ := use
      have rest := ih (shared.perform handle call).state
      rw [run_cons]
      refine (perm_both _ _ _ _).trans ?_
      by_cases missing : shared.handles ≤ handle
      · have nothing : shared.perform handle call = ⟨shared, .noHandle, []⟩ := if_pos missing
        have silent : call.hears .noHandle = [] := by cases call <;> rfl
        rw [nothing] at rest
        simp only [nothing, asked, if_pos missing, silent]
        exact rest
      · obtain ⟨state, tells, -⟩ := shared.perform_opened (Nat.not_le.1 missing) call
        rw [asked, if_neg missing, if_neg missing, Buffer.refused_append, refused_of_tells tells,
          held_eq]
        rw [state] at rest ⊢
        exact rest.append_left _

end Shared

/-! ## The service -/

namespace Service

/-- The buffer's refusal that is told at a stage.  A closed service refuses as well, but that
is not the buffer's. -/
def Stage.refused? : Stage → Option Reason
  | .answered (.error .closed) => none
  | .answered answer => reason? answer
  | .waiting | .queued => none

/-- The stage of every request, the last one for a caller that has gone. -/
def stages (history : History) (service : Service) : List Stage :=
  history.left.map Prod.snd ++ service.pending.map Pending.stage

/-- The refusals with which callers were answered, also those that nobody has collected. -/
def heard (history : History) (service : Service) : List Reason :=
  (stages history service).filterMap Stage.refused?

/-- The refusals of chunks whose callers had left before. -/
def unheard (buffer : Buffer) : List Serving → List Reason
  | [] => []
  | one :: rest =>
      (if one.present then [] else (reason? (buffer.reply one.request)).toList) ++
        unheard (buffer.served [one]) rest

theorem unheard_concat (buffer : Buffer) (taken : List Serving) (one : Serving) :
    unheard buffer (taken ++ [one]) =
      unheard buffer taken ++
        if one.present then [] else (reason? ((buffer.served taken).reply one.request)).toList := by
  induction taken generalizing buffer with
  | nil => exact List.append_nil _
  | cons first rest ih =>
      have later : buffer.served (first :: rest) = (buffer.served [first]).served rest :=
        buffer.served_append [first] rest
      rw [later, List.cons_append, unheard, unheard, ih, List.append_assoc]

theorem refused?_reply (buffer : Buffer) (request : Request) :
    (Stage.answered (buffer.reply request)).refused? = reason? (buffer.reply request) := by
  have never := buffer.reply_ne_closed request
  unfold Stage.refused?
  split
  · next closed => exact absurd (Stage.answered.inj closed) never
  · next other => rw [Stage.answered.inj other]
  · next waits => cases waits
  · next queued => cases queued

/-! ### Callers -/

theorem ids_setStage (service : Service) (id : Nat) (stage : Stage) :
    (service.setStage id stage).pending.map Pending.id = service.pending.map Pending.id := by
  unfold setStage
  rw [List.map_map]
  refine List.map_congr_left fun pending _ => ?_
  dsimp only [Function.comp]
  split <;> rfl

section Stages

variable (history : History) {service : Service} {id : Nat} {caller : Pending}
  (distinct : (service.pending.map Pending.id).Nodup) (found : service.caller? id = some caller)

include distinct found

/-- A caller and all others. -/
theorem pending_perm : service.pending.Perm (caller :: (service.leave id).pending) := by
  obtain ⟨own, before, behind, split, -⟩ := List.find?_eq_some_iff_append.1 found
  have same : caller.id = id := by simpa using own
  rw [split, List.map_append, List.map_cons] at distinct
  have apart := (List.nodup_middle.1 distinct).notMem
  have kept : (before ++ behind).filter (·.id ≠ id) = before ++ behind := by
    refine List.filter_eq_self.2 fun pending member => ?_
    rw [decide_eq_true_iff]
    intro shared
    refine apart ?_
    rw [← List.map_append, same, ← shared]
    exact List.mem_map_of_mem member
  have rest : (service.leave id).pending = before ++ behind := by
    unfold leave
    rw [split, List.filter_append, List.filter_cons_of_neg (by simpa using same),
      ← List.filter_append]
    exact kept
  rw [rest, split]
  exact List.perm_middle

theorem setStage_perm (stage : Stage) :
    (service.setStage id stage).pending.Perm
      ({ caller with stage } :: (service.leave id).pending) := by
  have same : caller.id = id := id_of_caller? found
  have others (pending : Pending) (member : pending ∈ (service.leave id).pending) :
      (if pending.id = id then { pending with stage } else pending) = pending :=
    if_neg (by simpa using (List.mem_filter.1 member).2)
  have moved := (pending_perm distinct found).map fun pending =>
    if pending.id = id then { pending with stage } else pending
  rw [List.map_cons, List.map_congr_left others, List.map_id', if_pos same] at moved
  exact moved

/-- A caller is at one stage, and the others are where they are. -/
theorem stages_perm :
    (stages history service).Perm (caller.stage :: stages history (service.leave id)) := by
  have apart := (pending_perm distinct found).map Pending.stage
  exact (apart.append_left _).trans List.perm_middle

theorem stages_setStage (stage : Stage) :
    (stages history (service.setStage id stage)).Perm
      (stage :: stages history (service.leave id)) := by
  have apart := (setStage_perm distinct found stage).map Pending.stage
  exact (apart.append_left _).trans List.perm_middle

/-- Whoever leaves does so at the stage of its request. -/
theorem stages_left :
    (stages { history with left := history.left ++ [(id, caller.stage)] }
      (service.leave id)).Perm (stages history service) := by
  refine List.Perm.trans ?_ (stages_perm history distinct found).symm
  unfold stages
  rw [List.map_append, List.append_assoc]
  exact List.perm_middle

/-- A request that moves on tells of what its new stage tells. -/
theorem heard_setStage (silent : caller.stage.refused? = none) (stage : Stage) :
    (heard history (service.setStage id stage)).Perm
      (stage.refused?.toList ++ heard history service) := by
  have before := (stages_perm history distinct found).filterMap Stage.refused?
  have after := (stages_setStage history distinct found stage).filterMap Stage.refused?
  rw [List.filterMap_cons_none silent] at before
  refine List.Perm.trans ?_ (before.symm.append_left _)
  refine after.trans ?_
  rw [List.filterMap_cons]
  cases stage.refused? <;> exact .refl _

end Stages

/-- Who had no answer is told by a closed service, and nobody else is told anything. -/
theorem heard_close (history : History) (service : Service) (phase : Phase) :
    heard history (service.close phase) = heard history service := by
  have moved : (service.close phase).pending = service.pending.map Pending.refused := rfl
  have same : (Stage.refused? ∘ Pending.stage) ∘ Pending.refused =
      Stage.refused? ∘ Pending.stage := by
    funext pending
    obtain ⟨id, request, stage⟩ := pending
    cases stage <;> rfl
  unfold heard stages
  rw [List.filterMap_append, List.filterMap_append]
  refine congrArg _ ?_
  rw [moved, List.filterMap_map, List.filterMap_map, List.filterMap_map, same]

/-! ### Acts -/

/-- Every refusal was told to one caller, or to nobody as that one had left. -/
structure Heard (start : Buffer) (history : History) (service : Service) : Prop where
  distinct : (service.pending.map Pending.id).Nodup
  perm : (heard history service ++ unheard start history.taken).Perm
    (start.refused (history.taken.filterMap Serving.call?))

theorem heard_unstarted (buffer : Buffer) (capacity : Nat) :
    Heard buffer {} (unstarted buffer capacity) where
  distinct := List.nodup_nil
  perm := .refl _

namespace Heard

variable {start : Buffer} {history : History} {service : Service}
  (heard : Heard start history service)

include heard

/-- Nothing is told when a request arrives, also if it is refused at once. -/
theorem sent (ledger : Ledger start history service) (request : Request) :
    Heard start (history.add (.sent service.arrived request)) (service.arrive request).1 := by
  have fresh : service.arrived ∉ service.pending.map Pending.id := by
    intro member
    obtain ⟨pending, there, own⟩ := List.mem_map.1 member
    have absent := List.find?_eq_none.1 ledger.caller?_arrived pending there
    exact absent (by simpa using own)
  have silent : (if service.closed then Stage.answered (resolve (.error .unsent))
      else .waiting).refused? = none := by
    split <;> rfl
  have told : Service.heard history (service.arrive request).1 = Service.heard history service := by
    unfold Service.heard stages arrive
    dsimp only
    rw [List.map_append, ← List.append_assoc, List.filterMap_append]
    refine (congrArg _ ?_).trans (List.append_nil _)
    exact List.filterMap_cons_none silent
  refine ⟨?_, ?_⟩
  · show ((service.pending ++ [_]).map Pending.id).Nodup
    rw [List.map_append]
    exact heard.distinct.append (List.nodup_singleton _) (List.disjoint_singleton.2 fresh)
  · show (Service.heard history (service.arrive request).1 ++ _).Perm _
    rw [told]
    exact heard.perm

/-- Requests that move on keep their numbers. -/
theorem distinct_setStage (id : Nat) (stage : Stage) :
    ((service.setStage id stage).pending.map Pending.id).Nodup := by
  rw [ids_setStage]
  exact heard.distinct

theorem entered {id : Nat} {caller : Pending} (found : service.caller? id = some caller)
    (waits : caller.stage = .waiting) (queue : List (Nat × Request)) :
    Heard start (history.add (.entered id caller.request))
      { service.setStage id .queued with queue } where
  distinct := heard.distinct_setStage id .queued
  perm := by
    have silent : caller.stage.refused? = none := by rw [waits]; rfl
    have told := heard_setStage history heard.distinct found silent .queued
    exact (told.append_right _).trans heard.perm

theorem served (ledger : Ledger start history service) {id : Nat} {request : Request}
    {rest : List (Nat × Request)} (first : service.queue = (id, request) :: rest) :
    Heard start (history.add (.served id request (service.present id)))
      { service.setStage id (.answered (service.buffer.reply request)) with
        buffer := service.buffer.served [⟨id, request, service.present id⟩]
        queue := rest } := by
  refine ⟨heard.distinct_setStage id _, ?_⟩
  have state : start.served history.taken = service.buffer := ledger.buffer.symm
  have calls : start.refused
        ((history.taken ++ [Serving.mk id request (service.present id)]).filterMap Serving.call?) =
      start.refused (history.taken.filterMap Serving.call?) ++
        (reason? (service.buffer.reply request)).toList := by
    have own := service.buffer.refused_call ⟨id, request, service.present id⟩
    rw [calls_concat, Buffer.refused_append, ← own, ← state]
    rfl
  show (Service.heard history (service.setStage id _) ++
    unheard start (history.taken ++ [Serving.mk id request (service.present id)])).Perm
      (start.refused ((history.taken ++ [_]).filterMap _))
  rw [calls, unheard_concat, state]
  cases found : service.caller? id with
  | none =>
      have away : service.present id = false := by rw [present_eq, found, Option.isSome_none]
      rw [setStage_of_absent found, away, ← List.append_assoc]
      exact heard.perm.append_right _
  | some caller =>
      have there : service.present id = true := by rw [present_eq, found, Option.isSome_some]
      have queued := ledger.stage_of_reached found (ledger.reached_first first)
      have silent : caller.stage.refused? = none := by rw [queued]; rfl
      have told := heard_setStage history heard.distinct found silent
        (.answered (service.buffer.reply request))
      rw [refused?_reply] at told
      rw [there, if_pos rfl, List.append_nil]
      refine (told.append_right _).trans ?_
      rw [List.append_assoc]
      exact List.perm_append_comm.trans (heard.perm.append_right _)

theorem left {id : Nat} {caller : Pending} (found : service.caller? id = some caller) :
    Heard start { history with left := history.left ++ [(id, caller.stage)] }
      (service.leave id) where
  distinct := heard.distinct.sublist (List.filter_sublist.map _)
  perm := by
    have told := (stages_left history heard.distinct found).filterMap Stage.refused?
    exact (told.append_right _).trans heard.perm

theorem closed (phase : Phase) : Heard start history (service.close phase) where
  distinct := by
    have same : (service.close phase).pending.map Pending.id = service.pending.map Pending.id := by
      show (service.pending.map Pending.refused).map Pending.id = _
      rw [List.map_map]
      exact List.map_congr_left fun pending _ => pending.id_refused
    rw [same]
    exact heard.distinct
  perm := by
    rw [heard_close]
    exact heard.perm

end Heard

/-- **Every act tells of what it refuses**, or finds nobody to tell. -/
theorem Acted.heard {start : Buffer} {history : History} {service after : Service}
    {outcome : Outcome} (acted : Acted service outcome after)
    (ledger : Ledger start history service) (heard : Heard start history service) :
    Heard start (history.add outcome) after := by
  cases acted with
  | quiet silent begun lasting handles opened =>
      rw [silent]
      exact ⟨heard.distinct, heard.perm⟩
  | sent request => exact heard.sent ledger request
  | entered found waits room => exact heard.entered found waits _
  | served running going first => exact heard.served ledger first
  | received found answered =>
      have left := heard.left found
      rw [answered] at left
      exact left
  | abandoned found => exact heard.left found
  | closed ends => exact heard.closed _

/-- **Callers hear of every refusal**, but for those that had left before. -/
theorem refused_perm (buffer : Buffer) (capacity : Nat) (acts : List Act) :
    let done := (unstarted buffer capacity).play acts
    let history := historyOf done.result
    (heard history done.state ++ unheard buffer history.taken).Perm
      (buffer.refused (asked done.result)) := by
  intro done history
  have kept : Ledger buffer history done.state ∧ Heard buffer history done.state :=
    play_induction (motive := fun history service =>
        Ledger buffer history service ∧ Heard buffer history service)
      (fun acted before => ⟨acted.ledger before.1, acted.heard before.1 before.2⟩) {}
      ⟨ledger_unstarted buffer capacity, heard_unstarted buffer capacity⟩ acts
  exact kept.2.perm

end Service

end Gapless
