/-
# Gapless.Proofs.Repeating -- a call that hands out nothing may be made again

What was accepted is on the tape, and writing it there again changes nothing.  What was refused
left the buffer as it was.  So a call that is made again is answered as before and leaves twins
(`Sound.answer_again`, `Sound.twins_again`), even when the buffer is as full as its limits allow.
Hence a run in which calls are made several times in a row (`Repetition`) shows what the run shows
in which each of them is made once (`Buffer.watch`).
-/
import Gapless.Proofs.Alike

namespace Gapless

set_option autoImplicit false

namespace Buffer

/-- Calls that hand out bytes. -/
def Call.reads : Call → Bool
  | .request (.read _) => true
  | .request (.take _) => true
  | .drain _ => true
  | _ => false

end Buffer

/-- A tape that follows the same call and answer twice follows them once. -/
theorem Tape.follow_again (tape : Tape) {call : Buffer.Call} (unread : call.reads = false)
    (answer : Answer) :
    (tape.follow call answer).follow call answer = tape.follow call answer := by
  have offered (offset : Nat) (data : Bytes) :
      (tape.offered offset data answer).offered offset data answer =
        tape.offered offset data answer := by
    cases answer with
    | ok reply => exact tape.write_again offset data
    | error refusal => rfl
  cases call with
  | request request =>
      cases request with
      | ingest offset data => exact offered offset data
      | read count => cases unread
      | take count => cases unread
      | stats => rfl
  | ingestSigned offset data => exact offered offset.toNat data
  | drain count => cases unread
  | limits => rfl
  | covers offset => rfl

namespace Buffer

/-! ## One call -/

section Again

variable {buffer : Buffer} (sound : buffer.Sound)

include sound

/-- A chunk that is offered again fares as it did. -/
theorem Sound.ingest_again (offset : Nat) (data : Bytes) :
    ((buffer.ingest offset data).state.ingest offset data).result =
      (buffer.ingest offset data).result := by
  by_cases nothing : data = []
  · rw [nothing]
    rfl
  · cases fared : (buffer.ingest offset data).result with
    | error refusal => rw [sound.state_of_refused fared, fared]
    | ok _ =>
        have after := sound.ingest offset data
        -- The limits are asked about the tape that they have let through.
        rw [after.result_ingest offset nothing, sound.tape_ingest fared, Tape.write_again,
          sound.limits_ingest, ← sound.result_ingest offset nothing, fared]

variable {call : Call} (unread : call.reads = false)

include unread

/-- **A call that hands out nothing is answered again as it was.** -/
theorem Sound.answer_again :
    ((buffer.perform call).state.perform call).result = (buffer.perform call).result := by
  cases call with
  | request request =>
      cases request with
      | ingest offset data =>
          exact congrArg (·.map fun _ => Reply.done) (sound.ingest_again offset data)
      | read count => cases unread
      | take count => cases unread
      | stats => rfl
  | ingestSigned offset data =>
      have again : ((buffer.ingestSigned offset data).state.ingestSigned offset data).result =
          (buffer.ingestSigned offset data).result := by
        by_cases negative : offset < 0
        · simp only [ingestSigned_of_neg negative]
        · simp only [ingestSigned_of_nonneg negative]
          exact sound.ingest_again offset.toNat data
      exact congrArg (·.map fun _ => Reply.done) again
  | drain count => cases unread
  | limits => rfl
  | covers offset => rfl

/-- **It leaves a twin of the buffer that it left before.** -/
theorem Sound.twins_again :
    Twins (buffer.perform call).state ((buffer.perform call).state.perform call).state := by
  have first := sound.perform call
  have second := first.sound.perform call
  refine
    { sound := first.sound
      soundToo := second.sound
      tape := ?_
      limits := second.limits.symm }
  rw [second.tape, sound.answer_again unread, first.tape, Tape.follow_again _ unread]

end Again

/-! ## Runs -/

/-- What a run shows: the answer to each call, with the buffer as it is then. -/
def watch (buffer : Buffer) (calls : List Call) : List (Answer × Buffer) :=
  (Step.each (fun buffer call =>
    let step := buffer.perform call
    step.map fun answer => (answer, step.state)) buffer calls).result

@[simp] theorem watch_cons (buffer : Buffer) (call : Call) (calls : List Call) :
    buffer.watch (call :: calls) =
      ((buffer.perform call).result, (buffer.perform call).state) ::
        (buffer.perform call).state.watch calls := rfl

theorem watch_append (buffer : Buffer) (calls more : List Call) :
    buffer.watch (calls ++ more) = buffer.watch calls ++ (buffer.run calls).state.watch more := by
  induction calls generalizing buffer with
  | nil => rfl
  | cons call calls ih => simp [ih, run_cons, Step.andThen, Step.map]

/-- The same answer, and buffers of which the same can be seen. -/
def Shown (one other : Answer × Buffer) : Prop :=
  one.1 = other.1 ∧ one.2.Alike other.2

/-- A call with the number of times that it is made again.  A call that hands out bytes is made
only once. -/
structure Repetition where
  call : Call
  again : Nat
  once : call.reads = true → again = 0

/-- The calls that are made. -/
def Repetition.calls (repetition : Repetition) : List Call :=
  List.replicate (repetition.again + 1) repetition.call

/-- One thing for each call that is made. -/
def Repetition.echoes {α : Type} (repetition : Repetition) (seen : α) : List α :=
  List.replicate (repetition.again + 1) seen

/-- A call that leaves twins of a buffer goes on doing so. -/
theorem Twins.watch_replicate {one other : Buffer} (twins : Twins one other) {call : Call}
    (settled : Twins one (one.perform call).state) (count : Nat) :
    List.Forall₂ Shown (List.replicate count ((one.perform call).result, one))
        (other.watch (List.replicate count call)) ∧
      Twins one (other.run (List.replicate count call)).state := by
  induction count generalizing other with
  | zero => exact ⟨.nil, twins⟩
  | succ count ih =>
      have next : Twins one (other.perform call).state := settled.trans (twins.perform call)
      obtain ⟨rest, last⟩ := ih next
      rw [List.replicate_succ, List.replicate_succ, watch_cons]
      exact ⟨.cons ⟨twins.answers call, next.alike⟩ rest, last⟩

/-- **A repeated call shows again and again what it shows once.** -/
theorem Twins.watch_calls {one other : Buffer} (twins : Twins one other)
    (repetition : Repetition) :
    let step := one.perform repetition.call
    List.Forall₂ Shown (repetition.echoes (step.result, step.state))
        (other.watch repetition.calls) ∧
      Twins step.state (other.run repetition.calls).state := by
  intro step
  have next : Twins step.state (other.perform repetition.call).state :=
    twins.perform repetition.call
  have first : Shown (step.result, step.state)
      ((other.perform repetition.call).result, (other.perform repetition.call).state) :=
    ⟨twins.answers repetition.call, next.alike⟩
  unfold Repetition.echoes Repetition.calls
  rw [List.replicate_succ, List.replicate_succ, watch_cons]
  cases unread : repetition.call.reads with
  | true =>
      rw [repetition.once unread]
      exact ⟨.cons first .nil, next⟩
  | false =>
      obtain ⟨rest, last⟩ :=
        next.watch_replicate (twins.sound.twins_again unread) repetition.again
      rw [twins.sound.answer_again unread] at rest
      exact ⟨.cons first rest, last⟩

theorem Twins.watch_plan {one other : Buffer} (twins : Twins one other)
    (plan : List Repetition) :
    List.Forall₂ Shown
      (List.zipWith Repetition.echoes plan (one.watch (plan.map (·.call)))).flatten
      (other.watch (plan.flatMap (·.calls))) := by
  induction plan generalizing one other with
  | nil => exact .nil
  | cons repetition plan ih =>
      obtain ⟨first, next⟩ := twins.watch_calls repetition
      rw [List.map_cons, watch_cons, List.zipWith_cons_cons, List.flatten_cons, List.flatMap_cons,
        watch_append]
      exact List.rel_append first (ih next)

/-- **Making calls again changes nothing that can be seen**, for all limits and all runs: whatever
is repeated is answered each time as it is when it is done once, everything is read as it would
have been, and after each call the buffers are alike. -/
theorem run_repeated (limits : Limits) (plan : List Repetition) :
    let single := (fresh limits).watch (plan.map (·.call))
    let repeated := (fresh limits).watch (plan.flatMap (·.calls))
    List.Forall₂ Shown (List.zipWith Repetition.echoes plan single).flatten repeated :=
  (Twins.refl (sound_fresh limits)).watch_plan plan

/-- A chunk that fills the buffer and one that finds it full, both sent again. -/
example :
    let plan : List Repetition :=
      [⟨.request (.ingest 0 [1, 2]), 2, nofun⟩, ⟨.request (.ingest 4 [5]), 1, nofun⟩,
        ⟨.request (.read 1), 0, fun _ => rfl⟩]
    ((fresh { bytes := some 2 }).watch (plan.flatMap (·.calls))).map (·.1) =
      [.ok .done, .ok .done, .ok .done, .error (.bufferLimit 3 2), .error (.bufferLimit 3 2),
        .ok (.filled [1])] := by
  decide

end Buffer

end Gapless
