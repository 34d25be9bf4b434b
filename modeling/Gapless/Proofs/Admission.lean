/-
# Gapless.Proofs.Admission -- which chunks are accepted

The limits are asked about counters that a planned merge would leave.  Those are the
number of bytes and of maximal runs of the offsets that would be held with the chunk
(`Buffer.joined`), however the chunk overlaps, touches or bridges what is stored and
whatever the cursor cuts off.  A chunk that ends at or below the cursor is not asked
about: it would leave the buffer as it is, and that is within the limits
(`Sound.result_ingest`).

A refused chunk leaves the buffer as it was and is counted once under its reason.
-/
import Gapless.Metrics
import Gapless.Proofs.Calls

namespace Gapless

set_option autoImplicit false

/-! ## Limits -/

namespace Limits

variable {limits : Limits} {bytes segments : Nat}

theorem passed?_eq_some_iff {amount bound : Nat} {limit : Option Nat} :
    passed? amount limit = some bound ↔ limit = some bound ∧ bound < amount := by
  cases limit with
  | none => simp [passed?]
  | some other =>
      simp only [passed?, Option.bind_some, Option.ite_none_right_eq_some, Option.some.injEq]
      constructor
      · rintro ⟨past, rfl⟩
        exact ⟨rfl, past⟩
      · rintro ⟨rfl, past⟩
        exact ⟨past, rfl⟩

theorem check_eq_bufferLimit_iff {attempted bound : Nat} :
    limits.check bytes segments = .error (.bufferLimit attempted bound) ↔
      attempted = bytes ∧ limits.bytes = some bound ∧ bound < bytes := by
  rw [← passed?_eq_some_iff, check]
  split
  · next limit passed =>
      rw [passed]
      simp only [Except.error.injEq, Refusal.bufferLimit.injEq, Option.some.injEq]
      exact and_congr_left fun _ => eq_comm
  · next limit within passed => simp [within]
  · next within _ => simp [within]

theorem check_eq_segmentLimit_iff {attempted bound : Nat} :
    limits.check bytes segments = .error (.segmentLimit attempted bound) ↔
      Within bytes limits.bytes ∧ attempted = segments ∧ limits.segments = some bound ∧
        bound < segments := by
  rw [← passed?_eq_some_iff, ← passed?_eq_none_iff, check]
  split
  · next limit passed => simp [passed]
  · next limit within passed =>
      rw [within, passed]
      simp only [Except.error.injEq, Refusal.segmentLimit.injEq, Option.some.injEq, true_and]
      exact and_congr_left fun _ => eq_comm
  · next within withinToo => simp [within, withinToo]

/-- The refusals that limits give. -/
def Refuses (limits : Limits) : Refusal → Prop
  | .bufferLimit attempted bound => limits.bytes = some bound ∧ bound < attempted
  | .segmentLimit attempted bound => limits.segments = some bound ∧ bound < attempted
  | .invalidArgument _ => False
  | .closed => False

theorem not_refuses_unbounded (refusal : Refusal) : ¬unbounded.Refuses refusal := by
  cases refusal with
  | bufferLimit attempted bound => rintro ⟨⟨⟩, -⟩
  | segmentLimit attempted bound => rintro ⟨⟨⟩, -⟩
  | invalidArgument fault => exact id
  | closed => exact id

theorem refuses_of_check {refusal : Refusal}
    (refused : limits.check bytes segments = .error refusal) : limits.Refuses refusal := by
  rw [check] at refused
  split at refused
  · next limit passed =>
      cases refused
      exact passed?_eq_some_iff.1 passed
  · next limit _ passed =>
      cases refused
      exact passed?_eq_some_iff.1 passed
  · cases refused

end Limits

/-! ## Admission -/

/-- The offsets that would be held with a chunk: those stored, and those of the chunk that
the cursor has not passed. -/
def Buffer.joined (buffer : Buffer) (chunk : Chunk) : Finset Nat :=
  Store.offsetsOf buffer.store.segments ∪
    (Finset.Ico chunk.offset (chunk.offset + chunk.length)).filter (buffer.cursor ≤ ·)

/-- How a chunk with at least one byte fares in a buffer with these limits. -/
structure Admission (limits : Limits) (buffer : Buffer) (chunk : Chunk)
    (step : Step Buffer (Except Refusal Unit)) : Prop where
  overflow : step.result = .error (.invalidArgument (.rangeOverflow chunk.offset chunk.length)) ↔
    maxOffset < chunk.offset + chunk.length
  bufferLimit : ∀ attempted bound, step.result = .error (.bufferLimit attempted bound) ↔
    chunk.offset + chunk.length ≤ maxOffset ∧
      attempted = (buffer.joined chunk).card ∧
      limits.bytes = some bound ∧ bound < (buffer.joined chunk).card
  segmentLimit : ∀ attempted bound, step.result = .error (.segmentLimit attempted bound) ↔
    chunk.offset + chunk.length ≤ maxOffset ∧
      Limits.Within (buffer.joined chunk).card limits.bytes ∧
      attempted = (runStarts (buffer.joined chunk)).card ∧
      limits.segments = some bound ∧ bound < (runStarts (buffer.joined chunk)).card
  accepted : step.result = .ok () ↔
    chunk.offset + chunk.length ≤ maxOffset ∧
      Limits.Within (buffer.joined chunk).card limits.bytes ∧
      Limits.Within (runStarts (buffer.joined chunk)).card limits.segments
  holds : step.result = .ok () →
    step.state.store.held = (buffer.joined chunk).card ∧
      step.state.store.count = (runStarts (buffer.joined chunk)).card
  /-- A refusal changes nothing, writes nothing to the log and is counted once. -/
  refused : ∀ refusal, step.result = .error refusal →
    step.state = buffer ∧ logOf step.events = [] ∧
      ∀ metrics : Metrics, metrics.after step.events =
        { metrics with
          refused := fun reason =>
            if reason = refusal.reason then metrics.refused reason + 1
            else metrics.refused reason }

namespace Buffer

section Sound

variable {buffer : Buffer} (sound : buffer.Sound) {offset : Nat} {data : Bytes}

include sound

/-- **The verdict on a chunk**, by the tape that it would be written on. -/
theorem Sound.result_ingest (offset : Nat) (nonempty : data ≠ []) :
    (buffer.ingest offset data).result =
      if maxOffset < offset + data.length then
        .error (.invalidArgument (.rangeOverflow offset data.length))
      else
        buffer.limits.check (buffer.tape.write offset data).bytes.offsets.card
          (runStarts (buffer.tape.write offset data).bytes.offsets).card := by
  have fared := ingest_cases sound.store.separated offset data
  generalize buffer.ingest offset data = step at fared
  cases fared with
  | empty nothing => exact absurd nothing nonempty
  | overflow _ beyond => rw [if_pos beyond]
  | late _ fits passed =>
      rw [if_neg (by omega), Tape.write_late passed, ← sound.held_eq, ← sound.count_eq]
      exact (Limits.check_eq_ok_iff.2 ⟨sound.heldWithin, sound.countWithin⟩).symm
  | refused _ fits news refusal check =>
      rw [if_neg (by omega), ← sound.held_merged fits news, ← sound.count_merged nonempty fits news,
        check]
  | stored _ fits news check =>
      rw [if_neg (by omega), ← sound.held_merged fits news, ← sound.count_merged nonempty fits news,
        check]

/-- A chunk with a proper range is refused by a limit, if at all. -/
theorem Sound.refuses (ranged : data = [] ∨ offset + data.length ≤ maxOffset) {refusal : Refusal}
    (refused : (buffer.ingest offset data).result = .error refusal) :
    buffer.limits.Refuses refusal := by
  by_cases nothing : data = []
  · subst nothing
    cases refused
  · have fits := ranged.resolve_left nothing
    rw [sound.result_ingest offset nothing, if_neg (Nat.not_lt.2 fits)] at refused
    exact Limits.refuses_of_check refused

theorem Sound.events_of_refused {refusal : Refusal}
    (refused : (buffer.ingest offset data).result = .error refusal) :
    (buffer.ingest offset data).events = [.refused refusal.reason] := by
  have fared := ingest_cases sound.store.separated offset data
  generalize buffer.ingest offset data = step at fared refused
  cases fared with
  | overflow => cases refused; rfl
  | refused => cases refused; rfl
  | _ => cases refused

/-- A chunk with a proper range fares as the limits say. -/
theorem Sound.result_ingest_iff (offset : Nat) (nonempty : data ≠ [])
    (result : Except Refusal Unit) (ranged : ∀ fault, result ≠ .error (.invalidArgument fault)) :
    (buffer.ingest offset data).result = result ↔
      offset + data.length ≤ maxOffset ∧
        buffer.limits.check (buffer.tape.write offset data).bytes.offsets.card
          (runStarts (buffer.tape.write offset data).bytes.offsets).card = result := by
  rw [sound.result_ingest offset nonempty]
  by_cases beyond : maxOffset < offset + data.length
  · rw [if_pos beyond]
    exact iff_of_false (ranged _).symm fun both => Nat.not_lt.2 both.1 beyond
  · rw [if_neg beyond]
    exact (and_iff_right (Nat.not_lt.1 beyond)).symm

theorem Sound.overflow_iff (offset : Nat) (nonempty : data ≠ []) :
    (buffer.ingest offset data).result =
        .error (.invalidArgument (.rangeOverflow offset data.length)) ↔
      maxOffset < offset + data.length := by
  rw [sound.result_ingest offset nonempty]
  by_cases beyond : maxOffset < offset + data.length
  · rw [if_pos beyond]
    exact iff_of_true rfl beyond
  · rw [if_neg beyond]
    exact iff_of_false (fun refused => Limits.refuses_of_check refused) beyond

/-- A chunk is admitted by the offsets that would be held with it. -/
theorem Sound.admission {chunk : Chunk} (nonempty : chunk.data ≠ []) :
    Admission buffer.limits buffer chunk (buffer.ingestChunk chunk) := by
  have joined :
      (buffer.tape.write chunk.offset chunk.data).bytes.offsets = buffer.joined chunk := by
    unfold joined
    rw [← chunk.length_data]
    rfl
  have overflow := sound.overflow_iff chunk.offset nonempty
  have verdict := sound.result_ingest_iff chunk.offset nonempty
  have follows := sound.follows_ingest chunk.offset chunk.data
  rw [chunk.length_data] at overflow
  rw [joined, chunk.length_data] at verdict
  rw [ingestChunk_eq]
  refine
    { overflow := overflow
      bufferLimit := fun attempted bound => ?_
      segmentLimit := fun attempted bound => ?_
      accepted := ?_
      holds := fun accepted => ?_
      refused := fun refusal refused => ⟨sound.state_of_refused refused, ?_, fun metrics => ?_⟩ }
  · rw [verdict _ (by simp), Limits.check_eq_bufferLimit_iff]
  · rw [verdict _ (by simp), Limits.check_eq_segmentLimit_iff]
  · rw [verdict _ (by simp), Limits.check_eq_ok_iff]
  · rw [follows.sound.held_eq, follows.sound.count_eq, sound.tape_ingest accepted, joined]
    exact ⟨rfl, rfl⟩
  · rw [sound.events_of_refused refused]
    rfl
  · rw [sound.events_of_refused refused]
    rfl

end Sound

/-- **Admission is exact and a refusal is atomic**, in every state that calls reach, for
chunks cut out of longer lists of bytes as for whole ones. -/
theorem run_admission (limits : Limits) (calls : List Call) (chunk : Chunk)
    (nonempty : chunk.data ≠ []) :
    let buffer := ((fresh limits).run calls).state
    Admission limits buffer chunk (buffer.ingestChunk chunk) ∧
      buffer.ingest chunk.offset chunk.data = buffer.ingestChunk chunk := by
  intro buffer
  have follows := follows_fresh limits calls
  have admitted := follows.sound.admission nonempty
  rw [follows.limits] at admitted
  exact ⟨admitted, (ingestChunk_eq _ _).symm⟩

/-- Three bytes reach the limit of five, and touch the two that are stored. -/
theorem run_admission_touching :
    let limits : Limits := { bytes := some 5, segments := some 1 }
    let buffer := ((fresh limits).run [.request (.ingest 4 [5, 6])]).state
    Chunk.data (.ofData 1 [2, 3, 4]) ≠ [] ∧
      (buffer.joined (.ofData 1 [2, 3, 4])).card = 5 ∧
      (runStarts (buffer.joined (.ofData 1 [2, 3, 4]))).card = 1 ∧
      (buffer.ingestChunk (.ofData 1 [2, 3, 4])).result = .ok () := by
  intro limits buffer
  have nonempty : Chunk.data (.ofData 1 [2, 3, 4]) ≠ [] := by decide
  have bytes : (buffer.joined (.ofData 1 [2, 3, 4])).card = 5 := by decide
  have runs : (runStarts (buffer.joined (.ofData 1 [2, 3, 4]))).card = 1 := by decide
  obtain ⟨admitted, -⟩ :=
    run_admission limits [.request (.ingest 4 [5, 6])] (.ofData 1 [2, 3, 4]) nonempty
  refine ⟨nonempty, bytes, runs, admitted.accepted.2 ⟨by decide, ?_, ?_⟩⟩
  · rw [bytes]
    rintro bound ⟨⟩
    exact Nat.le_refl _
  · rw [runs]
    rintro bound ⟨⟩
    exact Nat.le_refl _

end Buffer

end Gapless
