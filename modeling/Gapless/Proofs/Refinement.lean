/-
# Gapless.Proofs.Refinement -- a buffer is a tape

Everything that can be asked of a buffer is answered as its tape says.  The cursor, the
counters and the segments show the tape (`Buffer.Shows`): the segments are the maximal
runs of the bytes that wait, in order.  A read returns the front of the tape and a chunk
without bytes is always accepted (`Tape.Expects`).

Which of the other chunks are accepted is not for the tape to say, as it knows no
limits; `Gapless.Proofs.Admission` does.
-/
import Gapless.Proofs.Calls

namespace Gapless

set_option autoImplicit false

/-- What can be seen of a buffer that holds what a tape does. -/
structure Buffer.Shows (buffer : Buffer) (tape : Tape) : Prop where
  cursor : buffer.cursor = tape.cursor
  ahead : ∀ offset ∈ tape.bytes.offsets, tape.cursor ≤ offset
  held : buffer.store.held = tape.bytes.offsets.card
  readable : buffer.readable = tape.readable
  /-- Each maximal run has one offset at which it begins. -/
  count : buffer.store.count = (runStarts tape.bytes.offsets).card
  empty : buffer.store.segments = [] ↔ tape.bytes.offsets = ∅
  runs : ∀ segment, segment ∈ buffer.store.segments ↔ tape.bytes.IsRun segment
  ordered : buffer.store.segments.Pairwise fun one next => one.stop < next.start

/-- The answers to a call that fit a tape. -/
def Tape.Expects (tape : Tape) (limits : Limits) : Buffer.Call → Answer → Prop
  | .request (.ingest _ data), answer => data = [] → answer = .ok .done
  | .request (.read count), answer => answer = .ok (.filled (tape.front count))
  | .request (.take count), answer => answer = .ok (.taken (tape.front count))
  | .request .stats, answer =>
      answer = .ok (.stats
        { cursor := tape.cursor
          held := tape.bytes.offsets.card
          segments := (runStarts tape.bytes.offsets).card
          readable := tape.readable })
  | .ingestSigned offset data, answer =>
      if offset < 0 then answer = .error (.invalidArgument (.negativeOffset offset))
      else data = [] → answer = .ok .done
  | .drain count, answer =>
      ∃ pieces, answer = .ok (.drained pieces) ∧
        pieces.flatten = tape.front (tape.readable * count)
  | .limits, answer => answer = .ok (.limits limits)
  | .covers offset, answer =>
      ∃ flags, answer = .ok (.covered flags) ∧ (true ∈ flags ↔ offset ∈ tape.bytes.offsets)

namespace Buffer

variable {buffer : Buffer}

theorem Sound.shows (sound : buffer.Sound) : buffer.Shows buffer.tape where
  cursor := rfl
  ahead := sound.tape_ahead
  held := sound.held_eq
  readable := sound.readable_eq
  count := sound.count_eq
  empty := sound.segments_eq_nil_iff
  runs _ := Store.mem_segments_iff_isRun sound.store.separated sound.full
  ordered := sound.store.separated

/-- Some stored segment covers an offset when the tape has a byte there. -/
theorem mem_covered {offset : Nat} :
    true ∈ buffer.store.segments.map (·.covers offset) ↔ offset ∈ buffer.tape.bytes.offsets := by
  refine Iff.trans ?_ Store.mem_bytes.symm
  simp only [List.mem_map, Segment.covers_iff]

theorem Sound.expects (sound : buffer.Sound) (call : Call) :
    buffer.tape.Expects buffer.limits call (buffer.perform call).result := by
  cases call with
  | request request =>
      cases request with
      | ingest offset data =>
          rintro rfl
          rfl
      | read count => exact congrArg (Except.ok ∘ Reply.filled) (sound.read count).data
      | take count => exact congrArg (Except.ok ∘ Reply.taken) (sound.take count).data
      | stats =>
          show Except.ok (Reply.stats ⟨buffer.cursor, buffer.store.held, buffer.store.count,
            buffer.readable⟩) = _
          rw [sound.held_eq, sound.count_eq, sound.readable_eq]
          rfl
  | ingestSigned offset data =>
      show if offset < 0 then _ else _
      by_cases negative : offset < 0
      · rw [if_pos negative]
        show (buffer.ingestSigned offset data).result.map _ = _
        rw [ingestSigned_of_neg negative]
        rfl
      · rw [if_neg negative]
        rintro rfl
        show (buffer.ingestSigned offset []).result.map _ = _
        rw [ingestSigned_of_nonneg negative]
        rfl
  | drain count => exact ⟨_, rfl, (sound.drain count).data⟩
  | limits => rfl
  | covers offset => exact ⟨_, rfl, mem_covered⟩

/-- **After every run of calls a fresh buffer shows the tape that followed the run, and
answers the next call as the tape expects.** -/
theorem run_refines_tape (limits : Limits) (calls : List Call) (call : Call) :
    let done := (fresh limits).run calls
    let tape := Tape.after {} calls done.result
    done.state.Shows tape ∧ tape.Expects limits call (done.state.perform call).result := by
  intro done tape
  have follows := follows_fresh limits calls
  have shown := follows.sound.shows
  have expected := follows.sound.expects call
  rw [follows.tape] at shown expected
  rw [follows.limits] at expected
  exact ⟨shown, expected⟩

end Buffer

end Gapless
