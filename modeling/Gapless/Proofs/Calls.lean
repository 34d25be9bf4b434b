/-
# Gapless.Proofs.Calls -- what a run of calls does to a tape

A call changes a tape as its answer says (`Tape.follow`): a chunk that was accepted is
written, a read takes its bytes away, and nothing else changes anything.  A sound buffer
follows its tape through every call (`Sound.perform`), and so through every run of calls
(`Sound.run`); whatever is called, it stays sound and keeps its limits.
-/
import Gapless.Buffer.Request
import Gapless.Proofs.Reading

namespace Gapless

set_option autoImplicit false

namespace Tape

/-- The tape after a chunk was offered: it is written if it was accepted. -/
def offered {α : Type} (tape : Tape) (offset : Nat) (data : Bytes) : Except Refusal α → Tape
  | .ok _ => tape.write offset data
  | .error _ => tape

theorem offered_map {α β : Type} (tape : Tape) (offset : Nat) (data : Bytes) (f : α → β)
    (result : Except Refusal α) :
    tape.offered offset data (result.map f) = tape.offered offset data result := by
  cases result <;> rfl

/-- The tape after a call that was answered in this way. -/
def follow (tape : Tape) : Buffer.Call → Answer → Tape
  | .request (.ingest offset data), answer => tape.offered offset data answer
  | .request (.read count), _ => tape.read count
  | .request (.take count), _ => tape.read count
  | .request .stats, _ => tape
  | .ingestSigned offset data, answer => tape.offered offset.toNat data answer
  | .drain count, _ => tape.read (tape.readable * count)
  | .limits, _ => tape
  | .covers _, _ => tape

/-- The tape after a run of calls and their answers. -/
def after (tape : Tape) : List Buffer.Call → List Answer → Tape
  | call :: calls, answer :: answers => (tape.follow call answer).after calls answers
  | _, _ => tape

end Tape

namespace Buffer

/-- The outcome of a call: the buffer is in use as before, and its tape has followed. -/
structure Follows (buffer : Buffer) (tape : Tape) (after : Buffer) : Prop where
  sound : after.Sound
  limits : after.limits = buffer.limits
  tape : after.tape = tape

section Calls

variable {buffer : Buffer}

theorem Sound.unchanged (sound : buffer.Sound) : Follows buffer buffer.tape buffer where
  sound := sound
  limits := rfl
  tape := rfl

theorem HandsOut.follows {count : Nat} {after : Buffer} {data : Bytes}
    (handsOut : HandsOut buffer count after data) :
    Follows buffer (buffer.tape.read count) after where
  sound := handsOut.sound
  limits := handsOut.limits
  tape := handsOut.tape

theorem ingestSigned_of_neg {offset : Int} (negative : offset < 0) (data : Bytes) :
    buffer.ingestSigned offset data =
      ⟨buffer, .error (.invalidArgument (.negativeOffset offset)), []⟩ := by
  unfold ingestSigned Offset.ofInt?
  rw [if_pos negative]

theorem ingestSigned_of_nonneg {offset : Int} (nonneg : ¬offset < 0) (data : Bytes) :
    buffer.ingestSigned offset data = buffer.ingest offset.toNat data := by
  unfold ingestSigned Offset.ofInt?
  rw [if_neg nonneg]

theorem Sound.follows_ingest (sound : buffer.Sound) (offset : Nat) (data : Bytes) :
    Follows buffer (buffer.tape.offered offset data (buffer.ingest offset data).result)
      (buffer.ingest offset data).state where
  sound := sound.ingest offset data
  limits := sound.limits_ingest offset data
  tape := by
    cases accepted : (buffer.ingest offset data).result with
    | ok _ => exact sound.tape_ingest accepted
    | error refusal =>
        rw [sound.state_of_refused accepted]
        rfl

theorem Sound.follows_ingestSigned (sound : buffer.Sound) (offset : Int) (data : Bytes) :
    Follows buffer (buffer.tape.offered offset.toNat data (buffer.ingestSigned offset data).result)
      (buffer.ingestSigned offset data).state := by
  by_cases negative : offset < 0
  · rw [ingestSigned_of_neg negative]
    exact sound.unchanged
  · rw [ingestSigned_of_nonneg negative]
    exact sound.follows_ingest offset.toNat data

/-- **A buffer follows its tape through a call.** -/
theorem Sound.perform (sound : buffer.Sound) (call : Call) :
    Follows buffer (buffer.tape.follow call (buffer.perform call).result)
      (buffer.perform call).state := by
  cases call with
  | request request =>
      cases request with
      | ingest offset data =>
          have follows := sound.follows_ingest offset data
          rw [← Tape.offered_map _ _ _ fun _ => Reply.done] at follows
          exact follows
      | read count => exact (sound.read count).follows
      | take count => exact (sound.take count).follows
      | stats => exact sound.unchanged
  | ingestSigned offset data =>
      have follows := sound.follows_ingestSigned offset data
      rw [← Tape.offered_map _ _ _ fun _ => Reply.done] at follows
      exact follows
  | drain count => exact (sound.drain count).follows
  | limits => exact sound.unchanged
  | covers offset => exact sound.unchanged

/-! ## Runs -/

theorem run_cons (buffer : Buffer) (call : Call) (calls : List Call) :
    buffer.run (call :: calls) =
      (buffer.perform call).andThen fun after answer =>
        (after.run calls).map (answer :: ·) := rfl

theorem run_append (buffer : Buffer) (calls more : List Call) :
    buffer.run (calls ++ more) =
      (buffer.run calls).andThen fun after answers =>
        (after.run more).map (answers ++ ·) :=
  Step.each_append perform buffer calls more

/-- **A buffer follows its tape through a run of calls.** -/
theorem Sound.run (sound : buffer.Sound) (calls : List Call) :
    Follows buffer (buffer.tape.after calls (buffer.run calls).result)
      (buffer.run calls).state := by
  induction calls generalizing buffer with
  | nil => exact sound.unchanged
  | cons call calls ih =>
      have first := sound.perform call
      have rest := ih first.sound
      rw [run_cons]
      exact
        { sound := rest.sound
          limits := rest.limits.trans first.limits
          tape := by
            refine rest.tape.trans ?_
            rw [first.tape]
            rfl }

end Calls

theorem tape_fresh (limits : Limits) : (fresh limits).tape = {} := by
  have bytes : (Store.bytes {}) = ByteMap.empty :=
    ByteMap.eq_of_byteAt? fun _ => rfl
  show Tape.mk 0 (Store.bytes {}) = _
  rw [bytes]

/-- What is known of a fresh buffer after a run of calls. -/
theorem follows_fresh (limits : Limits) (calls : List Call) :
    Follows (fresh limits) (Tape.after {} calls ((fresh limits).run calls).result)
      ((fresh limits).run calls).state := by
  have follows := (sound_fresh limits).run calls
  rwa [tape_fresh] at follows

end Buffer

end Gapless
