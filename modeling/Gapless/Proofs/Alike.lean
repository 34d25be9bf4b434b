/-
# Gapless.Proofs.Alike -- what the shape of a shelf does not show

Which tree a shelf is depends on the order in which its segments came.  Nothing that a buffer
says or does depends on it: buffers in use that have one tape and keep the same limits
(`Buffer.Twins`) have the same segments and counters (`Twins.alike`).  They answer each call
alike (`Twins.answers`) and stay twins through it (`Twins.perform`).
-/
import Gapless.Proofs.Admission

namespace Gapless

set_option autoImplicit false

namespace Buffer

/-- Buffers of which the same can be seen.  Their shelves may differ in shape. -/
structure Alike (one other : Buffer) : Prop where
  cursor : one.cursor = other.cursor
  segments : one.store.segments = other.store.segments
  stats : one.stats = other.stats
  limits : one.limits = other.limits

theorem Sound.alike {one other : Buffer} (sound : one.Sound) (otherSound : other.Sound)
    (tape : one.tape = other.tape) (limits : one.limits = other.limits) : one.Alike other where
  cursor := congrArg Tape.cursor tape
  segments :=
    Store.segments_eq_of_bytes sound.store.separated sound.full otherSound.store.separated
      otherSound.full (congrArg Tape.bytes tape)
  stats := by
    have cursor : one.cursor = other.cursor := congrArg Tape.cursor tape
    unfold stats
    rw [sound.held_eq, otherSound.held_eq, sound.count_eq, otherSound.count_eq, sound.readable_eq,
      otherSound.readable_eq, cursor, tape]
  limits := limits

/-- Buffers in use that have one tape and keep the same limits. -/
structure Twins (one other : Buffer) : Prop where
  sound : one.Sound
  soundToo : other.Sound
  tape : one.tape = other.tape
  limits : one.limits = other.limits

namespace Twins

theorem refl {buffer : Buffer} (sound : buffer.Sound) : Twins buffer buffer where
  sound := sound
  soundToo := sound
  tape := rfl
  limits := rfl

theorem trans {one other another : Buffer} (twins : Twins one other)
    (further : Twins other another) : Twins one another where
  sound := twins.sound
  soundToo := further.soundToo
  tape := twins.tape.trans further.tape
  limits := twins.limits.trans further.limits

variable {one other : Buffer} (twins : Twins one other)

include twins

theorem alike : one.Alike other :=
  twins.sound.alike twins.soundToo twins.tape twins.limits

/-! ## Answers -/

theorem result_ingest (offset : Nat) (data : Bytes) :
    (one.ingest offset data).result = (other.ingest offset data).result := by
  by_cases nothing : data = []
  · rw [nothing]
    rfl
  · rw [twins.sound.result_ingest offset nothing, twins.soundToo.result_ingest offset nothing,
      twins.tape, twins.limits]

theorem result_ingestSigned (offset : Int) (data : Bytes) :
    (one.ingestSigned offset data).result = (other.ingestSigned offset data).result := by
  by_cases negative : offset < 0
  · simp only [ingestSigned_of_neg negative]
  · simp only [ingestSigned_of_nonneg negative]
    exact twins.result_ingest offset.toNat data

theorem result_read (count : Nat) : (one.read count).result = (other.read count).result := by
  rw [(twins.sound.read count).data, (twins.soundToo.read count).data, twins.tape]

theorem result_take (count : Nat) : (one.take count).result = (other.take count).result := by
  rw [(twins.sound.take count).data, (twins.soundToo.take count).data, twins.tape]

theorem read (count : Nat) : Twins (one.read count).state (other.read count).state where
  sound := (twins.sound.read count).sound
  soundToo := (twins.soundToo.read count).sound
  tape := by rw [(twins.sound.read count).tape, (twins.soundToo.read count).tape, twins.tape]
  limits := by
    rw [(twins.sound.read count).limits, (twins.soundToo.read count).limits, twins.limits]

theorem result_drainRounds (count rounds : Nat) :
    (drainRounds count rounds one).result = (drainRounds count rounds other).result := by
  induction rounds generalizing one other with
  | zero => rfl
  | succ rounds ih =>
      have same := twins.result_read count
      by_cases nothing : (one.read count).result = []
      · rw [drainRounds_of_nothing twins.sound nothing,
          drainRounds_of_nothing twins.soundToo (same ▸ nothing)]
      · rw [drainRounds_of_some nothing, drainRounds_of_some (same ▸ nothing)]
        simp only [Step.andThen, Step.map]
        rw [same, ih (twins.read count)]

/-- **Twins answer alike.** -/
theorem answers (call : Call) : (one.perform call).result = (other.perform call).result := by
  have alike := twins.alike
  cases call with
  | request request =>
      cases request with
      | ingest offset data =>
          exact congrArg (·.map fun _ => Reply.done) (twins.result_ingest offset data)
      | read count => exact congrArg (Except.ok ∘ Reply.filled) (twins.result_read count)
      | take count => exact congrArg (Except.ok ∘ Reply.taken) (twins.result_take count)
      | stats => exact congrArg (Except.ok ∘ Reply.stats) alike.stats
  | ingestSigned offset data =>
      exact congrArg (·.map fun _ => Reply.done) (twins.result_ingestSigned offset data)
  | drain count =>
      have readable : one.readable = other.readable := congrArg Stats.readable alike.stats
      have pieces : (one.drain count).result = (other.drain count).result := by
        rw [Buffer.drain, Buffer.drain, ← readable]
        exact twins.result_drainRounds count one.readable
      exact congrArg (Except.ok ∘ Reply.drained) pieces
  | limits => exact congrArg (Except.ok ∘ Reply.limits) alike.limits
  | covers offset =>
      show Except.ok (Reply.covered (one.store.segments.map (·.covers offset))) = _
      rw [alike.segments]
      rfl

/-- **Twins stay twins.** -/
theorem perform (call : Call) : Twins (one.perform call).state (other.perform call).state where
  sound := (twins.sound.perform call).sound
  soundToo := (twins.soundToo.perform call).sound
  tape := by
    rw [(twins.sound.perform call).tape, (twins.soundToo.perform call).tape, twins.tape,
      twins.answers call]
  limits := by
    rw [(twins.sound.perform call).limits, (twins.soundToo.perform call).limits, twins.limits]

end Twins

end Buffer

end Gapless
