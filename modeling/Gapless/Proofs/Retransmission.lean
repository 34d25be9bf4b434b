/-
# Gapless.Proofs.Retransmission -- chunks that bring nothing new

A chunk brings nothing new when the cursor has passed each of its offsets or a byte is held
there already (`Buffer.Known`).  Written on the tape it changes bytes, but not at which offsets
there are any.  Everything that is counted is counted by offsets, and so are the bounds of the
segments (`Sound.bounds_eq`): they are the longest stretches without a gap.

So nothing that a limit is asked about changes.  A buffer keeps to its limits, hence it has
room for such a chunk even when it has reached both of them.
-/
import Gapless.Proofs.Admission

namespace Gapless

set_option autoImplicit false

/-! ## Bounds -/

namespace Store

/-- Where the segments of a store begin and end. -/
def bounds (store : Store) : List (Nat × Nat) :=
  store.segments.map fun segment => (segment.start, segment.stop)

section Bounds

variable {store : Store} (separated : Separated store.segments)
  (full : ∀ segment ∈ store.segments, segment.start < segment.stop)

include separated

theorem sorted_bounds : store.bounds.Pairwise fun one next => one.1 < next.1 :=
  List.pairwise_map.2 separated.sorted

include full

theorem isStretch_of_mem {segment : Segment} (member : segment ∈ store.segments) :
    IsStretch store.bytes.offsets (segment.start, segment.stop) :=
  (isRun_of_mem separated member (full segment member)).isStretch

/-- The bounds of the segments are those of the stretches of offsets held. -/
theorem mem_bounds_iff {bounds : Nat × Nat} :
    bounds ∈ store.bounds ↔ IsStretch store.bytes.offsets bounds := by
  simp only [Store.bounds, List.mem_map]
  constructor
  · rintro ⟨segment, member, rfl⟩
    exact isStretch_of_mem separated full member
  · intro stretch
    have first := stretch.whole _ (Nat.le_refl _) stretch.nonempty
    obtain ⟨segment, member, reached, short⟩ := mem_bytes.1 first
    refine ⟨segment, member, ?_⟩
    have stretchToo := isStretch_of_mem separated full member
    exact stretchToo.eq_of_shared stretch ⟨reached, short⟩ ⟨Nat.le_refl _, stretch.nonempty⟩

end Bounds

end Store

namespace Buffer

/-! ## The same offsets -/

section Alike

variable {one other : Buffer} (sound : one.Sound) (soundToo : other.Sound)
  (same : one.tape.bytes.offsets = other.tape.bytes.offsets)

include sound soundToo same

/-- Buffers that hold bytes at the same offsets have segments with the same bounds. -/
theorem Sound.bounds_eq : one.store.bounds = other.store.bounds := by
  have : Std.Antisymm fun left right : Nat × Nat => left.1 < right.1 :=
    ⟨fun left right ahead behind => absurd ahead (Nat.lt_asymm behind)⟩
  have : Std.Irrefl fun left right : Nat × Nat => left.1 < right.1 :=
    ⟨fun bounds ahead => Nat.lt_irrefl _ ahead⟩
  apply List.Pairwise.eq_of_mem_iff (Store.sorted_bounds sound.store.separated)
    (Store.sorted_bounds soundToo.store.separated)
  intro bounds
  rw [Store.mem_bounds_iff sound.store.separated sound.full,
    Store.mem_bounds_iff soundToo.store.separated soundToo.full]
  exact iff_of_eq (congrArg (IsStretch · bounds) same)

/-- They are counted alike. -/
theorem Sound.stats_eq (cursor : one.cursor = other.cursor) : one.stats = other.stats := by
  have readable : one.tape.readable = other.tape.readable := by
    apply ByteMap.reach_eq_iff.2
    obtain ⟨gap, known⟩ := ByteMap.reach_eq_iff.1 (rfl : other.tape.readable = other.tape.readable)
    have cursor : one.tape.cursor = other.tape.cursor := cursor
    rw [same, cursor]
    exact ⟨gap, known⟩
  simp only [stats, sound.held_eq, soundToo.held_eq, sound.count_eq, soundToo.count_eq,
    sound.readable_eq, soundToo.readable_eq, cursor, same, readable]

end Alike

/-! ## Known chunks -/

/-- A chunk brings no byte for an offset that is neither passed nor held. -/
def Known (buffer : Buffer) (chunk : Chunk) : Prop :=
  ∀ offset ∈ Finset.Ico chunk.offset chunk.stop,
    offset < buffer.cursor ∨ offset ∈ Store.offsetsOf buffer.store.segments

instance (buffer : Buffer) : DecidablePred buffer.Known := fun chunk =>
  inferInstanceAs (Decidable (∀ _ ∈ Finset.Ico chunk.offset chunk.stop, _))

section Known

variable {buffer : Buffer} (sound : buffer.Sound) {chunk : Chunk} (known : buffer.Known chunk)

include known

theorem Known.offsets_write :
    (buffer.tape.write chunk.offset chunk.data).bytes.offsets = buffer.tape.bytes.offsets := by
  ext offset
  rw [Tape.mem_write, chunk.length_data]
  apply or_iff_left_of_imp
  rintro ⟨⟨reached, short⟩, ahead⟩
  rcases known offset (Finset.mem_Ico.2 ⟨reached, short⟩) with passed | held
  · exact absurd ahead (Nat.not_le.2 passed)
  · exact held

include sound

/-- The offsets of a known chunk are offsets. -/
theorem Sound.fits_of_known (nonempty : chunk.data ≠ []) :
    chunk.offset + chunk.data.length ≤ maxOffset := by
  have length := List.length_pos_iff.2 nonempty
  have last : chunk.offset + (chunk.data.length - 1) ∈ Finset.Ico chunk.offset chunk.stop := by
    rw [Finset.mem_Ico, Chunk.stop, ← chunk.length_data]
    omega
  rcases known _ last with passed | held
  · have := sound.cursor_le
    omega
  · obtain ⟨segment, member, -, short⟩ := Store.mem_offsetsOf.1 held
    have := sound.store.bounded segment member
    omega

/-- **A chunk that brings nothing new is never refused.** -/
theorem Sound.accepts_known : (buffer.ingest chunk.offset chunk.data).result = .ok () := by
  by_cases nothing : chunk.data = []
  · rw [nothing]
    rfl
  · have fits := sound.fits_of_known known nothing
    rw [sound.result_ingest chunk.offset nothing, if_neg (Nat.not_lt.2 fits), known.offsets_write,
      ← sound.held_eq, ← sound.count_eq]
    exact Limits.check_eq_ok_iff.2 ⟨sound.heldWithin, sound.countWithin⟩

end Known

/-- **Limits are kept, and a chunk that brings nothing new is accepted**, however little room
there is: it only replaces bytes that were held. -/
theorem run_retransmission (limits : Limits) (calls : List Call) :
    let buffer := ((fresh limits).run calls).state
    Limits.Within buffer.store.held limits.bytes ∧
      Limits.Within buffer.store.count limits.segments ∧
      ∀ chunk : Chunk, buffer.Known chunk →
        let step := buffer.ingestChunk chunk
        buffer.ingest chunk.offset chunk.data = step ∧ step.result = .ok () ∧
          step.state.stats = buffer.stats ∧ step.state.store.bounds = buffer.store.bounds ∧
          ∀ offset, step.state.store.byteAt? offset =
            if buffer.cursor ≤ offset ∧ chunk.offset ≤ offset ∧ offset < chunk.stop then
              chunk.data[offset - chunk.offset]?
            else buffer.store.byteAt? offset := by
  intro buffer
  have follows := follows_fresh limits calls
  have sound : buffer.Sound := follows.sound
  have limited : buffer.limits = limits := follows.limits
  refine ⟨limited ▸ sound.heldWithin, limited ▸ sound.countWithin, ?_⟩
  intro chunk known step
  have ingested : buffer.ingest chunk.offset chunk.data = step := (ingestChunk_eq _ _).symm
  have accepted := sound.accepts_known known
  have soundToo := sound.ingest chunk.offset chunk.data
  have tape := sound.tape_ingest accepted
  have cursor := congrArg Tape.cursor tape
  have offsets := (congrArg (·.bytes.offsets) tape).trans known.offsets_write
  have bytes := congrArg (·.bytes.byteAt?) tape
  rw [ingested] at accepted soundToo cursor offsets bytes
  refine ⟨ingested, accepted, soundToo.stats_eq sound offsets cursor,
    soundToo.bounds_eq sound offsets, ?_⟩
  intro offset
  refine (congrFun bytes offset).trans ?_
  show (if _ ∧ _ ∧ offset < chunk.offset + chunk.data.length then _ else _) = _
  rw [chunk.length_data]
  rfl

/-- Both limits are reached, and a chunk is sent again that lies on both sides of the cursor
and ends where a segment does. -/
theorem run_retransmission_full :
    let limits : Limits := { bytes := some 5, segments := some 2 }
    let calls : List Call :=
      [.request (.ingest 0 [1, 2, 3]), .request (.read 1), .request (.ingest 5 [6, 7, 8])]
    let buffer := ((fresh limits).run calls).state
    let chunk : Chunk := .ofData 0 [11, 12, 13]
    buffer.stats = ⟨1, 5, 2, 2⟩ ∧ buffer.Known chunk ∧
      (buffer.ingestChunk chunk).result = .ok () ∧
      (buffer.ingestChunk chunk).state.stats = ⟨1, 5, 2, 2⟩ ∧
      (buffer.ingestChunk chunk).state.store.bounds = [(1, 3), (5, 8)] ∧
      (buffer.ingestChunk chunk).state.store.byteAt? 2 = some 13 := by
  intro limits calls buffer chunk
  have stats : buffer.stats = ⟨1, 5, 2, 2⟩ := by decide
  have bounds : buffer.store.bounds = [(1, 3), (5, 8)] := by decide
  have known : buffer.Known chunk := by decide
  have inside : buffer.cursor ≤ 2 ∧ chunk.offset ≤ 2 ∧ 2 < chunk.stop := by decide
  obtain ⟨-, -, accepts⟩ := run_retransmission limits calls
  obtain ⟨-, accepted, same, alike, bytes⟩ := accepts chunk known
  have replaced := bytes 2
  rw [if_pos inside] at replaced
  refine ⟨stats, known, accepted, ?_, ?_, ?_⟩
  · rw [same, stats]
  · rw [alike, bounds]
  · rw [replaced]
    rfl

end Buffer

end Gapless
