/-
# Gapless.Proofs.Sound -- what holds of a buffer in use

A buffer in use has gaps between its segments and right counters, none of its segments
is empty, ends beyond the last offset or starts below the cursor, and it keeps to its
limits (`Buffer.Sound`).  A fresh buffer is sound, and taking in a chunk keeps it so;
`Gapless.Proofs.Reading` says the same of reads.

A sound buffer is a tape (`Buffer.tape`) with counters.  A chunk can fare in five ways,
which `Buffer.Ingested` lists: the ones that are accepted write it on the tape, and the
ones that are refused leave the buffer as it was.
-/
import Gapless.Buffer.Ingest
import Gapless.Proofs.Merging
import Gapless.Proofs.Tape
import Gapless.Proofs.Trimming

namespace Gapless

set_option autoImplicit false

/-! ## Stores -/

namespace Store

structure Sound (store : Store) : Prop where
  separated : Separated store.segments
  counted : store.Counted
  bounded : ∀ segment ∈ store.segments, segment.stop ≤ maxOffset

theorem sound_empty : Sound empty where
  separated := List.Pairwise.nil
  counted := ⟨rfl, rfl⟩
  bounded _ member := by cases member

variable {store : Store}

theorem Sound.insert (sound : store.Sound) {incoming : Segment}
    (bounded : incoming.stop ≤ maxOffset) : (store.insert incoming).state.Sound where
  separated := separated_insert sound.separated incoming
  counted := counted_insert sound.separated incoming sound.counted
  bounded segment member := by
    have spans := planMerge_spans sound.separated incoming
    rcases (mem_insert sound.separated incoming).1 member with rfl | ⟨member, -⟩
    · rw [Merge.stop_segment spans]
      rcases spans.stop_eq with same | ⟨last, absorbed, same⟩
      · omega
      · have := sound.bounded last ((mem_absorbed sound.separated incoming).1 absorbed).1
        omega
    · exact sound.bounded segment member

theorem Sound.trimBelow (sound : store.Sound) (offset : Nat) : (store.trimBelow offset).Sound where
  separated := separated_trimBelow sound.separated offset
  counted := counted_trimBelow sound.separated offset sound.counted
  bounded left member := by
    obtain ⟨segment, member, kept⟩ := (mem_trimBelow sound.separated offset).1 member
    have := trimSegment_spec kept
    have := sound.bounded segment member
    omega

section Full

variable (separated : Separated store.segments)
  (full : ∀ segment ∈ store.segments, segment.start < segment.stop)

include separated full

/-- An insertion that brings a byte makes no empty segment. -/
theorem full_insert {incoming : Segment} (nonempty : incoming.start < incoming.stop) :
    ∀ segment ∈ (store.insert incoming).state.segments, segment.start < segment.stop := by
  intro segment member
  have spans := planMerge_spans separated incoming
  rcases (mem_insert separated incoming).1 member with rfl | ⟨member, -⟩
  · have := spans.start_le
    have := spans.le_stop
    rw [Merge.start_segment, Merge.stop_segment spans]
    omega
  · exact full segment member

/-- What trimming leaves of a segment with a byte has one. -/
theorem full_trimBelow (offset : Nat) :
    ∀ segment ∈ (store.trimBelow offset).segments, segment.start < segment.stop := by
  intro left member
  obtain ⟨segment, member, kept⟩ := (mem_trimBelow separated offset).1 member
  exact (trimSegment_spec kept).2.2.2 (full segment member)

end Full

/-- Nothing that is left begins below the offset of a trim. -/
theorem le_start_trimBelow (separated : Separated store.segments) (offset : Nat) :
    ∀ segment ∈ (store.trimBelow offset).segments, offset ≤ segment.start := by
  intro left member
  obtain ⟨segment, -, kept⟩ := (mem_trimBelow separated offset).1 member
  exact (trimSegment_spec kept).2.2.1

end Store

namespace Buffer

/-- What is known of a buffer in use. -/
structure Sound (buffer : Buffer) : Prop where
  store : buffer.store.Sound
  full : ∀ segment ∈ buffer.store.segments, segment.start < segment.stop
  ahead : ∀ segment ∈ buffer.store.segments, buffer.cursor ≤ segment.start
  cursor_le : buffer.cursor ≤ maxOffset
  heldWithin : Limits.Within buffer.store.held buffer.limits.bytes
  countWithin : Limits.Within buffer.store.count buffer.limits.segments

theorem sound_fresh (limits : Limits) : (fresh limits).Sound where
  store := Store.sound_empty
  full _ member := by cases member
  ahead _ member := by cases member
  cursor_le := Nat.zero_le _
  heldWithin _ _ := Nat.zero_le _
  countWithin _ _ := Nat.zero_le _

/-! ## Buffers as tapes -/

/-- The cursor of a buffer and the bytes it holds. -/
def tape (buffer : Buffer) : Tape where
  cursor := buffer.cursor
  bytes := buffer.store.bytes

section Tapes

variable {buffer : Buffer} (sound : buffer.Sound)

include sound

theorem Sound.tape_ahead : buffer.tape.Ahead := by
  intro offset known
  obtain ⟨segment, member, reached, -⟩ := Store.mem_bytes.1 known
  exact Nat.le_trans (sound.ahead segment member) reached

theorem Sound.held_eq : buffer.store.held = buffer.tape.bytes.offsets.card :=
  sound.store.counted.2.trans (Store.card_offsetsOf sound.store.separated).symm

theorem Sound.count_eq : buffer.store.count = (runStarts buffer.tape.bytes.offsets).card :=
  sound.store.counted.1.trans (Store.card_runStarts sound.store.separated sound.full).symm

theorem Sound.segments_eq_nil_iff :
    buffer.store.segments = [] ↔ buffer.tape.bytes.offsets = ∅ := by
  constructor
  · intro nothing
    show Store.offsetsOf buffer.store.segments = ∅
    rw [nothing]
    rfl
  · intro nothing
    refine List.eq_nil_iff_forall_not_mem.2 fun segment member => ?_
    have known : segment.start ∈ buffer.store.bytes.offsets :=
      Store.mem_bytes.2 ⟨segment, member, Nat.le_refl _, sound.full segment member⟩
    have missing : segment.start ∉ buffer.tape.bytes.offsets := by
      rw [nothing]
      exact Finset.notMem_empty _
    exact missing known

/-- What is readable is the rest of the segment that covers the cursor. -/
theorem Sound.readable_eq : buffer.readable = buffer.tape.readable := by
  unfold readable
  rw [Store.runFrom_eq sound.store.separated]
  cases found : buffer.store.covering? buffer.cursor with
  | none =>
      have gap := (Store.covering?_eq_none_iff sound.store.separated).1 found
      exact (ByteMap.reach_eq_zero_iff.2 gap).symm
  | some segment =>
      obtain ⟨member, reached, short⟩ :=
        (Store.covering?_eq_some_iff sound.store.separated).1 found
      have run := Store.isRun_of_mem sound.store.separated member (sound.full segment member)
      refine Eq.trans ?_ (run.reach reached short).symm
      show segment.stop - max buffer.cursor segment.start + 0 = segment.stop - buffer.cursor
      omega

end Tapes

/-! ## Ingesting -/

/-- The part of a chunk that lies at or above the cursor. -/
def arriving (buffer : Buffer) (offset : Nat) (data : Bytes) : Segment where
  start := max offset buffer.cursor
  data := data.drop (buffer.cursor - offset)

/-- Merging a chunk into the store. -/
def inserting (buffer : Buffer) (offset : Nat) (data : Bytes) : Step Store MergeOutcome :=
  buffer.store.insert (buffer.arriving offset data)

/-- The store after a chunk was merged into it. -/
def merged (buffer : Buffer) (offset : Nat) (data : Bytes) : Store :=
  (buffer.inserting offset data).state

/-- The ways in which a chunk can fare. -/
inductive Ingested (buffer : Buffer) (offset : Nat) (data : Bytes) :
    Step Buffer (Except Refusal Unit) → Prop
  | empty (nothing : data = []) : Ingested buffer offset data ⟨buffer, .ok (), []⟩
  | overflow (nonempty : data ≠ []) (beyond : maxOffset < offset + data.length) :
      Ingested buffer offset data
        ⟨buffer, .error (.invalidArgument (.rangeOverflow offset data.length)),
          [.refused .invalidArgument]⟩
  | late (nonempty : data ≠ []) (fits : offset + data.length ≤ maxOffset)
      (passed : offset + data.length ≤ buffer.cursor) :
      Ingested buffer offset data
        ⟨buffer, .ok (), [.redundant offset data.length, .accepted data.length data.length 0]⟩
  | refused (nonempty : data ≠ []) (fits : offset + data.length ≤ maxOffset)
      (news : buffer.cursor < offset + data.length) (refusal : Refusal)
      (check : buffer.limits.check (buffer.merged offset data).held
        (buffer.merged offset data).count = .error refusal) :
      Ingested buffer offset data ⟨buffer, .error refusal, [.refused refusal.reason]⟩
  | stored (nonempty : data ≠ []) (fits : offset + data.length ≤ maxOffset)
      (news : buffer.cursor < offset + data.length)
      (check : buffer.limits.check (buffer.merged offset data).held
        (buffer.merged offset data).count = .ok ()) :
      Ingested buffer offset data
        ⟨{ buffer with store := buffer.merged offset data }, .ok (),
          (buffer.inserting offset data).events ++
            placementEvents offset data.length
              (.ok { (buffer.inserting offset data).result with
                overlap :=
                  (buffer.inserting offset data).result.overlap + (buffer.cursor - offset) })⟩

theorem stop_arriving {buffer : Buffer} {offset : Nat} {data : Bytes}
    (news : buffer.cursor < offset + data.length) :
    (buffer.arriving offset data).stop = offset + data.length := by
  show max offset buffer.cursor + (data.drop (buffer.cursor - offset)).length = _
  rw [List.length_drop]
  omega

/-- Clipping a chunk at the cursor leaves the part that arrives. -/
theorem clipBelow_arriving {buffer : Buffer} {offset : Nat} {data : Bytes}
    (news : buffer.cursor < offset + data.length) :
    ({ start := offset, data } : Segment).clipBelow buffer.cursor =
      some (buffer.arriving offset data) := by
  unfold Segment.clipBelow
  rw [dif_neg (by dsimp only; omega)]
  split
  · next above =>
      have above : buffer.cursor ≤ offset := above
      refine congrArg some (Segment.eq_of_data ?_ ?_)
      · show offset = max offset buffer.cursor
        omega
      · show data = data.drop (buffer.cursor - offset)
        rw [Nat.sub_eq_zero_of_le above, List.drop_zero]
  · next below =>
      have below : ¬buffer.cursor ≤ offset := below
      refine congrArg some (Segment.eq_of_data ?_ rfl)
      show buffer.cursor = max offset buffer.cursor
      omega

/-- The limits are asked about the counters that the store would have. -/
theorem accept_eq {buffer : Buffer} (separated : Store.Separated buffer.store.segments)
    (incoming : Segment) :
    buffer.accept incoming =
      match buffer.limits.check (buffer.store.insert incoming).state.held
          (buffer.store.insert incoming).state.count with
      | .error refusal => ⟨buffer, .error refusal, []⟩
      | .ok () => ((buffer.store.insert incoming).map .ok).lift ({ buffer with store := · }) := by
  have held : (buffer.store.insert incoming).state.held =
      buffer.store.held - (buffer.store.planMerge incoming).absorbedBytes +
        (buffer.store.planMerge incoming).length := by
    rw [← Merge.length_segment (Store.planMerge_spans separated incoming)]
    rfl
  rw [held]
  rfl

section Place

variable {buffer : Buffer} {offset : Nat} {data : Bytes}

theorem place_overflow (beyond : maxOffset < offset + data.length) :
    buffer.place (.ofData offset data) =
      ⟨buffer, .error (.invalidArgument (.rangeOverflow offset data.length)), []⟩ := by
  have nowhere : Offset.advance? (Chunk.ofData offset data).offset
      (Chunk.ofData offset data).length = none := if_neg (Nat.not_le.2 beyond)
  unfold place
  rw [nowhere]
  rfl

theorem at?_ofData (fits : offset + data.length ≤ maxOffset) :
    Segment.at? (Chunk.ofData offset data).offset (Chunk.ofData offset data).data =
      .ok { start := offset, data } := by
  rw [Chunk.data_ofData]
  exact Segment.at?_eq_ok_iff.2 ⟨rfl, fits⟩

theorem place_late (fits : offset + data.length ≤ maxOffset)
    (passed : offset + data.length ≤ buffer.cursor) :
    buffer.place (.ofData offset data) =
      ⟨buffer, .ok { absorbed := 0, overlap := data.length, added := 0 }, []⟩ := by
  have gone : ({ start := offset, data } : Segment).clipBelow buffer.cursor = none :=
    dif_pos passed
  rw [place_eq, at?_ofData fits]
  dsimp only
  rw [gone, Segment.length_eq]

theorem place_news (fits : offset + data.length ≤ maxOffset)
    (news : buffer.cursor < offset + data.length) :
    buffer.place (.ofData offset data) =
      (buffer.accept (buffer.arriving offset data)).map fun result =>
        result.map fun outcome =>
          { outcome with overlap := outcome.overlap + (buffer.cursor - offset) } := by
  have clipped : ({ start := offset, data } : Segment).length -
      (buffer.arriving offset data).length = buffer.cursor - offset := by
    rw [Segment.length_eq, Segment.length, stop_arriving news]
    show data.length - (offset + data.length - max offset buffer.cursor) = _
    omega
  rw [place_eq, at?_ofData fits]
  dsimp only
  rw [clipBelow_arriving news]
  dsimp only
  rw [clipped]

end Place

/-- **How a chunk fares.** -/
theorem ingest_cases {buffer : Buffer} (separated : Store.Separated buffer.store.segments)
    (offset : Nat) (data : Bytes) :
    Ingested buffer offset data (buffer.ingest offset data) := by
  unfold ingest ingestChunk
  rw [show (Chunk.ofData offset data).length = data.length from rfl]
  split
  · next nothing => exact .empty (List.length_eq_zero_iff.1 nothing)
  · next length =>
      have nonempty : data ≠ [] := fun nothing => length (by rw [nothing]; rfl)
      rcases Nat.lt_or_ge maxOffset (offset + data.length) with beyond | fits
      · rw [place_overflow beyond]
        exact .overflow nonempty beyond
      · rcases Nat.lt_or_ge buffer.cursor (offset + data.length) with news | passed
        · rw [place_news fits news, accept_eq separated]
          cases check : buffer.limits.check (buffer.merged offset data).held
              (buffer.merged offset data).count with
          | error refusal =>
              unfold merged inserting at check
              rw [check]
              exact .refused nonempty fits news refusal check
          | ok _ =>
              unfold merged inserting at check
              rw [check]
              exact .stored nonempty fits news check
        · rw [place_late fits passed]
          exact .late nonempty fits passed

section Ingest

variable {buffer : Buffer} (sound : buffer.Sound) {offset : Nat} {data : Bytes}

include sound

/-- Merging a chunk writes it on the tape. -/
theorem Sound.bytes_merged :
    (buffer.merged offset data).bytes = (buffer.tape.write offset data).bytes := by
  rw [merged, inserting, Store.bytes_insert sound.store.separated, Tape.bytes_write]
  rfl

/-- The store after a merge, whether or not the limits allow it. -/
theorem Sound.store_merged (fits : offset + data.length ≤ maxOffset)
    (news : buffer.cursor < offset + data.length) : (buffer.merged offset data).Sound := by
  refine sound.store.insert ?_
  rw [stop_arriving news]
  exact fits

theorem Sound.full_merged (nonempty : data ≠ []) (news : buffer.cursor < offset + data.length)
    {segment : Segment} (member : segment ∈ (buffer.merged offset data).segments) :
    segment.start < segment.stop := by
  have length := List.length_pos_iff.2 nonempty
  have stop := stop_arriving news
  have start : (buffer.arriving offset data).start = max offset buffer.cursor := rfl
  have brings : (buffer.arriving offset data).start < (buffer.arriving offset data).stop := by
    omega
  exact Store.full_insert sound.store.separated sound.full brings segment member

theorem Sound.ahead_merged {segment : Segment}
    (member : segment ∈ (buffer.merged offset data).segments) :
    buffer.cursor ≤ segment.start := by
  have spans := Store.planMerge_spans sound.store.separated (buffer.arriving offset data)
  have start : (buffer.arriving offset data).start = max offset buffer.cursor := rfl
  rcases (Store.mem_insert sound.store.separated _).1 member with rfl | ⟨member, -⟩
  · rw [Merge.start_segment]
    rcases spans.start_eq with same | ⟨first, absorbed, same⟩
    · omega
    · rw [← same]
      exact sound.ahead first ((Store.mem_absorbed sound.store.separated _).1 absorbed).1
  · exact sound.ahead segment member

/-- The counters that the limits are asked about are those of the written tape. -/
theorem Sound.held_merged (fits : offset + data.length ≤ maxOffset)
    (news : buffer.cursor < offset + data.length) :
    (buffer.merged offset data).held = (buffer.tape.write offset data).bytes.offsets.card := by
  have merged := sound.store_merged fits news
  rw [← sound.bytes_merged]
  exact merged.counted.2.trans (Store.card_offsetsOf merged.separated).symm

theorem Sound.count_merged (nonempty : data ≠ []) (fits : offset + data.length ≤ maxOffset)
    (news : buffer.cursor < offset + data.length) :
    (buffer.merged offset data).count =
      (runStarts (buffer.tape.write offset data).bytes.offsets).card := by
  have merged := sound.store_merged fits news
  have full : ∀ segment ∈ (buffer.merged offset data).segments, segment.start < segment.stop :=
    fun segment member => sound.full_merged nonempty news member
  rw [← sound.bytes_merged]
  exact merged.counted.1.trans (Store.card_runStarts merged.separated full).symm

theorem Sound.ingest (offset : Nat) (data : Bytes) : (buffer.ingest offset data).state.Sound := by
  have fared := ingest_cases sound.store.separated offset data
  generalize buffer.ingest offset data = step at fared
  cases fared with
  | stored nonempty fits news check =>
      obtain ⟨heldWithin, countWithin⟩ := Limits.check_eq_ok_iff.1 check
      exact
        { store := sound.store_merged fits news
          full := fun segment member => sound.full_merged nonempty news member
          ahead := fun segment member => sound.ahead_merged member
          cursor_le := sound.cursor_le
          heldWithin := heldWithin
          countWithin := countWithin }
  | _ => exact sound

theorem Sound.limits_ingest (offset : Nat) (data : Bytes) :
    (buffer.ingest offset data).state.limits = buffer.limits := by
  have fared := ingest_cases sound.store.separated offset data
  generalize buffer.ingest offset data = step at fared
  cases fared <;> rfl

/-- An accepted chunk is written on the tape. -/
theorem Sound.tape_ingest (accepted : (buffer.ingest offset data).result = .ok ()) :
    (buffer.ingest offset data).state.tape = buffer.tape.write offset data := by
  have fared := ingest_cases sound.store.separated offset data
  generalize buffer.ingest offset data = step at fared accepted
  cases fared with
  | empty nothing => rw [nothing, Tape.write_nil]
  | overflow => cases accepted
  | late nonempty fits passed => exact (Tape.write_late passed).symm
  | refused => cases accepted
  | stored nonempty fits news check =>
      show Tape.mk buffer.cursor (buffer.merged offset data).bytes = _
      rw [sound.bytes_merged]
      rfl

/-- A refused chunk leaves the buffer as it was. -/
theorem Sound.state_of_refused {refusal : Refusal}
    (refused : (buffer.ingest offset data).result = .error refusal) :
    (buffer.ingest offset data).state = buffer := by
  have fared := ingest_cases sound.store.separated offset data
  generalize buffer.ingest offset data = step at fared refused
  cases fared with
  | stored => cases refused
  | _ => rfl

end Ingest

/-- A chunk is placed as its bytes are. -/
theorem place_ofData (buffer : Buffer) (chunk : Chunk) :
    buffer.place (.ofData chunk.offset chunk.data) = buffer.place chunk := by
  rw [place_eq, place_eq, Chunk.data_ofData]
  rfl

/-- A chunk fares as its bytes do. -/
theorem ingestChunk_eq (buffer : Buffer) (chunk : Chunk) :
    buffer.ingestChunk chunk = buffer.ingest chunk.offset chunk.data := by
  have length : (Chunk.ofData chunk.offset chunk.data).length = chunk.length := chunk.length_data
  unfold ingest ingestChunk
  rw [length, place_ofData]
  rfl

end Buffer

end Gapless
