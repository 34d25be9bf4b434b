/-
# Gapless.Proofs.Clipping -- late bytes may go before a merge or after it

A segment that reaches below an offset can be clipped there and be inserted into what a trim has
left (`Store.insertAbove`), or be inserted as it is and be trimmed with the rest.  On the second
way it may take in segments that are about to go, and on the first it never meets them.  Still the
same bytes are held on both ways, since what lies below the offset goes and what lies above it is
the same.  The bytes say what the segments are, and those what the numbers are
(`Store.Tidy.alike`).

So a buffer does with a chunk that lies below its cursor, or on both sides of it, what it does
with the rest that is not late.
-/
import Gapless.Buffer.Request
import Gapless.Proofs.Changes

namespace Gapless

set_option autoImplicit false

/-- A segment that is written hides what the map held in its range. -/
theorem ByteMap.byteAt?_write_segment (map : ByteMap) (segment : Segment) (offset : Nat) :
    (map.write segment.start segment.data).byteAt? offset =
      (segment.byteAt? offset).or (map.byteAt? offset) := by
  rw [byteAt?_write, ← segment.stop_eq]
  by_cases within : segment.start ≤ offset ∧ offset < segment.stop
  · have known : (segment.byteAt? offset).isSome := by
      rw [Segment.isSome_byteAt?, Segment.covers_iff]
      exact within
    rw [if_pos within, Option.or_of_isSome known, Segment.byteAt?, if_pos within.1]
  · rw [if_neg within, Segment.byteAt?_eq_none_iff.2 within, Option.none_or]

namespace Store

/-! ## Stores that look the same -/

/-- The same segments and the same numbers, on shelves of whatever shape. -/
structure Alike (one other : Store) : Prop where
  segments : one.segments = other.segments
  count : one.count = other.count
  held : one.held = other.held

/-- Segments that have gaps between them and at least one byte each, with right numbers. -/
structure Tidy (store : Store) : Prop where
  separated : Separated store.segments
  full : ∀ segment ∈ store.segments, segment.start < segment.stop
  counted : store.Counted

namespace Tidy

/-- **A store is known by its bytes.** -/
theorem alike {one other : Store} (tidy : one.Tidy) (tidyToo : other.Tidy)
    (bytes : one.bytes = other.bytes) : Alike one other := by
  have segments : one.segments = other.segments :=
    segments_eq_of_bytes tidy.separated tidy.full tidyToo.separated tidyToo.full bytes
  refine ⟨segments, ?_, ?_⟩
  · rw [tidy.counted.1, tidyToo.counted.1, segments]
  · rw [tidy.counted.2, tidyToo.counted.2, segments]

variable {store : Store} (tidy : store.Tidy) {incoming : Segment}

include tidy

theorem insert (nonempty : incoming.start < incoming.stop) :
    (store.insert incoming).state.Tidy where
  separated := separated_insert tidy.separated incoming
  full := full_insert tidy.separated tidy.full nonempty
  counted := counted_insert tidy.separated incoming tidy.counted

theorem trimBelow (floor : Nat) : (store.trimBelow floor).Tidy where
  separated := separated_trimBelow tidy.separated floor
  full := full_trimBelow tidy.separated tidy.full floor
  counted := counted_trimBelow tidy.separated floor tidy.counted

end Tidy

/-- A store that changes have led to is tidy when none of them brought an empty segment. -/
theorem tidy_after {changes : List Change} (brings : ∀ change ∈ changes, change.Full) :
    (empty.after changes).Tidy where
  separated := (sound_empty.after changes).separated
  full := full_after sound_empty (fun _ member => by cases member) brings
  counted := (sound_empty.after changes).counted

/-! ## Clipping first -/

/-- Insert what of a segment lies at or above an offset, if anything does. -/
def insertAbove (store : Store) (floor : Nat) (incoming : Segment) : Store :=
  match incoming.clipBelow floor with
  | none => store
  | some rest => (store.insert rest).state

/-- To trim a segment that has a byte is to clip it. -/
theorem trimSegment_of_full {segment : Segment} (nonempty : segment.start < segment.stop)
    (floor : Nat) : trimSegment floor segment = segment.clipBelow floor := by
  unfold trimSegment Segment.clipBelow
  split
  · rfl
  · rw [dif_neg (by omega), dif_pos (by omega)]

section Above

variable {store : Store} (tidy : store.Tidy) {incoming : Segment}

include tidy

theorem Tidy.insertAbove (nonempty : incoming.start < incoming.stop) (floor : Nat) :
    (store.insertAbove floor incoming).Tidy := by
  unfold Store.insertAbove
  cases clipped : incoming.clipBelow floor with
  | none => exact tidy
  | some rest =>
      rw [← trimSegment_of_full nonempty] at clipped
      exact tidy.insert ((trimSegment_spec clipped).2.2.2 nonempty)

/-- The bytes of the segment lie on top, as far as they lie above the offset. -/
theorem Tidy.byteAt?_insertAbove (floor offset : Nat) :
    (store.insertAbove floor incoming).bytes.byteAt? offset =
      (if floor ≤ offset then incoming.byteAt? offset else none).or
        (store.bytes.byteAt? offset) := by
  rw [← incoming.byteAt?_clipBelow floor offset]
  unfold Store.insertAbove
  cases incoming.clipBelow floor with
  | none => rfl
  | some rest => rw [bytes_insert tidy.separated, ByteMap.byteAt?_write_segment, Option.bind_some]

/-- **Trimming after a merge and clipping before it come to the same.** -/
theorem Tidy.trim_insert (nonempty : incoming.start < incoming.stop) (floor : Nat) :
    Alike ((store.insert incoming).state.trimBelow floor)
      ((store.trimBelow floor).insertAbove floor incoming) := by
  have inserted := tidy.insert nonempty
  have trimmed := tidy.trimBelow floor
  apply (inserted.trimBelow floor).alike (trimmed.insertAbove nonempty floor)
  refine ByteMap.eq_of_byteAt? fun offset => ?_
  rw [trimmed.byteAt?_insertAbove, bytes_trimBelow inserted.separated, ByteMap.byteAt?_above,
    bytes_insert tidy.separated, ByteMap.byteAt?_write_segment, bytes_trimBelow tidy.separated,
    ByteMap.byteAt?_above]
  by_cases kept : floor ≤ offset <;> simp [kept]

end Above

end Store

/-! ## Late chunks -/

namespace Buffer

section Late

variable (buffer : Buffer) (offset : Nat) {data : Bytes}

/-- A chunk that is not late altogether fares as the part of it that arrives. -/
theorem ingest_news (nonempty : data ≠ []) (fits : offset + data.length ≤ maxOffset)
    (news : buffer.cursor < offset + data.length) :
    let accepted := buffer.accept (buffer.arriving offset data)
    (buffer.ingest offset data).result = accepted.result.map (fun _ => ()) ∧
      (buffer.ingest offset data).state = accepted.state := by
  intro accepted
  have some : ¬(Chunk.ofData offset data).length = 0 :=
    fun nothing => nonempty (List.length_eq_zero_iff.1 nothing)
  have merged (result : Except Refusal MergeOutcome) (f : MergeOutcome → MergeOutcome) :
      (result.map f).map (fun _ => ()) = result.map (fun _ => ()) := by
    cases result <;> rfl
  unfold ingest ingestChunk
  rw [if_neg some, place_news fits news]
  exact ⟨merged _ _, rfl⟩

/-- A chunk that is late altogether changes nothing. -/
theorem ingest_late (fits : offset + data.length ≤ maxOffset)
    (late : data.length ≤ buffer.cursor - offset) :
    (buffer.ingest offset data).result = .ok () ∧ (buffer.ingest offset data).state = buffer := by
  unfold ingest ingestChunk
  split
  · exact ⟨rfl, rfl⟩
  · next some =>
      have some : ¬data.length = 0 := some
      rw [place_late fits (by omega)]
      exact ⟨rfl, rfl⟩

/-- Nothing more is cut off the part of a chunk that arrives. -/
theorem arriving_rest (data : Bytes) :
    buffer.arriving (max offset buffer.cursor) (data.drop (buffer.cursor - offset)) =
      buffer.arriving offset data := by
  have reached : buffer.cursor ≤ max offset buffer.cursor := Nat.le_max_right _ _
  apply Segment.eq_of_data
  · exact Nat.max_eq_left reached
  · show (data.drop (buffer.cursor - offset)).drop (buffer.cursor - max offset buffer.cursor) = _
    rw [Nat.sub_eq_zero_of_le reached, List.drop_zero]
    rfl

/-- **A buffer sees nothing of the late bytes of a chunk.** -/
theorem ingest_rest (fits : offset + data.length ≤ maxOffset) :
    let whole := buffer.ingest offset data
    let rest := buffer.ingest (max offset buffer.cursor) (data.drop (buffer.cursor - offset))
    whole.result = rest.result ∧ whole.state = rest.state := by
  by_cases late : data.length ≤ buffer.cursor - offset
  · rw [List.drop_eq_nil_of_le late]
    exact buffer.ingest_late offset fits late
  · have length : (data.drop (buffer.cursor - offset)).length =
        data.length - (buffer.cursor - offset) := List.length_drop
    have nonempty : data ≠ [] := List.ne_nil_of_length_pos (by omega)
    have nonemptyToo : data.drop (buffer.cursor - offset) ≠ [] :=
      List.ne_nil_of_length_pos (by omega)
    obtain ⟨result, state⟩ := buffer.ingest_news offset nonempty fits (by omega)
    obtain ⟨resultToo, stateToo⟩ :=
      buffer.ingest_news (max offset buffer.cursor) nonemptyToo (by omega) (by omega)
    rw [arriving_rest] at resultToo stateToo
    exact ⟨result.trans resultToo.symm, state.trans stateToo.symm⟩

end Late

end Buffer

namespace Store

/-- **Late bytes may be dropped at any time.**  In every store that changes have led to, clipping
a segment before it is inserted does what trimming the store afterwards does; and a buffer does
with a chunk what it does with the rest of it that is not late. -/
theorem late_bytes_ignored {changes : List Change} (brings : ∀ change ∈ changes, change.Full)
    {incoming : Segment} (nonempty : incoming.start < incoming.stop) (floor : Nat) :
    let store := empty.after changes
    Alike ((store.insert incoming).state.trimBelow floor)
        ((store.trimBelow floor).insertAbove floor incoming) ∧
      ∀ (buffer : Buffer) (offset : Nat) (data : Bytes), offset + data.length ≤ maxOffset →
        let whole := buffer.ingest offset data
        let rest := buffer.ingest (max offset buffer.cursor) (data.drop (buffer.cursor - offset))
        whole.result = rest.result ∧ whole.state = rest.state :=
  ⟨(tidy_after brings).trim_insert nonempty floor, fun buffer offset _ fits =>
    buffer.ingest_rest offset fits⟩

/-- The segment touches one that is about to go, lies over one on both sides of the offset and
touches another one behind; the chunk reaches below the cursor of a buffer that it fills. -/
theorem late_bytes_ignored_straddling :
    let changes : List Change :=
      [.insert ⟨0, [1, 2], 2, rfl⟩ rfl, .insert ⟨4, [5, 6, 7], 7, rfl⟩ rfl,
        .insert ⟨8, [9], 9, rfl⟩ rfl]
    let incoming : Segment := ⟨2, [3, 4, 5, 6, 7, 8], 8, rfl⟩
    let store := empty.after changes
    let calls : List Buffer.Call := [.request (.ingest 0 [1, 2]), .request (.read 2)]
    let buffer := ((Buffer.fresh { bytes := some 2 }).run calls).state
    (∀ change ∈ changes, change.Full) ∧ incoming.start < incoming.stop ∧
      ((store.trimBelow 5).insertAbove 5 incoming).segments = [⟨5, [6, 7, 8, 9], 9, rfl⟩] ∧
      Alike ((store.insert incoming).state.trimBelow 5)
        ((store.trimBelow 5).insertAbove 5 incoming) ∧
      (buffer.ingest 1 [2, 3, 4]).state = (buffer.ingest 2 [3, 4]).state := by
  intro changes incoming store calls buffer
  have brings : ∀ change ∈ changes, change.Full := by decide
  have nonempty : incoming.start < incoming.stop := by decide
  obtain ⟨alike, ignored⟩ := late_bytes_ignored brings nonempty 5
  have fits : 1 + [2, 3, 4].length ≤ maxOffset := by decide
  exact ⟨brings, nonempty, by decide, alike, (ignored buffer 1 [2, 3, 4] fits).2⟩

end Store

end Gapless
