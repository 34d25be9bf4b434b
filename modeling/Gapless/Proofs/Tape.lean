/-
# Gapless.Proofs.Tape -- a buffer without segments

A tape is a cursor and the bytes that wait at or behind it.  A chunk sets the bytes at
its own offsets, those below the cursor left out; whatever was there is overwritten.  A
reader finds the bytes from the cursor on up to the first gap, and moving the cursor on
forgets what it passes.

Tapes know nothing of limits, and hold their bytes in no particular way.  What is proved
of them here is what reading does: two reads move the cursor and return together what
one read of as much does.
-/
import Gapless.Proofs.ByteMap

namespace Gapless

set_option autoImplicit false

structure Tape where
  /-- The offset of the next byte a read returns. -/
  cursor : Nat := 0
  bytes : ByteMap := .empty

namespace Tape

/-! ## Operations -/

/-- Set the bytes of a chunk, except for those below the cursor. -/
def write (tape : Tape) (offset : Nat) (data : Bytes) : Tape where
  cursor := tape.cursor
  bytes :=
    { byteAt? := fun other =>
        if tape.cursor ≤ other ∧ offset ≤ other ∧ other < offset + data.length then
          data[other - offset]?
        else tape.bytes.byteAt? other
      offsets :=
        tape.bytes.offsets ∪ (Finset.Ico offset (offset + data.length)).filter (tape.cursor ≤ ·)
      mem_offsets := fun other => by
        rw [Finset.mem_union, Finset.mem_filter, Finset.mem_Ico, tape.bytes.mem_offsets]
        split
        · next within =>
            have : other - offset < data.length := by omega
            simp [within, this]
        · next outside =>
            have : ¬((offset ≤ other ∧ other < offset + data.length) ∧ tape.cursor ≤ other) := by
              omega
            simp [this] }

/-- The number of bytes without a gap from the cursor on. -/
def readable (tape : Tape) : Nat := tape.bytes.reach tape.cursor

/-- The bytes that a read of at most `count` finds. -/
def front (tape : Tape) (count : Nat) : Bytes := tape.bytes.bytesFrom tape.cursor count

/-- Move the cursor on. -/
def skip (tape : Tape) (count : Nat) : Tape where
  cursor := tape.cursor + count
  bytes := tape.bytes.above (tape.cursor + count)

/-- The tape after a read of at most `count` bytes. -/
def read (tape : Tape) (count : Nat) : Tape := tape.skip (min count tape.readable)

/-- Nothing waits below the cursor. -/
def Ahead (tape : Tape) : Prop := ∀ offset ∈ tape.bytes.offsets, tape.cursor ≤ offset

/-! ## Writing -/

theorem eq_of_byteAt? {one other : Tape} (cursor : one.cursor = other.cursor)
    (bytes : ∀ offset, one.bytes.byteAt? offset = other.bytes.byteAt? offset) : one = other := by
  obtain ⟨oneCursor, oneBytes⟩ := one
  obtain ⟨otherCursor, otherBytes⟩ := other
  obtain rfl : oneCursor = otherCursor := cursor
  obtain rfl : oneBytes = otherBytes := ByteMap.eq_of_byteAt? bytes
  rfl

theorem byteAt?_write (tape : Tape) (offset : Nat) (data : Bytes) (other : Nat) :
    (tape.write offset data).bytes.byteAt? other =
      if tape.cursor ≤ other ∧ offset ≤ other ∧ other < offset + data.length then
        data[other - offset]?
      else tape.bytes.byteAt? other := rfl

/-- Writing a chunk is writing its parts one after the other. -/
theorem write_append (tape : Tape) (offset : Nat) (one other : Bytes) :
    (tape.write offset one).write (offset + one.length) other =
      tape.write offset (one ++ other) := by
  refine eq_of_byteAt? rfl fun place => ?_
  have cursor : (tape.write offset one).cursor = tape.cursor := rfl
  simp only [byteAt?_write, cursor, List.length_append, List.getElem?_append]
  by_cases inOther : tape.cursor ≤ place ∧ offset + one.length ≤ place ∧
      place < offset + one.length + other.length
  · rw [if_pos inOther, if_pos (by omega), if_neg (by omega)]
    congr 1
    omega
  · rw [if_neg inOther]
    by_cases inOne : tape.cursor ≤ place ∧ offset ≤ place ∧ place < offset + one.length
    · rw [if_pos inOne, if_pos (by omega), if_pos (by omega)]
    · rw [if_neg inOne, if_neg (by omega)]

/-- A chunk that is written again changes nothing. -/
theorem write_again (tape : Tape) (offset : Nat) (data : Bytes) :
    (tape.write offset data).write offset data = tape.write offset data := by
  refine eq_of_byteAt? rfl fun place => ?_
  have cursor : (tape.write offset data).cursor = tape.cursor := rfl
  simp only [byteAt?_write, cursor]
  split <;> rfl

/-- Writing sets the part of the chunk that begins at the cursor or behind it. -/
theorem bytes_write (tape : Tape) (offset : Nat) (data : Bytes) :
    (tape.write offset data).bytes =
      tape.bytes.write (max offset tape.cursor) (data.drop (tape.cursor - offset)) := by
  refine ByteMap.eq_of_byteAt? fun other => ?_
  rw [ByteMap.byteAt?_write, List.length_drop, List.getElem?_drop]
  show (if tape.cursor ≤ other ∧ offset ≤ other ∧ other < offset + data.length then
      data[other - offset]? else tape.bytes.byteAt? other) = _
  by_cases within : tape.cursor ≤ other ∧ offset ≤ other ∧ other < offset + data.length
  · rw [if_pos within, if_pos (by omega)]
    congr 1
    omega
  · rw [if_neg within, if_neg (by omega)]

theorem mem_write {tape : Tape} {offset : Nat} {data : Bytes} {other : Nat} :
    other ∈ (tape.write offset data).bytes.offsets ↔
      other ∈ tape.bytes.offsets ∨
        (offset ≤ other ∧ other < offset + data.length) ∧ tape.cursor ≤ other := by
  show other ∈ tape.bytes.offsets ∪ _ ↔ _
  rw [Finset.mem_union, Finset.mem_filter, Finset.mem_Ico]

/-- A chunk that ends at or below the cursor changes nothing. -/
theorem write_late {tape : Tape} {offset : Nat} {data : Bytes}
    (late : offset + data.length ≤ tape.cursor) : tape.write offset data = tape := by
  have bytes : (tape.write offset data).bytes = tape.bytes := by
    rw [bytes_write, List.drop_of_length_le (by omega), ByteMap.write_nil]
  show Tape.mk tape.cursor (tape.write offset data).bytes = tape
  rw [bytes]

theorem write_nil (tape : Tape) (offset : Nat) : tape.write offset [] = tape := by
  have bytes : (tape.write offset []).bytes = tape.bytes := by
    rw [bytes_write, List.drop_nil, ByteMap.write_nil]
  show Tape.mk tape.cursor (tape.write offset []).bytes = tape
  rw [bytes]

/-! ## Reading -/

/-- Up to the cursor and what can be read there is no gap. -/
theorem mem_of_lt_readable {tape : Tape} {offset : Nat} (reached : tape.cursor ≤ offset)
    (short : offset < tape.cursor + tape.readable) : offset ∈ tape.bytes.offsets := by
  have known : tape.cursor + (offset - tape.cursor) ∈ tape.bytes.offsets :=
    ByteMap.mem_of_lt_reach (show offset - tape.cursor < tape.readable by omega)
  rwa [Nat.add_sub_cancel' reached] at known

theorem length_front (tape : Tape) (count : Nat) :
    (tape.front count).length = min count tape.readable :=
  tape.bytes.length_bytesFrom tape.cursor count

theorem getElem?_front (tape : Tape) (count index : Nat) :
    (tape.front count)[index]? =
      if index < min count tape.readable then tape.bytes.byteAt? (tape.cursor + index) else none :=
  tape.bytes.getElem?_bytesFrom tape.cursor count index

/-- A read finds no more than is readable. -/
theorem front_min (tape : Tape) (count : Nat) :
    tape.front (min count tape.readable) = tape.front count := by
  refine List.ext_getElem? fun index => ?_
  rw [getElem?_front, getElem?_front, Nat.min_assoc, Nat.min_self]

@[simp] theorem cursor_skip (tape : Tape) (count : Nat) :
    (tape.skip count).cursor = tape.cursor + count := rfl

theorem byteAt?_skip (tape : Tape) (count offset : Nat) :
    (tape.skip count).bytes.byteAt? offset =
      if tape.cursor + count ≤ offset then tape.bytes.byteAt? offset else none := rfl

theorem skip_zero {tape : Tape} (ahead : tape.Ahead) : tape.skip 0 = tape := by
  have bytes : tape.bytes.above (tape.cursor + 0) = tape.bytes := by
    refine ByteMap.eq_of_byteAt? fun offset => ?_
    rw [ByteMap.byteAt?_above]
    split
    · rfl
    · next below => exact (ByteMap.notMem_offsets.1 fun known => below (ahead offset known)).symm
  show Tape.mk (tape.cursor + 0) (tape.bytes.above (tape.cursor + 0)) = tape
  rw [bytes, Nat.add_zero]

theorem skip_skip (tape : Tape) (count more : Nat) :
    (tape.skip count).skip more = tape.skip (count + more) := by
  have bytes : (tape.bytes.above (tape.cursor + count)).above (tape.cursor + count + more) =
      tape.bytes.above (tape.cursor + count + more) := by
    refine ByteMap.eq_of_byteAt? fun offset => ?_
    rw [ByteMap.byteAt?_above, ByteMap.byteAt?_above, ByteMap.byteAt?_above]
    split
    · rw [if_pos (by omega)]
    · rfl
  show Tape.mk (tape.cursor + count + more) _ = Tape.mk (tape.cursor + (count + more)) _
  rw [← Nat.add_assoc, ← bytes]
  rfl

theorem readable_skip {tape : Tape} {count : Nat} (short : count ≤ tape.readable) :
    (tape.skip count).readable = tape.readable - count := by
  have gap := tape.bytes.add_reach_notMem tape.cursor
  refine ByteMap.reach_eq_iff.2 ⟨fun known => gap ?_, fun index less => ?_⟩
  · have whole : tape.cursor + count + (tape.readable - count) =
        tape.cursor + tape.bytes.reach tape.cursor := by
      unfold readable at short ⊢
      omega
    rw [← whole]
    exact (Finset.mem_filter.1 known).1
  · have known : tape.cursor + (count + index) ∈ tape.bytes.offsets :=
      ByteMap.mem_of_lt_reach (by unfold readable at less; omega)
    rw [← Nat.add_assoc] at known
    refine Finset.mem_filter.2 ⟨known, ?_⟩
    show tape.cursor + count ≤ tape.cursor + count + index
    omega

theorem readable_read (tape : Tape) (count : Nat) :
    (tape.read count).readable = tape.readable - count := by
  have short := Nat.min_le_right count tape.readable
  rw [read, readable_skip short]
  omega

/-- What a read takes away lies without a gap from the cursor on. -/
theorem card_read {tape : Tape} (ahead : tape.Ahead) (count : Nat) :
    (tape.read count).bytes.offsets.card + min count tape.readable =
      tape.bytes.offsets.card := by
  have gone : tape.bytes.offsets.filter (¬tape.cursor + min count tape.readable ≤ ·) =
      Finset.Ico tape.cursor (tape.cursor + min count tape.readable) := by
    ext offset
    rw [Finset.mem_filter, Finset.mem_Ico, Nat.not_le]
    constructor
    · rintro ⟨known, short⟩
      exact ⟨ahead offset known, short⟩
    · rintro ⟨reached, short⟩
      exact ⟨mem_of_lt_readable reached (by omega), short⟩
  have split := Finset.card_filter_add_card_filter_not (s := tape.bytes.offsets)
    (tape.cursor + min count tape.readable ≤ ·)
  rw [gone, Nat.card_Ico, Nat.add_sub_cancel_left] at split
  exact split

theorem read_read (tape : Tape) (count more : Nat) :
    (tape.read count).read more = tape.read (count + more) := by
  have further : min count tape.readable + min more (tape.readable - count) =
      min (count + more) tape.readable := by omega
  show (tape.skip (min count tape.readable)).skip (min more (tape.read count).readable) = _
  rw [skip_skip, readable_read, further]
  rfl

/-- Two reads return together what one read of as much does. -/
theorem front_add (tape : Tape) (count more : Nat) :
    tape.front count ++ (tape.read count).front more = tape.front (count + more) := by
  refine List.ext_getElem? fun index => ?_
  rw [List.getElem?_append, length_front, getElem?_front, getElem?_front, getElem?_front,
    readable_read, read, cursor_skip, byteAt?_skip]
  by_cases first : index < min count tape.readable
  · rw [if_pos first, if_pos first, if_pos (by omega)]
  · by_cases second : index < min (count + more) tape.readable
    · rw [if_neg first, if_pos second, if_pos (by omega), if_pos (Nat.le_add_right _ _)]
      congr 1
      omega
    · rw [if_neg first, if_neg second, if_neg (by omega)]

end Tape

end Gapless
