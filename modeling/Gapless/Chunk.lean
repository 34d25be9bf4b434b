/-
# Gapless.Chunk -- bytes on their way to their place in the stream

A chunk is a piece of a stream: the bytes for the offsets from a given one on.  What
is cut out of a longer list of bytes stays where it is: a chunk keeps the list and the
number of bytes that belong to it, and only the part that somebody needs is copied
(`Chunk.above?`).
-/
import Gapless.Segment

namespace Gapless

set_option autoImplicit false

/-- The first `length` bytes of `source`, for the offsets from `offset` on. -/
structure Chunk where
  offset : Nat
  source : Bytes
  length : Nat
  length_le : length ≤ source.length
  deriving DecidableEq

namespace Chunk

/-- The chunk of all these bytes. -/
def ofData (offset : Nat) (data : Bytes) : Chunk :=
  { offset, source := data, length := data.length, length_le := Nat.le_refl _ }

/-- The chunk of at most `size` of these bytes, of which there are `count`. -/
def within (offset : Nat) (bytes : Bytes) (count : Nat) (known : count = bytes.length)
    (size : Nat) : Chunk where
  offset := offset
  source := bytes
  length := min size count
  length_le := by omega

def data (chunk : Chunk) : Bytes := chunk.source.take chunk.length

/-- The offset one past the last byte. -/
def stop (chunk : Chunk) : Nat := chunk.offset + chunk.length

theorem length_data (chunk : Chunk) : chunk.data.length = chunk.length := by
  have := chunk.length_le
  rw [data, List.length_take]
  omega

/-- The chunk at its place. -/
def segment (chunk : Chunk) : Segment where
  start := chunk.offset
  data := chunk.data
  stop := chunk.stop
  stop_eq := by rw [length_data, stop]

/-- The part of a chunk at or above an offset, unless it ends at or below it. -/
def above? (chunk : Chunk) (below : Nat) : Option Segment :=
  if reached : chunk.stop ≤ below then none
  else some
    { start := max chunk.offset below
      data := (chunk.source.drop (max chunk.offset below - chunk.offset)).take
        (chunk.stop - max chunk.offset below)
      stop := chunk.stop
      stop_eq := by
        have := chunk.length_le
        unfold stop at reached ⊢
        rw [List.length_take, List.length_drop]
        omega }

theorem data_ofData (offset : Nat) (data : Bytes) : (ofData offset data).data = data :=
  List.take_length

theorem data_within (offset : Nat) (bytes : Bytes) (count : Nat) (known : count = bytes.length)
    (size : Nat) : (within offset bytes count known size).data = bytes.take size := by
  unfold within data
  dsimp only
  rw [known, ← List.take_eq_take_min]

/-- The bytes of a chunk have their place when there are offsets for them. -/
theorem at?_data (chunk : Chunk) :
    Segment.at? chunk.offset chunk.data =
      match Offset.advance? chunk.offset chunk.length with
      | some _ => .ok chunk.segment
      | none => .error (.rangeOverflow chunk.offset chunk.length) := by
  have whole : ({ start := chunk.offset, data := chunk.data } : Segment) = chunk.segment :=
    Segment.eq_of_data rfl rfl
  rw [← chunk.length_data, ← whole]
  rfl

/-- Taking the upper part of a chunk is clipping it at its place. -/
theorem above?_eq (chunk : Chunk) (below : Nat) :
    chunk.above? below = chunk.segment.clipBelow below := by
  unfold above? Segment.clipBelow
  split
  · next gone => rw [dif_pos (show chunk.segment.stop ≤ below from gone)]
  · next short =>
      rw [dif_neg (show ¬chunk.segment.stop ≤ below from short)]
      split
      · next first =>
          have first : below ≤ chunk.offset := first
          refine congrArg some (Segment.eq_of_data ?_ ?_)
          · show max chunk.offset below = chunk.offset
            omega
          · show (chunk.source.drop _).take _ = chunk.source.take chunk.length
            unfold stop
            rw [Nat.max_eq_left first, Nat.sub_self, List.drop_zero, Nat.add_sub_cancel_left]
      · next inside =>
          have inside : ¬below ≤ chunk.offset := inside
          refine congrArg some (Segment.eq_of_data ?_ ?_)
          · show max chunk.offset below = below
            omega
          · show (chunk.source.drop _).take _ = (chunk.source.take chunk.length).drop _
            unfold stop segment
            rw [Nat.max_eq_right (by omega), List.drop_take,
              show chunk.offset + chunk.length - below =
                chunk.length - (below - chunk.offset) by omega]

end Chunk

end Gapless
