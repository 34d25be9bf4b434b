/-
# Gapless.Segment -- a run of stream bytes at its place in the stream

A segment is a list of bytes, the offset of the first of them and the offset one
past the last, which is kept so that nobody has to count the bytes.  A segment may
be empty.  The checked constructor `Segment.at?` is the only one that takes
unvetted numbers: it refuses a range whose end would be no offset, and every
other operation yields a part or a union of ranges that were vetted before.

* `Segment.clipBelow` cuts off what lies below an offset;
* `Segment.fuse` lays segments over one another, the last one on top.

The view of a segment is the byte it holds at an offset (`Segment.byteAt?`).
-/
import Gapless.Stream

namespace Gapless

set_option autoImplicit false

/-- The bytes at the offsets `start`, `start + 1`, and so on. -/
structure Segment where
  start : Nat
  data : Bytes
  /-- The offset one past the last byte. -/
  stop : Nat := start + data.length
  stop_eq : stop = start + data.length := by rfl
  deriving DecidableEq

namespace Segment

/-- The segment of these bytes at `start`, when its end is an offset. -/
def at? (start : Nat) (data : Bytes) : Except ArgumentFault Segment :=
  match Offset.advance? start data.length with
  | some _ => .ok { start, data }
  | none => .error (.rangeOverflow start data.length)

def length (segment : Segment) : Nat := segment.stop - segment.start

def covers (segment : Segment) (offset : Nat) : Bool :=
  decide (segment.start ≤ offset ∧ offset < segment.stop)

/-- The byte at an offset of the stream, if the segment holds it. -/
def byteAt? (segment : Segment) (offset : Nat) : Option UInt8 :=
  if segment.start ≤ offset then segment.data[offset - segment.start]? else none

/-- The bytes from `offset` on, for an offset inside the segment or at its end. -/
def bytesFrom (segment : Segment) (offset : Nat) : Bytes :=
  segment.data.drop (offset - segment.start)

/-- `count` bytes from `offset` on, unless they run past the end. -/
def slice? (segment : Segment) (offset count : Nat) : Option Bytes :=
  if offset - segment.start + count ≤ segment.length then
    some ((segment.bytesFrom offset).take count)
  else none

/-- The part of a segment at or above `offset`; `none` when nothing ends above it. -/
def clipBelow (segment : Segment) (offset : Nat) : Option Segment :=
  if above : segment.stop ≤ offset then none
  else if below : offset ≤ segment.start then some segment
  else some
    { start := offset
      data := segment.bytesFrom offset
      stop := segment.stop
      stop_eq := by
        have := segment.stop_eq
        rw [bytesFrom, List.length_drop]
        omega }

/-- Lay a segment that starts no earlier over another one. -/
def paint (canvas layer : Segment) : Segment where
  start := canvas.start
  data := overlay canvas.data (layer.start - canvas.start) layer.data
  stop := max canvas.stop (canvas.start + (layer.start - canvas.start) + layer.length)
  stop_eq := by
    have := canvas.stop_eq
    have := layer.stop_eq
    rw [length_overlay, length]
    omega

/-- One segment from `start` on holding what the `layers` hold, a later layer over
an earlier one. -/
def fuse (start : Nat) (layers : List Segment) : Segment :=
  layers.foldl paint { start, data := [] }

/-! ## The range of a segment -/

/-- A segment is its start and its bytes. -/
theorem eq_of_data {one other : Segment} (start : one.start = other.start)
    (data : one.data = other.data) : one = other := by
  obtain ⟨_, _, _, rfl⟩ := one
  obtain ⟨_, _, _, rfl⟩ := other
  cases start
  cases data
  rfl

theorem length_eq (segment : Segment) : segment.length = segment.data.length := by
  rw [length, segment.stop_eq]
  omega

theorem start_le_stop (segment : Segment) : segment.start ≤ segment.stop := by
  have := segment.stop_eq
  omega

theorem at?_eq_ok_iff {start : Nat} {data : Bytes} {segment : Segment} :
    at? start data = .ok segment ↔ segment = { start, data } ∧ segment.stop ≤ maxOffset := by
  unfold at? Offset.advance?
  by_cases fits : start + data.length ≤ maxOffset
  · simp only [fits, if_true, Except.ok.injEq]
    exact ⟨fun same => ⟨same.symm, same ▸ fits⟩, fun h => h.1.symm⟩
  · simp only [fits, if_false, reduceCtorEq, false_iff, not_and]
    rintro rfl
    exact fits

theorem covers_iff {segment : Segment} {offset : Nat} :
    segment.covers offset ↔ segment.start ≤ offset ∧ offset < segment.stop := by
  simp [covers]

/-- A fused segment starts where it was told to. -/
theorem start_fuse (start : Nat) (layers : List Segment) : (fuse start layers).start = start := by
  suffices ∀ canvas : Segment, (layers.foldl paint canvas).start = canvas.start from this _
  induction layers with
  | nil => exact fun _ => rfl
  | cons layer rest ih => exact fun canvas => (ih (canvas.paint layer)).trans rfl

/-! ## The bytes of a segment -/

theorem isSome_byteAt? (segment : Segment) (offset : Nat) :
    (segment.byteAt? offset).isSome = segment.covers offset := by
  have := segment.stop_eq
  unfold byteAt? covers
  by_cases reached : segment.start ≤ offset
  · rw [if_pos reached, Bool.eq_iff_iff, Option.isSome_iff_ne_none, ne_eq,
      List.getElem?_eq_none_iff, decide_eq_true_eq]
    omega
  · simp [reached]

theorem byteAt?_eq_none_iff {segment : Segment} {offset : Nat} :
    segment.byteAt? offset = none ↔ ¬(segment.start ≤ offset ∧ offset < segment.stop) := by
  rw [← covers_iff, ← isSome_byteAt?]
  cases segment.byteAt? offset <;> simp

/-- Clipping takes away the bytes below the offset and no others. -/
theorem byteAt?_clipBelow (segment : Segment) (below offset : Nat) :
    ((segment.clipBelow below).bind (·.byteAt? offset)) =
      if below ≤ offset then segment.byteAt? offset else none := by
  unfold clipBelow
  split
  · rw [Option.bind_none]
    split
    · exact (byteAt?_eq_none_iff.2 (by omega)).symm
    · rfl
  · split
    · rw [Option.bind_some]
      split
      · rfl
      · exact byteAt?_eq_none_iff.2 (by omega)
    · rw [Option.bind_some]
      unfold byteAt? bytesFrom
      simp only [List.getElem?_drop]
      split
      · rw [if_pos (by omega)]; congr 1; omega
      · rfl

end Segment

end Gapless
