/-
# Gapless.Delivery -- a stream cut into chunks the way a poor network would

A delivery plan cuts a stream into chunks of one size.  Every chunk may reach back
over the end of the one before it (`overlap`), the chunks are put into an order,
and every so many of them one is sent twice.
-/
import Gapless.Chunk

namespace Gapless

set_option autoImplicit false

inductive DeliveryOrder where
  | forward
  | reverse
  /-- Every other chunk from the first on, then the ones left out. -/
  | interleaved
  deriving DecidableEq

structure DeliveryPlan where
  /-- Positive. -/
  chunkSize : Nat
  /-- Bytes of the preceding part of the stream that a chunk brings along. -/
  overlap : Nat := 0
  order : DeliveryOrder := .forward
  /-- Positive, when given: each chunk whose place is a multiple of it is sent twice. -/
  duplicateEvery : Option Nat := none
  deriving DecidableEq

namespace DeliveryOrder

/-- The items at the even positions, counted from zero. -/
def evens {α : Type} : List α → List α
  | [] => []
  | [item] => [item]
  | item :: _ :: rest => item :: evens rest

def odds {α : Type} (items : List α) : List α := evens items.tail

def arrange {α : Type} (order : DeliveryOrder) (items : List α) : List α :=
  match order with
  | .forward => items
  | .reverse => items.reverse
  | .interleaved => evens items ++ odds items

end DeliveryOrder

namespace DeliveryPlan

/-- The number of chunks that a stream of this length is cut into. -/
def pieces (plan : DeliveryPlan) (length : Nat) : Nat :=
  (length + plan.chunkSize - 1) / plan.chunkSize

/-- The chunk with the given place in the stream.  The last one ends with the stream. -/
def chunk (plan : DeliveryPlan) (stream : Bytes) (place : Nat) : Chunk :=
  let start := place * plan.chunkSize
  let low := start - plan.overlap
  .within low (stream.drop low) (stream.length - low) (by rw [List.length_drop])
    (start + plan.chunkSize - low)

/-- Send twice each item whose position, counted on from `position`, is a
multiple of `every`. -/
def repeatEvery {α : Type} (every : Nat) (position : Nat) : List α → List α
  | [] => []
  | item :: rest =>
      let sent := if position % every = 0 then [item, item] else [item]
      sent ++ repeatEvery every (position + 1) rest

/-- Cut `count` chunks out of the rest of a stream, which begins at `position` and
has `left` bytes; the first of the chunks has this place. -/
def cutFrom (plan : DeliveryPlan) (place position : Nat) (rest : Bytes) (left : Nat)
    (known : left = rest.length) : Nat → List Chunk
  | 0 => []
  | count + 1 =>
      let start := place * plan.chunkSize
      let low := start - plan.overlap
      have further : left - (low - position) = (rest.drop (low - position)).length := by
        rw [List.length_drop, known]
      .within low (rest.drop (low - position)) (left - (low - position)) further
          (start + plan.chunkSize - low) ::
        plan.cutFrom (place + 1) low (rest.drop (low - position)) (left - (low - position))
          further count

/-- The chunks of a stream in the order of their places. -/
def cut (plan : DeliveryPlan) (stream : Bytes) : List Chunk :=
  plan.cutFrom 0 0 stream stream.length rfl (plan.pieces stream.length)

/-- The chunks of a stream in the order in which they are delivered. -/
def chunks (plan : DeliveryPlan) (stream : Bytes) : List Chunk :=
  let arranged := plan.order.arrange (plan.cut stream)
  match plan.duplicateEvery with
  | none => arranged
  | some every => repeatEvery every 1 arranged

theorem cutFrom_eq (plan : DeliveryPlan) (stream : Bytes) (place position count : Nat)
    (reached : position ≤ place * plan.chunkSize - plan.overlap) {rest : Bytes}
    (begun : rest = stream.drop position) {left : Nat} (known : left = rest.length) :
    plan.cutFrom place position rest left known count =
      (List.range' place count).map (plan.chunk stream) := by
  induction count generalizing place position rest left with
  | zero => rfl
  | succ count ih =>
      have further : place * plan.chunkSize ≤ (place + 1) * plan.chunkSize :=
        Nat.mul_le_mul_right _ (Nat.le_succ place)
      have next : rest.drop (place * plan.chunkSize - plan.overlap - position) =
          stream.drop (place * plan.chunkSize - plan.overlap) := by
        rw [begun, List.drop_drop]
        congr 1; omega
      rw [cutFrom, List.range'_succ, List.map_cons, ih (place + 1) _ (by omega) next]
      refine congrArg (· :: _) ?_
      unfold chunk
      dsimp only
      congr 1
      rw [known, begun, List.length_drop]
      omega

/-- Cutting goes along the stream, and yields the chunk of each place. -/
theorem cut_eq (plan : DeliveryPlan) (stream : Bytes) :
    plan.cut stream = (List.range (plan.pieces stream.length)).map (plan.chunk stream) := by
  rw [List.range_eq_range',
    ← cutFrom_eq plan stream 0 0 _ (Nat.zero_le _) (List.drop_zero).symm rfl]
  rfl

end DeliveryPlan

end Gapless
