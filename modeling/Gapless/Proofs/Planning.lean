/-
# Gapless.Proofs.Planning -- what a delivery plan delivers

Whatever the order and however many chunks are sent twice, the chunks of a plan are
those that the stream was cut into, each at least once (`mem_chunks`).  Each was cut
from the stream at its own place, and together they cover the stream
(`covered_chunks_iff`): a chunk may reach back, never stop short.
-/
import Gapless.Delivery
import Gapless.Proofs.History

namespace Gapless

set_option autoImplicit false

/-! ## Orders and repetitions -/

section Items

variable {α : Type} {item : α}

namespace DeliveryOrder

theorem evens_cons (first : α) (items : List α) :
    evens (first :: items) = first :: evens items.tail := by
  cases items <;> rfl

/-- Each item is at an even position, or at one when the first item is left out. -/
theorem mem_evens_or_odds {items : List α} :
    item ∈ evens items ∨ item ∈ odds items ↔ item ∈ items := by
  unfold odds
  induction items with
  | nil => simp [evens]
  | cons first rest ih =>
      rw [evens_cons, List.tail_cons, List.mem_cons, List.mem_cons, ← ih, or_assoc,
        or_comm (a := item ∈ evens rest.tail)]

theorem mem_arrange {order : DeliveryOrder} {items : List α} :
    item ∈ order.arrange items ↔ item ∈ items := by
  cases order with
  | forward => exact Iff.rfl
  | reverse => exact List.mem_reverse
  | interleaved => exact List.mem_append.trans mem_evens_or_odds

end DeliveryOrder

theorem DeliveryPlan.mem_repeatEvery {every position : Nat} {items : List α} :
    item ∈ repeatEvery every position items ↔ item ∈ items := by
  induction items generalizing position with
  | nil => exact Iff.rfl
  | cons first rest ih =>
      rw [repeatEvery]
      split
      · rw [List.mem_append, ih]
        simp
      · rw [List.mem_append, ih]
        simp

end Items

/-! ## Chunks -/

/-- A piece of a stream ends with it at the latest. -/
theorem Chunk.CutFrom.stop_le {source : Bytes} {chunk : Chunk} (cut : chunk.CutFrom source) :
    chunk.data = [] ∨ chunk.stop ≤ source.length := by
  have short := cut.length_le
  rw [List.length_drop, chunk.length_data] at short
  unfold stop
  by_cases nothing : chunk.length = 0
  · refine Or.inl (List.eq_nil_of_length_eq_zero ?_)
    rw [chunk.length_data, nothing]
  · exact Or.inr (by omega)

namespace DeliveryPlan

variable {plan : DeliveryPlan} {stream : Bytes}

theorem cutFrom_chunk (plan : DeliveryPlan) (stream : Bytes) (place : Nat) :
    (plan.chunk stream place).CutFrom stream := by
  unfold Chunk.CutFrom chunk
  rw [Chunk.data_within]
  exact List.take_prefix _ _

/-- The chunk at a place has all offsets of its own part of the stream. -/
theorem chunk_covers {place offset : Nat} (short : offset < stream.length)
    (reached : place * plan.chunkSize ≤ offset)
    (inside : offset < place * plan.chunkSize + plan.chunkSize) :
    (plan.chunk stream place).offset ≤ offset ∧ offset < (plan.chunk stream place).stop := by
  show place * plan.chunkSize - plan.overlap ≤ offset ∧ offset <
    place * plan.chunkSize - plan.overlap +
      min (place * plan.chunkSize + plan.chunkSize - (place * plan.chunkSize - plan.overlap))
        (stream.length - (place * plan.chunkSize - plan.overlap))
  omega

theorem mem_chunks {chunk : Chunk} :
    chunk ∈ plan.chunks stream ↔
      ∃ place < plan.pieces stream.length, plan.chunk stream place = chunk := by
  have arranged : chunk ∈ plan.order.arrange (plan.cut stream) ↔
      ∃ place < plan.pieces stream.length, plan.chunk stream place = chunk := by
    rw [DeliveryOrder.mem_arrange, cut_eq, List.mem_map]
    simp only [List.mem_range]
  unfold chunks
  split
  · exact arranged
  · exact mem_repeatEvery.trans arranged

/-- Each chunk of a plan is a piece of the stream. -/
theorem cutFrom_of_mem {chunk : Chunk} (member : chunk ∈ plan.chunks stream) :
    chunk.CutFrom stream := by
  obtain ⟨place, -, rfl⟩ := mem_chunks.1 member
  exact plan.cutFrom_chunk stream place

/-- A stream with an offset for each of its bytes has one for each byte of a chunk. -/
theorem ranged_of_mem (fits : stream.length ≤ maxOffset) {chunk : Chunk}
    (member : chunk ∈ plan.chunks stream) :
    chunk.data = [] ∨ chunk.offset + chunk.data.length ≤ maxOffset := by
  refine (cutFrom_of_mem member).stop_le.imp_right fun within => ?_
  rw [chunk.length_data]
  exact Nat.le_trans within fits

/-- **The chunks of a plan cover the stream**, and no more. -/
theorem covered_chunks_iff (positive : 0 < plan.chunkSize) {offset : Nat} :
    Covered (plan.chunks stream) offset ↔ offset < stream.length := by
  constructor
  · rintro ⟨chunk, member, reached, short⟩
    rcases (cutFrom_of_mem member).stop_le with nothing | within
    · have length : chunk.length = 0 := by
        rw [← chunk.length_data, nothing]
        rfl
      unfold Chunk.stop at short
      omega
    · omega
  · intro short
    -- The chunk whose own part has the offset, whatever it brings along besides.
    have whole := Nat.div_add_mod offset plan.chunkSize
    have part := Nat.mod_lt offset positive
    rw [Nat.mul_comm] at whole
    have place : offset / plan.chunkSize < plan.pieces stream.length := by
      unfold pieces
      rw [Nat.lt_div_iff_mul_lt positive]
      omega
    exact ⟨_, mem_chunks.2 ⟨_, place, rfl⟩, chunk_covers short (by omega) (by omega)⟩

end DeliveryPlan

end Gapless
