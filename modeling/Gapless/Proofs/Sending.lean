/-
# Gapless.Proofs.Sending -- which pieces of a stream are sent, in what order and how often

A plan cuts a stream into as many pieces as it takes to hold it, and numbers them from zero.  An
order is an order of these places (`DeliveryOrder.places`), whatever the pieces are: it leaves none
out and takes none twice.  A piece is the bytes of its own part of the stream and those that it
reaches back for; it is never empty, as its part begins before the stream ends
(`DeliveryPlan.lt_pieces_iff`).

Sending every so manieth chunk twice puts a copy right behind it and moves nothing else
(`repeatEvery_eq`), so that the number of copies is a quotient (`length_repeatEvery`).
-/
import Gapless.Proofs.Planning
import Mathlib.Algebra.Order.Floor.Div

namespace Gapless

set_option autoImplicit false

/-! ## Orders -/

namespace DeliveryOrder

/-- The places of so many pieces in the order in which they are sent. -/
def places (order : DeliveryOrder) (count : Nat) : List Nat :=
  match order with
  | .forward => List.range count
  | .reverse => (List.range count).reverse
  | .interleaved =>
      (List.range count).filter (· % 2 = 0) ++ (List.range count).filter (· % 2 = 1)

/-- An order leaves no place out and takes none twice. -/
theorem places_perm (order : DeliveryOrder) (count : Nat) :
    (order.places count).Perm (List.range count) := by
  cases order with
  | forward => exact List.Perm.refl _
  | reverse => exact List.reverse_perm _
  | interleaved =>
      have odd : (List.range count).filter (· % 2 = 1) =
          (List.range count).filter (fun place => !decide (place % 2 = 0)) := by
        apply List.filter_congr
        intro place _
        rw [Bool.eq_iff_iff, Bool.not_eq_true', decide_eq_true_eq, decide_eq_false_iff_not]
        omega
      rw [places, odd]
      exact List.filter_append_perm _ _

/-- Of numbers in a row every other one is as even as the first, and the rest is not. -/
theorem evens_range' (start count : Nat) :
    evens (List.range' start count) = (List.range' start count).filter (· % 2 = start % 2) ∧
      odds (List.range' start count) =
        (List.range' start count).filter (· % 2 = (start + 1) % 2) := by
  induction count generalizing start with
  | zero => exact ⟨rfl, rfl⟩
  | succ count ih =>
      obtain ⟨even, odd⟩ := ih (start + 1)
      have twice : (start + 1 + 1) % 2 = start % 2 := by omega
      have other : ¬start % 2 = (start + 1) % 2 := by omega
      rw [twice] at odd
      rw [List.range'_succ, evens_cons, List.filter_cons_of_pos (by simp),
        List.filter_cons_of_neg (by simpa using other)]
      exact ⟨congrArg (start :: ·) odd, even⟩

section Items

variable {α β : Type}

theorem evens_map (f : α → β) (items : List α) :
    evens (items.map f) = (evens items).map f ∧ odds (items.map f) = (odds items).map f := by
  unfold odds
  induction items with
  | nil => exact ⟨rfl, rfl⟩
  | cons first rest ih =>
      rw [List.map_cons, evens_cons, evens_cons, List.map_cons, ih.2]
      exact ⟨rfl, ih.1⟩

/-- Items are sent in the order of their places. -/
theorem arrange_map_range (order : DeliveryOrder) (f : Nat → α) (count : Nat) :
    order.arrange ((List.range count).map f) = (order.places count).map f := by
  cases order with
  | forward => rfl
  | reverse => exact List.map_reverse.symm
  | interleaved =>
      obtain ⟨even, odd⟩ := evens_range' 0 count
      rw [← List.range_eq_range'] at even odd
      rw [arrange, (evens_map _ _).1, (evens_map _ _).2, even, odd, ← List.map_append]
      rfl

end Items

end DeliveryOrder

namespace DeliveryPlan

/-! ## Copies -/

/-- The number of chunks sent a second time when there are so many. -/
def resent (plan : DeliveryPlan) (count : Nat) : Nat :=
  match plan.duplicateEvery with
  | none => 0
  | some every => count / every

section Items

variable {α : Type} (every : Nat)

/-- A copy comes right behind each item whose position is a multiple. -/
theorem repeatEvery_eq (position : Nat) (items : List α) :
    repeatEvery every position items =
      (items.zipIdx position).flatMap fun (item, place) =>
        if every ∣ place then [item, item] else [item] := by
  induction items generalizing position with
  | nil => rfl
  | cons item rest ih =>
      rw [repeatEvery, ih, List.zipIdx_cons, List.flatMap_cons]
      simp only [Nat.dvd_iff_mod_eq_zero]

/-- There are as many copies as multiples among the positions. -/
theorem length_repeatEvery (passed : Nat) (items : List α) :
    (repeatEvery every (passed + 1) items).length + passed / every =
      items.length + (passed + items.length) / every := by
  induction items generalizing passed with
  | nil => rfl
  | cons item rest ih =>
      have later := ih (passed + 1)
      have next : (passed + 1) / every = _ := Nat.succ_div
      have sum : passed + 1 + rest.length = passed + (rest.length + 1) := by omega
      rw [sum] at later
      rw [repeatEvery, List.length_append, List.length_cons]
      by_cases multiple : every ∣ passed + 1
      · rw [if_pos (Nat.mod_eq_zero_of_dvd multiple)]
        rw [if_pos multiple] at next
        simp only [List.length_cons, List.length_nil]
        omega
      · rw [if_neg fun zero => multiple (Nat.dvd_of_mod_eq_zero zero)]
        rw [if_neg multiple] at next
        simp only [List.length_cons, List.length_nil]
        omega

end Items

/-! ## Pieces -/

section Pieces

variable {plan : DeliveryPlan} {stream : Bytes}

/-- The chunks of a plan before some of them are sent twice. -/
def arranged (plan : DeliveryPlan) (stream : Bytes) : List Chunk :=
  plan.order.arrange (plan.cut stream)

theorem arranged_eq (plan : DeliveryPlan) (stream : Bytes) :
    plan.arranged stream =
      (plan.order.places (plan.pieces stream.length)).map (plan.chunk stream) := by
  rw [arranged, cut_eq, DeliveryOrder.arrange_map_range]

theorem mem_chunks_iff_arranged {chunk : Chunk} :
    chunk ∈ plan.chunks stream ↔ chunk ∈ plan.arranged stream := by
  rw [mem_chunks, arranged_eq, List.mem_map]
  simp only [(plan.order.places_perm _).mem_iff, List.mem_range]

theorem length_arranged (plan : DeliveryPlan) (stream : Bytes) :
    (plan.arranged stream).length = plan.pieces stream.length := by
  rw [arranged_eq, List.length_map, (plan.order.places_perm _).length_eq, List.length_range]

/-- With the copies there are so many more. -/
theorem length_chunks (plan : DeliveryPlan) (stream : Bytes) :
    (plan.chunks stream).length =
      plan.pieces stream.length + plan.resent (plan.pieces stream.length) := by
  have length := plan.length_arranged stream
  unfold arranged at length
  unfold chunks resent
  cases plan.duplicateEvery with
  | none => exact length
  | some every =>
      have copies := length_repeatEvery every 0 (plan.order.arrange (plan.cut stream))
      simp only [Nat.zero_div, Nat.zero_add, Nat.add_zero, length] at copies
      exact copies

theorem pieces_eq (plan : DeliveryPlan) (length : Nat) :
    plan.pieces length = length ⌈/⌉ plan.chunkSize :=
  (Nat.ceilDiv_eq_add_pred_div _ _).symm

variable (cuts : 0 < plan.chunkSize)

include cuts

/-- The places are those whose part of the stream has a byte. -/
theorem lt_pieces_iff {place length : Nat} :
    place < plan.pieces length ↔ place * plan.chunkSize < length := by
  rw [pieces_eq, ← not_le, ceilDiv_le_iff_le_smul cuts, smul_eq_mul, not_le, Nat.mul_comm]

theorem data_chunk {place : Nat} (counted : place < plan.pieces stream.length) :
    (plan.chunk stream place).data =
        stream.extract (place * plan.chunkSize - plan.overlap)
          (min ((place + 1) * plan.chunkSize) stream.length) ∧
      (plan.chunk stream place).data ≠ [] := by
  have short := (lt_pieces_iff cuts).1 counted
  have bound : (place + 1) * plan.chunkSize = place * plan.chunkSize + plan.chunkSize :=
    Nat.succ_mul _ _
  constructor
  · unfold chunk
    rw [Chunk.data_within, List.extract_eq_take_drop, bound, ← Nat.sub_min_sub_right]
    rw [List.take_eq_take_min, List.length_drop]
  · apply List.ne_nil_of_length_pos
    unfold chunk
    rw [Chunk.data_within, List.length_take, List.length_drop]
    omega

end Pieces

/-- **A plan delivers the whole stream and nothing else.**  Before copies are made, it sends one
chunk for each place, in its order.  The chunk has the bytes of the stream that lie at its own
offsets, and together the chunks cover the stream.  Each chunk whose position, counted from one,
is a multiple of a given number is sent again at once. -/
theorem delivers_stream (plan : DeliveryPlan) (stream : Bytes) (cuts : 0 < plan.chunkSize) :
    let count := stream.length ⌈/⌉ plan.chunkSize
    let arranged := plan.arranged stream
    (plan.order.places count).Perm (List.range count) ∧
      arranged = (plan.order.places count).map (plan.chunk stream) ∧
      (∀ place < count,
        let low := place * plan.chunkSize - plan.overlap
        let high := min ((place + 1) * plan.chunkSize) stream.length
        (plan.chunk stream place).offset = low ∧
          (plan.chunk stream place).data = stream.extract low high) ∧
      (∀ chunk ∈ arranged, chunk.data ≠ [] ∧ chunk.CutFrom stream) ∧
      (∀ offset, Covered arranged offset ↔ offset < stream.length) ∧
      (plan.duplicateEvery = none → plan.chunks stream = arranged) ∧
      (∀ every, plan.duplicateEvery = some every →
        plan.chunks stream = ((arranged.zipIdx 1).flatMap fun (chunk, position) =>
            if every ∣ position then [chunk, chunk] else [chunk]) ∧
          (plan.chunks stream).length = count + count / every) := by
  intro count arranged
  have counted : plan.pieces stream.length = count := plan.pieces_eq stream.length
  have sent : arranged = (plan.order.places count).map (plan.chunk stream) := by
    rw [← counted]
    exact plan.arranged_eq stream
  refine ⟨plan.order.places_perm count, sent, ?_, ?_, ?_, ?_, ?_⟩
  · intro place less low high
    rw [← counted] at less
    exact ⟨rfl, (data_chunk cuts less).1⟩
  · intro chunk member
    refine ⟨?_, cutFrom_of_mem (mem_chunks_iff_arranged.2 member)⟩
    obtain ⟨place, less, rfl⟩ := mem_chunks.1 (mem_chunks_iff_arranged.2 member)
    exact (data_chunk cuts less).2
  · intro offset
    rw [← covered_chunks_iff cuts]
    unfold Covered
    simp only [mem_chunks_iff_arranged, arranged]
  · intro once
    unfold chunks
    rw [once]
    rfl
  · intro every twice
    have length := plan.length_chunks stream
    unfold resent at length
    rw [twice, counted] at length
    refine ⟨?_, length⟩
    unfold chunks
    rw [twice]
    exact repeatEvery_eq every 1 arranged

/-- Five pieces, every second of which is sent before the rest, reach back over more than one piece;
the second and the fourth that are sent are sent twice. -/
theorem delivers_stream_interleaved :
    let plan : DeliveryPlan :=
      { chunkSize := 2, overlap := 3, order := .interleaved, duplicateEvery := some 2 }
    let stream : Bytes := [1, 2, 3, 4, 5, 6, 7, 8, 9]
    0 < plan.chunkSize ∧
      (plan.arranged stream).map (·.offset) = [0, 1, 5, 0, 3] ∧
      (plan.chunks stream).map (·.offset) = [0, 1, 1, 5, 0, 0, 3] ∧
      ∀ offset, Covered (plan.arranged stream) offset ↔ offset < 9 := by
  intro plan stream
  have cuts : 0 < plan.chunkSize := by decide
  obtain ⟨-, -, -, -, covered, -, -⟩ := delivers_stream plan stream cuts
  exact ⟨cuts, by decide, by decide, covered⟩

end DeliveryPlan

end Gapless
