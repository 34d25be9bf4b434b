/-
# Gapless.Proofs.Trimming -- letting go of the bytes below an offset and of no others

What trimming leaves of a segment ends where the segment did and starts no earlier
(`Store.trimSegment_spec`), so gaps stay gaps and a segment that held a byte and is still
there holds one.  The bytes that go are those below the offset (`Store.bytes_trimBelow`),
and the numbers that a store keeps go down by just as much (`Store.counted_trimBelow`).
-/
import Gapless.Proofs.Separation
import Gapless.Store.Trim

namespace Gapless.Store

set_option autoImplicit false

theorem trimSegment_spec {offset : Nat} {segment left : Segment}
    (kept : trimSegment offset segment = some left) :
    left.stop = segment.stop ∧ segment.start ≤ left.start ∧ offset ≤ left.start ∧
      (segment.start < segment.stop → left.start < left.stop) := by
  unfold trimSegment Segment.clipBelow at kept
  split at kept
  · next stale =>
      split at kept
      · cases kept
      · rw [dif_neg (Nat.not_le.2 stale)] at kept
        cases kept
        exact ⟨rfl, Nat.le_of_lt stale, Nat.le_refl _, fun _ => by dsimp only; omega⟩
  · next fresh =>
      cases kept
      exact ⟨rfl, Nat.le_refl _, Nat.le_of_not_lt fresh, id⟩

/-- The bytes that a list of segments loses and those that are left add up. -/
theorem totalOf_trim (offset : Nat) (segments : List Segment) :
    totalOf Segment.length (segments.filterMap (trimSegment offset)) +
        totalOf (trimLoss offset) segments = totalOf Segment.length segments := by
  induction segments with
  | nil => rfl
  | cons segment rest ih =>
      have head := trimLoss_add offset segment
      rw [List.filterMap_cons, totalOf, totalOf]
      cases kept : trimSegment offset segment with
      | none =>
          rw [kept, Option.map_none, Option.getD_none] at head
          dsimp only
          omega
      | some left =>
          rw [kept, Option.map_some, Option.getD_some] at head
          dsimp only
          rw [totalOf]
          omega

section Trim

variable {store : Store} (separated : Separated store.segments) (offset : Nat)

include separated

theorem mem_trimBelow {left : Segment} :
    left ∈ (store.trimBelow offset).segments ↔
      ∃ segment ∈ store.segments, trimSegment offset segment = some left := by
  rw [segments_trimBelow separated.sorted, List.mem_filterMap]

theorem separated_trimBelow : Separated (store.trimBelow offset).segments := by
  rw [segments_trimBelow separated.sorted]
  refine List.Pairwise.filterMap _ (fun one other apart left kept right keptToo => ?_) separated
  have := trimSegment_spec kept
  have := trimSegment_spec keptToo
  omega

/-- Segments that start at or above the offset lose nothing. -/
theorem lossBelow_eq : store.lossBelow offset = totalOf (trimLoss offset) store.segments := by
  have parts := Shelf.toList_split_append offset store.shelf
  have nothing : totalOf (trimLoss offset) (store.shelf.split offset).2.toList = 0 := by
    rw [(Shelf.toList_split offset separated.sorted).2]
    change totalOf (trimLoss offset) (store.segments.filter (offset ≤ ·.start)) = 0
    induction store.segments with
    | nil => rfl
    | cons segment rest ih =>
        rw [List.filter_cons]
        split
        · next above =>
            rw [decide_eq_true_eq] at above
            rw [totalOf, ih, trimLoss, Nat.sub_eq_zero_of_le above, Nat.zero_min]
        · exact ih
  rw [segments, ← parts, totalOf_append, nothing]
  rfl

theorem counted_trimBelow (counted : store.Counted) : (store.trimBelow offset).Counted := by
  obtain ⟨count, held⟩ := counted
  have loss := lossBelow_eq separated offset
  have totals := totalOf_trim offset store.segments
  have after := segments_trimBelow separated.sorted offset
  refine ⟨?_, ?_⟩
  · have parts := congrArg List.length (Shelf.toList_split_append offset store.shelf)
    rw [List.length_append] at parts
    unfold segments at count
    unfold trimBelow segments
    rw [Shelf.toList_join, Shelf.toList_ofList, List.length_append]
    dsimp only
    omega
  · have heldAfter : (store.trimBelow offset).held = store.held - store.lossBelow offset := rfl
    rw [after]
    omega

theorem bytes_trimBelow : (store.trimBelow offset).bytes = store.bytes.above offset :=
  ByteMap.eq_of_byteAt? fun other => byteAt?_trimBelow separated.sorted offset other

end Trim

end Gapless.Store
