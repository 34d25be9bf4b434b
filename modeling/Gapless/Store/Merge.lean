/-
# Gapless.Store.Merge -- inserting a segment

An incoming segment joins every stored segment that it overlaps or touches.
Insertion comes in two steps, so that a caller can look at the outcome before
anything changes:

* `Store.planMerge` finds the segments that would be taken in and the range of
  the union.  The lower neighbour joins when it reaches the incoming start.  The
  segments after it join when they start at or before the end of what there is by
  then; only the last of them can reach any further, because of the gaps.
* `Store.apply` carries a plan out for the segment it was made for.  The incoming
  bytes lie on top of the stored ones, on whichever side those are.
-/
import Gapless.Journal
import Gapless.Store

namespace Gapless

set_option autoImplicit false

/-- What inserting a segment would take in, and the range it would make. -/
structure Merge where
  /-- The stored segments taken in, in order. -/
  absorbed : List Segment
  start : Nat
  stop : Nat
  deriving DecidableEq

namespace Merge

/-- The length of the segment that the merge makes. -/
def length (merge : Merge) : Nat := merge.stop - merge.start

/-- The bytes that the segments taken in hold. -/
def absorbedBytes (merge : Merge) : Nat := totalOf Segment.length merge.absorbed

/-- The segment that a merge leaves in place of those it takes in. -/
def segment (merge : Merge) (incoming : Segment) : Segment :=
  if merge.start = incoming.start ∧ merge.stop = incoming.stop then incoming
  else .fuse merge.start (merge.absorbed ++ [incoming])

end Merge

/-- How a merge that was carried out changed the store. -/
structure MergeOutcome where
  /-- Stored segments taken in. -/
  absorbed : Nat
  /-- Incoming bytes at offsets that were held already. -/
  overlap : Nat
  /-- Bytes by which the store grew. -/
  added : Nat
  deriving DecidableEq

namespace Store

/-- The segments that start below a range of offsets, in it (its end included), and
above it. -/
def around (store : Store) (start stop : Nat) : Shelf × Shelf × Shelf :=
  let (below, rest) := store.shelf.split start
  (below, rest.split (stop + 1))

/-- The merge that inserting `incoming` would carry out. -/
def planMerge (store : Store) (incoming : Segment) : Merge :=
  let lower := (store.floor? incoming.start).filter (incoming.start ≤ ·.stop)
  let start := (lower.map (·.start)).getD incoming.start
  let reach := (lower.map (max incoming.stop ·.stop)).getD incoming.stop
  let absorbed := (store.around start reach).2.1.toList
  { absorbed, start, stop := (absorbed.getLast?.map (max reach ·.stop)).getD reach }

/-- Carry out a merge planned for `incoming` in this store.  It takes the place of
all segments that start in its range. -/
def apply (store : Store) (merge : Merge) (incoming : Segment) : Step Store MergeOutcome :=
  let absorbed := merge.absorbed.length
  let merged := merge.segment incoming
  let (below, _, above) := store.around merge.start merge.stop
  { state :=
      { shelf := below.join ((Shelf.single merged).join above)
        count := store.count - absorbed + 1
        held := store.held - merge.absorbedBytes + merged.length }
    result :=
      { absorbed
        overlap := merge.absorbedBytes + incoming.length - merge.length
        added := merged.length - merge.absorbedBytes }
    events := [.merged merge.start merge.stop absorbed] }

/-- Insert a segment, merged with all that it overlaps or touches. -/
def insert (store : Store) (incoming : Segment) : Step Store MergeOutcome :=
  store.apply (store.planMerge incoming) incoming

/-! ## The segments after a merge -/

/-- The three parts of an ordered store by the starts of their segments. -/
theorem toList_around {store : Store} (sorted : Shelf.Sorted store.segments) {start stop : Nat}
    (range : start ≤ stop) :
    (store.around start stop).1.toList = store.segments.filter (·.start < start) ∧
    (store.around start stop).2.1.toList =
      store.segments.filter (fun segment => start ≤ segment.start ∧ segment.start ≤ stop) ∧
    (store.around start stop).2.2.toList = store.segments.filter (stop < ·.start) := by
  obtain ⟨below, rest⟩ := Shelf.toList_split start sorted
  have restSorted : Shelf.Sorted (store.shelf.split start).2.toList := by
    rw [rest]
    exact List.Pairwise.filter _ sorted
  obtain ⟨within, above⟩ := Shelf.toList_split (stop + 1) restSorted
  rw [rest, List.filter_filter] at within above
  refine ⟨below, within.trans ?_, above.trans ?_⟩
  · refine List.filter_congr fun segment _ => ?_
    rw [Bool.eq_iff_iff, Bool.and_eq_true, decide_eq_true_eq, decide_eq_true_eq, decide_eq_true_eq]
    omega
  · refine List.filter_congr fun segment _ => ?_
    rw [Bool.eq_iff_iff, Bool.and_eq_true, decide_eq_true_eq, decide_eq_true_eq, decide_eq_true_eq]
    omega

/-- A merge keeps what lies on either side of it and puts one segment in between. -/
theorem segments_apply {store : Store} (sorted : Shelf.Sorted store.segments) {merge : Merge}
    (range : merge.start ≤ merge.stop) (incoming : Segment) :
    (store.apply merge incoming).state.segments =
      store.segments.filter (·.start < merge.start) ++
        merge.segment incoming :: store.segments.filter (merge.stop < ·.start) := by
  obtain ⟨below, _, above⟩ := toList_around sorted range
  rw [← below, ← above]
  unfold apply segments
  rw [Shelf.toList_join, Shelf.toList_join, Shelf.toList_single]
  rfl

end Store

end Gapless
