/-
# Gapless.Store.Trim -- letting go of what lies below an offset

Only segments that start below the offset are looked at.  Those that end at or
below it go, and one that reaches past it keeps its upper part.  A segment that
starts at the offset stays, even when it is empty.
-/
import Gapless.Store

namespace Gapless.Store

set_option autoImplicit false

/-- The bytes that trimming takes from one segment. -/
def trimLoss (offset : Nat) (segment : Segment) : Nat :=
  min (offset - segment.start) segment.length

/-- The segments that trimming at `offset` is about. -/
def startingBelow (store : Store) (offset : Nat) : List Segment :=
  (store.shelf.split offset).1.toList

/-- The bytes that trimming at `offset` takes away. -/
def lossBelow (store : Store) (offset : Nat) : Nat :=
  totalOf (trimLoss offset) (store.startingBelow offset)

/-- Take away every byte below `offset`. -/
def trimBelow (store : Store) (offset : Nat) : Store :=
  let (below, above) := store.shelf.split offset
  let left := below.toList.filterMap (·.clipBelow offset)
  { shelf := (Shelf.ofList left).join above
    count := store.count - below.toList.length + left.length
    held := store.held - store.lossBelow offset }

/-! ## What is left -/

/-- What trimming leaves of one segment. -/
def trimSegment (offset : Nat) (segment : Segment) : Option Segment :=
  if segment.start < offset then segment.clipBelow offset else some segment

/-- What is taken from a segment and what is left of it make up its length. -/
theorem trimLoss_add (offset : Nat) (segment : Segment) :
    trimLoss offset segment + ((trimSegment offset segment).map (·.length)).getD 0 =
      segment.length := by
  have := segment.start_le_stop
  unfold trimLoss trimSegment Segment.clipBelow Segment.length
  split
  · split
    · simp only [Option.map_none, Option.getD_none]; omega
    · rw [dif_neg (by omega)]
      simp only [Option.map_some, Option.getD_some]
      omega
  · simp only [Option.map_some, Option.getD_some]
    omega

theorem filterMap_eq_of_agree {items : List Segment} {one other : Segment → Option Segment}
    (agree : ∀ item ∈ items, one item = other item) :
    items.filterMap one = items.filterMap other := by
  induction items with
  | nil => rfl
  | cons item rest ih =>
      rw [List.filterMap_cons, List.filterMap_cons, agree item List.mem_cons_self,
        ih fun item member => agree item (List.mem_cons_of_mem _ member)]

/-- Trimming goes through the segments one by one. -/
theorem segments_trimBelow {store : Store} (sorted : Shelf.Sorted store.segments) (offset : Nat) :
    (store.trimBelow offset).segments = store.segments.filterMap (trimSegment offset) := by
  have parts := Shelf.toList_split offset sorted
  have whole : (store.trimBelow offset).segments =
      (store.shelf.split offset).1.toList.filterMap (·.clipBelow offset) ++
        (store.shelf.split offset).2.toList := by
    unfold trimBelow segments
    rw [Shelf.toList_join, Shelf.toList_ofList]
  have near : (store.shelf.split offset).1.toList.filterMap (·.clipBelow offset) =
      (store.shelf.split offset).1.toList.filterMap (trimSegment offset) := by
    refine filterMap_eq_of_agree fun segment member => ?_
    rw [parts.1, List.mem_filter, decide_eq_true_eq] at member
    rw [trimSegment, if_pos member.2]
  have far : (store.shelf.split offset).2.toList =
      (store.shelf.split offset).2.toList.filterMap (trimSegment offset) := by
    refine (List.filterMap_some.symm.trans (filterMap_eq_of_agree fun segment member => ?_))
    rw [parts.2, List.mem_filter, decide_eq_true_eq] at member
    rw [trimSegment, if_neg (Nat.not_lt.2 member.2)]
  rw [whole, near, far, ← List.filterMap_append, Shelf.toList_split_append]
  rfl

theorem byteAt?_trimSegment (below : Nat) (segment : Segment) (offset : Nat) :
    (trimSegment below segment).bind (·.byteAt? offset) =
      if below ≤ offset then segment.byteAt? offset else none := by
  unfold trimSegment
  split
  · exact segment.byteAt?_clipBelow below offset
  · rw [Option.bind_some]
    split
    · rfl
    · unfold Segment.byteAt?; rw [if_neg (by omega)]

/-- Trimming takes away the bytes below the offset and no others. -/
theorem byteAt?_trimBelow {store : Store} (sorted : Shelf.Sorted store.segments)
    (below offset : Nat) :
    (store.trimBelow below).byteAt? offset =
      if below ≤ offset then store.byteAt? offset else none := by
  unfold byteAt?
  rw [segments_trimBelow sorted]
  induction store.segments with
  | nil => simp
  | cons segment rest ih =>
      have one := byteAt?_trimSegment below segment offset
      rw [List.filterMap_cons, List.findSome?_cons]
      cases trimmed : trimSegment below segment with
      | none =>
          rw [trimmed, Option.bind_none] at one
          rw [ih]
          by_cases kept : below ≤ offset
          · rw [if_pos kept] at one
            rw [if_pos kept, if_pos kept, ← one]
          · rw [if_neg kept, if_neg kept]
      | some suffix =>
          rw [trimmed, Option.bind_some] at one
          rw [List.findSome?_cons, one, ih]
          by_cases kept : below ≤ offset <;> simp only [kept, if_true, if_false]

end Gapless.Store
