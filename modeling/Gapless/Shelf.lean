/-
# Gapless.Shelf -- segments in the order of their starts

A shelf keeps segments so that it can be taken apart at an offset and put together
again without going through all of them.  It is a search tree by start in which no
segment has a lower rank than those below it.  Ranks are starts put out of order, so
that starts at regular distances, the usual case, make no long branch.

The shape of the tree means nothing: a shelf is read as the list of its segments
(`Shelf.toList`), and the lemmas say what the operations do to that list.  Joining
needs no assumption; what is said of an offset needs the segments to be in order
(`Shelf.Sorted`).
-/
import Gapless.Segment

namespace Gapless

set_option autoImplicit false

inductive Shelf where
  | empty
  | node (lower : Shelf) (segment : Segment) (upper : Shelf)
  deriving DecidableEq

namespace Shelf

def toList : Shelf → List Segment
  | .empty => []
  | .node lower segment upper => lower.toList ++ segment :: upper.toList

/-- Segments in the order of their starts, no two of which are the same. -/
def Sorted (segments : List Segment) : Prop :=
  segments.Pairwise fun left right => left.start < right.start

/-! ## Putting together -/

/-- The rank of a segment with this start. -/
def rank (start : Nat) : Nat := start * 2654435769 % 4294967296

/-- Put a segment with what lies below it to the left of a shelf.  `finish` puts what
lies above the segment to the left of the part of the shelf that comes under it. -/
def hang (lower : Shelf) (segment : Segment) (finish : Shelf → Shelf) : Shelf → Shelf
  | .empty => .node lower segment (finish .empty)
  | .node left other right =>
      if rank other.start < rank segment.start then
        .node lower segment (finish (.node left other right))
      else .node (hang lower segment finish left) other right

/-- One shelf of two, the segments of the second after those of the first. -/
def join : Shelf → Shelf → Shelf
  | .empty, upper => upper
  | .node lower segment rest, upper => hang lower segment rest.join upper

def single (segment : Segment) : Shelf := .node .empty segment .empty

def ofList (segments : List Segment) : Shelf :=
  segments.foldr (fun segment rest => (single segment).join rest) .empty

/-! ## Taking apart -/

/-- The segments that start below `offset`, and those that start at or above it. -/
def split (offset : Nat) : Shelf → Shelf × Shelf
  | .empty => (.empty, .empty)
  | .node lower segment upper =>
      if segment.start < offset then
        let (near, far) := upper.split offset
        (.node lower segment near, far)
      else
        let (near, far) := lower.split offset
        (near, .node far segment upper)

/-- The last segment that starts at or before `offset`. -/
def floor? (offset : Nat) : Shelf → Option Segment
  | .empty => none
  | .node lower segment upper =>
      if segment.start ≤ offset then (upper.floor? offset).or (some segment)
      else lower.floor? offset

/-- The first segment that starts at or after `offset`. -/
def ceiling? (offset : Nat) : Shelf → Option Segment
  | .empty => none
  | .node lower segment upper =>
      if offset ≤ segment.start then (lower.ceiling? offset).or (some segment)
      else upper.ceiling? offset

/-! ## What they do to the list -/

theorem toList_hang (lower : Shelf) (segment : Segment) {finish : Shelf → Shelf}
    {rest : List Segment} (finished : ∀ shelf, (finish shelf).toList = rest ++ shelf.toList)
    (shelf : Shelf) :
    (hang lower segment finish shelf).toList =
      lower.toList ++ segment :: (rest ++ shelf.toList) := by
  induction shelf with
  | empty => exact congrArg (lower.toList ++ segment :: ·) (finished .empty)
  | node left other right ih _ =>
      rw [hang]
      split
      · rw [toList, finished]
      · rw [toList, ih, toList]
        simp only [List.append_assoc, List.cons_append]

theorem toList_join (lower upper : Shelf) :
    (lower.join upper).toList = lower.toList ++ upper.toList := by
  induction lower generalizing upper with
  | empty => rfl
  | node left segment rest _ ih =>
      rw [join, toList_hang left segment ih, toList, List.append_assoc, List.cons_append]

theorem toList_single (segment : Segment) : (single segment).toList = [segment] := rfl

theorem toList_ofList (segments : List Segment) : (ofList segments).toList = segments := by
  induction segments with
  | nil => rfl
  | cons segment rest ih =>
      rw [ofList, List.foldr_cons, toList_join, toList_single]
      exact congrArg (segment :: ·) ih

/-- The lower part, a segment and the upper part of an ordered shelf. -/
theorem sorted_node {lower upper : Shelf} {segment : Segment}
    (sorted : Sorted (Shelf.node lower segment upper).toList) :
    Sorted lower.toList ∧ Sorted upper.toList ∧
      (∀ other ∈ lower.toList, other.start < segment.start) ∧
      ∀ other ∈ upper.toList, segment.start < other.start := by
  unfold Sorted at sorted
  rw [toList, List.pairwise_append, List.pairwise_cons] at sorted
  obtain ⟨below, ⟨behind, above⟩, across⟩ := sorted
  exact ⟨below, above, fun other member => across other member segment List.mem_cons_self, behind⟩

/-- Nothing is lost when a shelf is taken apart. -/
theorem toList_split_append (offset : Nat) (shelf : Shelf) :
    (shelf.split offset).1.toList ++ (shelf.split offset).2.toList = shelf.toList := by
  induction shelf with
  | empty => rfl
  | node lower segment upper below above =>
      rw [split]
      split
      · rw [toList, toList, List.append_assoc, List.cons_append, above]
      · rw [toList, toList, ← List.append_assoc, below]

theorem toList_split (offset : Nat) {shelf : Shelf} (sorted : Sorted shelf.toList) :
    (shelf.split offset).1.toList = shelf.toList.filter (·.start < offset) ∧
      (shelf.split offset).2.toList = shelf.toList.filter (offset ≤ ·.start) := by
  induction shelf with
  | empty => exact ⟨rfl, rfl⟩
  | node lower segment upper below above =>
      obtain ⟨sortedLower, sortedUpper, lowerLess, upperMore⟩ := sorted_node sorted
      rw [split, toList, List.filter_append, List.filter_append]
      split
      · next less =>
          have whole : lower.toList.filter (·.start < offset) = lower.toList :=
            List.filter_eq_self.2 fun other member =>
              decide_eq_true (Nat.lt_trans (lowerLess other member) less)
          have none : lower.toList.filter (offset ≤ ·.start) = [] :=
            List.filter_eq_nil_iff.2 fun other member => by
              have := lowerLess other member
              rw [decide_eq_true_eq]; omega
          rw [whole, none, List.filter_cons_of_pos (by rw [decide_eq_true_eq]; exact less),
            List.filter_cons_of_neg (by rw [decide_eq_true_eq]; omega), List.nil_append]
          obtain ⟨near, far⟩ := above sortedUpper
          exact ⟨congrArg (lower.toList ++ segment :: ·) near, far⟩
      · next more =>
          have none : upper.toList.filter (·.start < offset) = [] :=
            List.filter_eq_nil_iff.2 fun other member => by
              have := upperMore other member
              rw [decide_eq_true_eq]; omega
          have whole : upper.toList.filter (offset ≤ ·.start) = upper.toList :=
            List.filter_eq_self.2 fun other member => by
              have := upperMore other member
              rw [decide_eq_true_eq]; omega
          rw [List.filter_cons_of_neg (by rw [decide_eq_true_eq]; exact more),
            List.filter_cons_of_pos (by rw [decide_eq_true_eq]; omega), whole, none,
            List.append_nil]
          obtain ⟨near, far⟩ := below sortedLower
          exact ⟨near, congrArg (· ++ segment :: upper.toList) far⟩

theorem floor?_eq (offset : Nat) {shelf : Shelf} (sorted : Sorted shelf.toList) :
    shelf.floor? offset = (shelf.toList.filter (·.start ≤ offset)).getLast? := by
  induction shelf with
  | empty => rfl
  | node lower segment upper below above =>
      obtain ⟨sortedLower, sortedUpper, _, upperMore⟩ := sorted_node sorted
      rw [floor?, toList, List.filter_append]
      split
      · next reached =>
          rw [List.filter_cons_of_pos (by rw [decide_eq_true_eq]; exact reached), above sortedUpper,
            List.getLast?_append, List.getLast?_cons]
          cases (upper.toList.filter (·.start ≤ offset)).getLast? <;> rfl
      · next missed =>
          have none : upper.toList.filter (·.start ≤ offset) = [] :=
            List.filter_eq_nil_iff.2 fun other member => by
              have := upperMore other member
              rw [decide_eq_true_eq]; omega
          rw [List.filter_cons_of_neg (by rw [decide_eq_true_eq]; exact missed), none,
            List.append_nil, below sortedLower]

theorem ceiling?_eq (offset : Nat) {shelf : Shelf} (sorted : Sorted shelf.toList) :
    shelf.ceiling? offset = shelf.toList.find? (offset ≤ ·.start) := by
  induction shelf with
  | empty => rfl
  | node lower segment upper below above =>
      obtain ⟨sortedLower, sortedUpper, lowerLess, _⟩ := sorted_node sorted
      rw [ceiling?, toList, List.find?_append]
      split
      · next reached =>
          rw [List.find?_cons_of_pos (by rw [decide_eq_true_eq]; exact reached), below sortedLower]
      · next missed =>
          have none : lower.toList.find? (offset ≤ ·.start) = none :=
            List.find?_eq_none.2 fun other member => by
              have := lowerLess other member
              rw [decide_eq_true_eq]; omega
          rw [List.find?_cons_of_neg (by rw [decide_eq_true_eq]; exact missed), none,
            Option.none_or, above sortedUpper]

end Shelf

end Gapless
