/-
# Gapless.Store -- the bytes held, as few segments as possible

A store keeps its segments on a shelf, any two of them with a gap between
(`Store.Separated`), and beside them their number and the number of bytes they hold.
Because of the gaps a question about an offset is settled by a single neighbour: the
last segment that starts at or before it (`Store.floor?`).

`Store.segments` lists the segments in order.  `Store.byteAt?` is the view through
which the operations of `Gapless.Store.Merge` and `Gapless.Store.Trim` are to be
read: the byte held at an offset, if any.
-/
import Gapless.Shelf

namespace Gapless

set_option autoImplicit false

structure Store where
  shelf : Shelf := .empty
  /-- The number of segments, kept up to date by every operation. -/
  count : Nat := 0
  /-- The number of bytes in all segments, kept up to date as well. -/
  held : Nat := 0
  deriving DecidableEq

namespace Store

/-! ## What a store holds -/

def empty : Store := {}

def segments (store : Store) : List Segment := store.shelf.toList

/-- The byte held at an offset. -/
def byteAt? (store : Store) (offset : Nat) : Option UInt8 :=
  store.segments.findSome? (·.byteAt? offset)

/-- Segments in order, with at least one missing offset between any two. -/
def Separated (segments : List Segment) : Prop :=
  segments.Pairwise fun left right => left.stop < right.start

/-- The numbers that a store keeps are those of its segments. -/
def Counted (store : Store) : Prop :=
  store.count = store.segments.length ∧ store.held = totalOf Segment.length store.segments

/-! ## Neighbours of an offset -/

/-- The last segment that starts at or before `offset`. -/
def floor? (store : Store) (offset : Nat) : Option Segment := store.shelf.floor? offset

/-- The first segment that starts at or after `offset`. -/
def ceiling? (store : Store) (offset : Nat) : Option Segment := store.shelf.ceiling? offset

/-- The segment that holds the byte at `offset`. -/
def covering? (store : Store) (offset : Nat) : Option Segment :=
  (store.floor? offset).filter (offset < ·.stop)

/-! ## Runs without a gap -/

/-- The segments that follow one another without a gap after `last`, at most
`rounds` of them. -/
def followers (store : Store) (last : Segment) : Nat → List Segment
  | 0 => []
  | rounds + 1 =>
      match (store.ceiling? (last.start + 1)).filter (·.start = last.stop) with
      | none => []
      | some next => next :: store.followers next rounds

/-- The segment that covers `offset` and those that continue it without a gap. -/
def runFrom (store : Store) (offset : Nat) : List Segment :=
  match store.covering? offset with
  | none => []
  | some first => first :: store.followers first store.count

/-! ## Order -/

/-- Separated segments are in the order of their starts. -/
theorem Separated.sorted {segments : List Segment} (separated : Separated segments) :
    Shelf.Sorted segments :=
  separated.imp fun {left _} apart => Nat.lt_of_le_of_lt left.start_le_stop apart

theorem floor?_eq {store : Store} (separated : Separated store.segments) (offset : Nat) :
    store.floor? offset = (store.segments.filter (·.start ≤ offset)).getLast? :=
  Shelf.floor?_eq offset separated.sorted

theorem ceiling?_eq {store : Store} (separated : Separated store.segments) (offset : Nat) :
    store.ceiling? offset = store.segments.find? (offset ≤ ·.start) :=
  Shelf.ceiling?_eq offset separated.sorted

end Store

end Gapless
