/-
# Gapless.Proofs.Changes -- a store through insertions and trims

A store may be changed in any order by insertions and by trims (`Store.Change`), wherever
they lie.  An empty segment is a segment like any other: it may touch another one, start where
another one does, or lie right at the offset of a trim, and the gaps keep it apart.

One change keeps a store sound (`Sound.change`), hence so does a run of them
(`Sound.after`).  When none of them brings an empty segment, none is ever stored
(`full_after`).

Segments with gaps between them have starts of their own, so a segment is known by its start:
a look-up from either side finds it there (`floor?_start`, `ceiling?_start`).
-/
import Gapless.Proofs.Sound

namespace Gapless.Store

set_option autoImplicit false

/-! ## Look-ups at a start -/

section Start

variable {store : Store} (separated : Separated store.segments) {segment : Segment}
  (member : segment ∈ store.segments)

include separated member

/-- The lower neighbour of the start of a segment is the segment. -/
theorem floor?_start : store.floor? segment.start = some segment := by
  cases found : store.floor? segment.start with
  | none =>
      have := (floor?_eq_none_iff separated).1 found segment member
      omega
  | some floor =>
      obtain ⟨-, reached, rest⟩ := floor?_spec separated found
      rcases rest segment member (Nat.le_refl _) with rfl | below
      · rfl
      · have := segment.start_le_stop
        omega

/-- So is the upper one. -/
theorem ceiling?_start : store.ceiling? segment.start = some segment := by
  rw [ceiling?_eq separated]
  cases found : store.segments.find? (segment.start ≤ ·.start) with
  | none =>
      have missed := List.find?_eq_none.1 found segment member
      simp at missed
  | some ceiling =>
      obtain ⟨reached, before, behind, split, short⟩ := List.find?_eq_some_iff_append.1 found
      rw [decide_eq_true_eq] at reached
      rw [split] at member separated
      rcases List.mem_append.1 member with inFront | fromHere
      · have := short segment inFront
        simp at this
      · rcases List.mem_cons.1 fromHere with rfl | later
        · rfl
        · have apart := (List.pairwise_append.1 separated).2.1
          have := (List.pairwise_cons.1 apart).1 segment later
          have := ceiling.start_le_stop
          omega

end Start

/-! ## Changes -/

/-- What can be done to a store.  A segment comes to it from `Segment.at?`. -/
inductive Change where
  | insert (incoming : Segment) (made : Segment.at? incoming.start incoming.data = .ok incoming)
  /-- Plan an insertion first, and carry out the plan then. -/
  | carryOut (incoming : Segment) (made : Segment.at? incoming.start incoming.data = .ok incoming)
  | trim (offset : Nat)

/-- The segment that a change brings. -/
def Change.incoming? : Change → Option Segment
  | .insert incoming _ => some incoming
  | .carryOut incoming _ => some incoming
  | .trim _ => none

def change (store : Store) : Change → Store
  | .insert incoming _ => (store.insert incoming).state
  | .carryOut incoming _ =>
      let plan := store.planMerge incoming
      (store.apply plan incoming).state
  | .trim offset => store.trimBelow offset

/-- The store after some changes, one after another. -/
def after (store : Store) (changes : List Change) : Store := changes.foldl change store

theorem after_cons (store : Store) (change : Change) (changes : List Change) :
    store.after (change :: changes) = (store.change change).after changes := rfl

theorem Sound.change {store : Store} (sound : store.Sound) (change : Change) :
    (store.change change).Sound := by
  cases change with
  | insert incoming made => exact sound.insert (Segment.at?_eq_ok_iff.1 made).2
  | carryOut incoming made => exact sound.insert (Segment.at?_eq_ok_iff.1 made).2
  | trim offset => exact sound.trimBelow offset

/-- **A store stays sound**, whatever is done to it. -/
theorem Sound.after {store : Store} (sound : store.Sound) (changes : List Change) :
    (store.after changes).Sound := by
  induction changes generalizing store with
  | nil => exact sound
  | cons change changes ih =>
      rw [after_cons]
      exact ih (sound.change change)

/-! ## Empty segments -/

/-- A change does not bring an empty segment. -/
def Change.Full (change : Change) : Prop :=
  ∀ incoming ∈ change.incoming?, incoming.start < incoming.stop

instance : DecidablePred Change.Full := fun change =>
  inferInstanceAs (Decidable (∀ incoming ∈ change.incoming?, _))

theorem full_change {store : Store} (sound : store.Sound)
    (full : ∀ segment ∈ store.segments, segment.start < segment.stop) {change : Change}
    (brings : change.Full) :
    ∀ segment ∈ (store.change change).segments, segment.start < segment.stop := by
  cases change with
  | insert incoming made => exact full_insert sound.separated full (brings incoming rfl)
  | carryOut incoming made => exact full_insert sound.separated full (brings incoming rfl)
  | trim offset => exact full_trimBelow sound.separated full offset

/-- Where no empty segment is brought, none is stored. -/
theorem full_after {store : Store} (sound : store.Sound)
    (full : ∀ segment ∈ store.segments, segment.start < segment.stop) {changes : List Change}
    (brings : ∀ change ∈ changes, change.Full) :
    ∀ segment ∈ (store.after changes).segments, segment.start < segment.stop := by
  induction changes generalizing store with
  | nil => exact full
  | cons change changes ih =>
      obtain ⟨first, rest⟩ := List.forall_mem_cons.1 brings
      rw [after_cons]
      exact ih (sound.change change) (full_change sound full first) rest

/-! ## The order of a store -/

/-- What every store is like that changes have led to. -/
structure InOrder (store : Store) : Prop where
  /-- A segment is found at its start, and no other one is. -/
  keyed : ∀ segment ∈ store.segments,
    store.floor? segment.start = some segment ∧ store.ceiling? segment.start = some segment
  apart : store.segments.Pairwise fun one next => one.stop < next.start
  bounded : ∀ segment ∈ store.segments, segment.start + segment.data.length ≤ maxOffset
  count : store.count = store.segments.length
  held : store.held = totalOf (·.data.length) store.segments
  /-- Right after a trim nothing begins below its offset. -/
  trimmed : ∀ offset, ∀ segment ∈ (store.trimBelow offset).segments, offset ≤ segment.start

theorem Sound.inOrder {store : Store} (sound : store.Sound) : store.InOrder where
  keyed _ member := ⟨floor?_start sound.separated member, ceiling?_start sound.separated member⟩
  apart := sound.separated
  bounded segment member := by
    rw [← segment.stop_eq]
    exact sound.bounded segment member
  count := sound.counted.1
  held := by
    rw [sound.counted.2]
    exact congrArg (totalOf · _) (funext Segment.length_eq)
  trimmed := le_start_trimBelow sound.separated

/-- **The segments of a store stay in order and apart, and its numbers right**, through all
that is inserted into it and trimmed from it. -/
theorem changes_keep_order (changes : List Change) :
    (empty.after changes).InOrder ∧
      ((∀ change ∈ changes, change.Full) →
        ∀ segment ∈ (empty.after changes).segments, segment.data ≠ []) := by
  refine ⟨(sound_empty.after changes).inOrder, ?_⟩
  intro brings segment member nothing
  have atFirst : ∀ segment ∈ empty.segments, segment.start < segment.stop := by
    intro segment member
    cases member
  have full := full_after sound_empty atFirst brings segment member
  rw [segment.stop_eq, nothing] at full
  simp at full

/-- Two segments are bridged by a third one, and a trim cuts what they make. -/
theorem changes_keep_order_bridging :
    let changes : List Change :=
      [.insert ⟨0, [1, 2, 3], 3, rfl⟩ rfl, .insert ⟨5, [6, 7], 7, rfl⟩ rfl,
        .carryOut ⟨3, [4, 5], 5, rfl⟩ rfl, .insert ⟨9, [10], 10, rfl⟩ rfl, .trim 2]
    (∀ change ∈ changes, change.Full) ∧
      (empty.after changes).segments = [⟨2, [3, 4, 5, 6, 7], 7, rfl⟩, ⟨9, [10], 10, rfl⟩] ∧
      (empty.after changes).InOrder ∧
      ∀ segment ∈ (empty.after changes).segments, segment.data ≠ [] := by
  intro changes
  have brings : ∀ change ∈ changes, change.Full := by decide
  obtain ⟨inOrder, full⟩ := changes_keep_order changes
  exact ⟨brings, by decide, inOrder, full brings⟩

end Gapless.Store
