/-
# Gapless.Proofs.Inserting -- one segment in place of all that an insertion touches

An incoming segment and the stored ones that it overlaps or touches become a single segment
(`Segment.Unites`).  It begins where the first of them does and ends where the last one does.
At an incoming offset it holds the incoming byte, at any other one the byte that was stored
there, and there is no offset between its bounds that none of them held.

The segments that lie below or above all this keep their bytes and their places.
-/
import Gapless.Proofs.Changes
import Mathlib.Order.Bounds.Defs

namespace Gapless

set_option autoImplicit false

/-- A segment made of an incoming one and the stored ones it touches. -/
structure Segment.Unites (merged incoming : Segment) (touching : List Segment) : Prop where
  start : IsLeast {offset | offset ∈ (incoming :: touching).map (·.start)} merged.start
  stop : IsGreatest {offset | offset ∈ (incoming :: touching).map (·.stop)} merged.stop
  /-- The incoming bytes lie on top. -/
  top : ∀ offset, incoming.start ≤ offset → offset < incoming.stop →
    merged.byteAt? offset = incoming.byteAt? offset
  /-- Beside them the stored ones show. -/
  beside : ∀ segment ∈ touching, ∀ offset, segment.start ≤ offset → offset < segment.stop →
    ¬(incoming.start ≤ offset ∧ offset < incoming.stop) →
      merged.byteAt? offset = segment.byteAt? offset
  /-- There is nothing else in it. -/
  whole : ∀ offset, merged.start ≤ offset → offset < merged.stop →
    ∃ segment ∈ incoming :: touching, segment.start ≤ offset ∧ offset < segment.stop

namespace Merge.Spans

variable {merge : Merge} {incoming : Segment} (spans : merge.Spans incoming)

include spans

theorem isLeast_start :
    IsLeast {offset | offset ∈ (incoming :: merge.absorbed).map (·.start)} merge.start := by
  constructor
  · rcases spans.start_eq with same | ⟨first, absorbed, same⟩
    · exact List.mem_map.2 ⟨incoming, List.mem_cons_self, same.symm⟩
    · exact List.mem_map.2 ⟨first, List.mem_cons_of_mem _ absorbed, same⟩
  · intro offset within
    obtain ⟨segment, member, rfl⟩ := List.mem_map.1 within
    rcases List.mem_cons.1 member with rfl | absorbed
    · exact spans.start_le
    · exact spans.start_le_absorbed segment absorbed

theorem isGreatest_stop :
    IsGreatest {offset | offset ∈ (incoming :: merge.absorbed).map (·.stop)} merge.stop := by
  constructor
  · rcases spans.stop_eq with same | ⟨last, absorbed, same⟩
    · exact List.mem_map.2 ⟨incoming, List.mem_cons_self, same.symm⟩
    · exact List.mem_map.2 ⟨last, List.mem_cons_of_mem _ absorbed, same⟩
  · intro offset within
    obtain ⟨segment, member, rfl⟩ := List.mem_map.1 within
    rcases List.mem_cons.1 member with rfl | absorbed
    · exact spans.le_stop
    · exact spans.absorbed_le_stop segment absorbed

/-- A merge unites what it joins, if it takes in segments with gaps between them that all
touch the incoming one. -/
theorem unites (separated : Store.Separated merge.absorbed)
    (touching : ∀ segment ∈ merge.absorbed,
      incoming.start ≤ segment.stop ∧ segment.start ≤ incoming.stop) :
    (merge.segment incoming).Unites incoming merge.absorbed where
  start := by
    rw [start_segment]
    exact spans.isLeast_start
  stop := by
    rw [stop_segment spans]
    exact spans.isGreatest_stop
  top _ reached short := byteAt?_segment_incoming spans reached short
  beside _ absorbed _ reached short outside :=
    byteAt?_segment_absorbed spans separated absorbed reached short outside
  whole offset reached short := by
    rw [start_segment] at reached
    rw [stop_segment spans] at short
    rcases covered spans touching reached short with within | ⟨segment, absorbed, within⟩
    · exact ⟨incoming, List.mem_cons_self, within⟩
    · exact ⟨segment, List.mem_cons_of_mem _ absorbed, within⟩

end Merge.Spans

namespace Store

/-- That is so for a planned merge. -/
theorem unites_planMerge {store : Store} (separated : Separated store.segments)
    (incoming : Segment) :
    ((store.planMerge incoming).segment incoming).Unites incoming
      (store.planMerge incoming).absorbed := by
  apply (planMerge_spans separated incoming).unites
  · exact separated_absorbed separated incoming
  · exact absorbed_touching separated incoming

/-- **An insertion is exact.**  The plan lists the stored segments that overlap or touch the
incoming one, in order.  One segment takes their place, and the others stay. -/
theorem insert_exact (changes : List Change) (incoming : Segment) :
    let store := empty.after changes
    let below := store.segments.filter fun segment => segment.stop < incoming.start
    let touching := store.segments.filter fun segment =>
      segment.start ≤ incoming.stop ∧ incoming.start ≤ segment.stop
    let above := store.segments.filter fun segment => incoming.stop < segment.start
    (store.planMerge incoming).absorbed = touching ∧
      touching.Pairwise (fun one next => one.start < next.start) ∧
      store.segments = below ++ touching ++ above ∧
      ∃ merged : Segment, merged.Unites incoming touching ∧
        (store.insert incoming).state.segments = below ++ merged :: above := by
  intro store below touching above
  have separated : Separated store.segments := (sound_empty.after changes).separated
  have absorbed : (store.planMerge incoming).absorbed = touching := by
    rw [absorbed_planMerge separated]
    apply List.filter_congr
    intro segment _
    simp only [Segment.touches, and_comm]
  have ordered := List.Pairwise.filter (p := fun segment : Segment =>
    segment.start ≤ incoming.stop ∧ incoming.start ≤ segment.stop) separated.sorted
  have split := segments_split separated incoming
  have unites := unites_planMerge separated incoming
  rw [absorbed] at split unites
  refine ⟨absorbed, ordered, ?_, _, unites, segments_insert separated incoming⟩
  rw [List.append_assoc]
  exact split

end Store

end Gapless
