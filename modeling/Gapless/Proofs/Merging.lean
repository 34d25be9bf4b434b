/-
# Gapless.Proofs.Merging -- inserting a segment sets its bytes and no others

The plan for an incoming segment takes in exactly the stored segments that overlap or
touch it (`Store.absorbed_planMerge`), and its range is the least one that holds them
all (`Store.planMerge_spans`).  There is no offset in that range that neither the
incoming segment nor one of those taken in holds (`Merge.covered`), so nothing of the
canvas on which they are laid over one another is left to see.

Hence an insertion replaces the segments it touches by a single one, the gaps stay
gaps, and the map of the bytes held changes by the incoming bytes (`Store.bytes_insert`).
-/
import Gapless.Proofs.Separation
import Gapless.Store.Merge

namespace Gapless

set_option autoImplicit false

/-! ## Laying segments over one another -/

namespace Segment

theorem stop_paint {canvas layer : Segment} (ordered : canvas.start ≤ layer.start) :
    (canvas.paint layer).stop = max canvas.stop layer.stop := by
  have := layer.start_le_stop
  unfold paint length
  dsimp only
  omega

/-- Where a layer lies, it shows. -/
theorem byteAt?_paint_layer {canvas layer : Segment} (ordered : canvas.start ≤ layer.start)
    {offset : Nat} (reached : layer.start ≤ offset) (short : offset < layer.stop) :
    (canvas.paint layer).byteAt? offset = layer.byteAt? offset := by
  have := layer.stop_eq
  unfold byteAt? paint
  dsimp only
  rw [if_pos (by omega), if_pos reached, getElem?_overlay, if_neg (by omega), if_pos (by omega)]
  congr 1
  omega

/-- Beside a layer, what was on the canvas shows. -/
theorem byteAt?_paint_canvas {canvas layer : Segment} (ordered : canvas.start ≤ layer.start)
    {offset : Nat} (outside : ¬(layer.start ≤ offset ∧ offset < layer.stop))
    (reached : canvas.start ≤ offset) (short : offset < canvas.stop) :
    (canvas.paint layer).byteAt? offset = canvas.byteAt? offset := by
  have := canvas.stop_eq
  have := layer.stop_eq
  unfold byteAt? paint
  dsimp only
  rw [if_pos reached, if_pos reached, getElem?_overlay]
  split
  · rw [if_pos (by omega)]
  · rw [if_neg (by omega)]

theorem fuse_append (start : Nat) (layers : List Segment) (top : Segment) :
    fuse start (layers ++ [top]) = (fuse start layers).paint top :=
  List.foldl_append

section Fuse

variable {start : Nat} {layers : List Segment}

/-- A fused segment ends where the layer that reaches furthest does. -/
theorem stop_fuse_le_iff (ordered : ∀ layer ∈ layers, start ≤ layer.start) {bound : Nat} :
    (fuse start layers).stop ≤ bound ↔ start ≤ bound ∧ ∀ layer ∈ layers, layer.stop ≤ bound := by
  induction layers using List.reverseRecOn with
  | nil => simp [fuse]
  | append_singleton layers top ih =>
      have below : ∀ layer ∈ layers, start ≤ layer.start := fun layer member =>
        ordered layer (List.mem_append_left _ member)
      have topOrdered : (fuse start layers).start ≤ top.start := by
        rw [start_fuse]
        exact ordered top (List.mem_append_right _ List.mem_cons_self)
      rw [fuse_append, stop_paint topOrdered, Nat.max_le, ih below]
      simp only [List.mem_append, List.mem_singleton, or_imp, forall_and, forall_eq, and_assoc]

/-- Of layers with gaps between them, each one shows in the fused segment. -/
theorem byteAt?_fuse (separated : Store.Separated layers)
    (ordered : ∀ layer ∈ layers, start ≤ layer.start) {layer : Segment} (member : layer ∈ layers)
    {offset : Nat} (reached : layer.start ≤ offset) (short : offset < layer.stop) :
    (fuse start layers).byteAt? offset = layer.byteAt? offset := by
  induction layers using List.reverseRecOn with
  | nil => cases member
  | append_singleton layers top ih =>
      obtain ⟨belowSeparated, -, apart⟩ := List.pairwise_append.1 separated
      have below : ∀ other ∈ layers, start ≤ other.start := fun other inBelow =>
        ordered other (List.mem_append_left _ inBelow)
      have topOrdered : (fuse start layers).start ≤ top.start := by
        rw [start_fuse]
        exact ordered top (List.mem_append_right _ List.mem_cons_self)
      rw [fuse_append]
      rcases List.mem_append.1 member with inBelow | isTop
      · have behind := apart layer inBelow top List.mem_cons_self
        have lowest : start ≤ offset := Nat.le_trans (below layer inBelow) reached
        have furthest : layer.stop ≤ (fuse start layers).stop :=
          ((stop_fuse_le_iff below).1 (Nat.le_refl _)).2 layer inBelow
        rw [byteAt?_paint_canvas topOrdered (by omega) (by rwa [start_fuse]) (by omega)]
        exact ih belowSeparated below inBelow
      · obtain rfl := List.mem_singleton.1 isTop
        exact byteAt?_paint_layer topOrdered reached short

end Fuse

/-- Whether two segments overlap or lie next to each other. -/
def touches (one other : Segment) : Bool :=
  decide (one.start ≤ other.stop ∧ other.start ≤ one.stop)

theorem touches_iff {one other : Segment} :
    one.touches other ↔ one.start ≤ other.stop ∧ other.start ≤ one.stop := by
  simp [touches]

end Segment

/-! ## The plan -/

/-- The range of a merge is the least one that holds the incoming segment and all that
are taken in. -/
structure Merge.Spans (merge : Merge) (incoming : Segment) : Prop where
  start_le : merge.start ≤ incoming.start
  le_stop : incoming.stop ≤ merge.stop
  start_le_absorbed : ∀ segment ∈ merge.absorbed, merge.start ≤ segment.start
  absorbed_le_stop : ∀ segment ∈ merge.absorbed, segment.stop ≤ merge.stop
  start_eq : merge.start = incoming.start ∨ ∃ segment ∈ merge.absorbed, segment.start = merge.start
  stop_eq : merge.stop = incoming.stop ∨ ∃ segment ∈ merge.absorbed, segment.stop = merge.stop

theorem Merge.Spans.ordered {merge : Merge} {incoming : Segment} (spans : merge.Spans incoming) :
    merge.start ≤ merge.stop := by
  have := spans.start_le
  have := spans.le_stop
  have := incoming.start_le_stop
  omega

namespace Store

section Plan

variable {store : Store} (separated : Separated store.segments) (incoming : Segment)

include separated

/-- A lower neighbour that joins is stored and reaches the incoming segment. -/
theorem lower_joins {lower : Segment}
    (found : (store.floor? incoming.start).filter (incoming.start ≤ ·.stop) = some lower) :
    lower ∈ store.segments ∧ lower.start ≤ incoming.start ∧ incoming.start ≤ lower.stop := by
  rw [Option.filter_eq_some_iff, decide_eq_true_eq] at found
  obtain ⟨member, low, -⟩ := floor?_spec separated found.1
  exact ⟨member, low, found.2⟩

/-- When the lower neighbour does not join, nothing below the incoming segment does. -/
theorem below_apart
    (found : (store.floor? incoming.start).filter (incoming.start ≤ ·.stop) = none) :
    ∀ segment ∈ store.segments, segment.start ≤ incoming.start → segment.stop < incoming.start := by
  intro segment member reached
  rw [Option.filter_eq_none_iff] at found
  cases floorFound : store.floor? incoming.start with
  | none =>
      have := (floor?_eq_none_iff separated).1 floorFound segment member
      omega
  | some floor =>
      have short := found floor floorFound
      rw [decide_eq_true_eq] at short
      have := floor.start_le_stop
      obtain ⟨-, -, rest⟩ := floor?_spec separated floorFound
      rcases rest segment member reached with rfl | below <;> omega

/-- The plan takes in exactly the segments that overlap or touch the incoming one. -/
theorem absorbed_planMerge :
    (store.planMerge incoming).absorbed = store.segments.filter incoming.touches := by
  have reach := incoming.start_le_stop
  unfold planMerge
  dsimp only
  cases found : (store.floor? incoming.start).filter (incoming.start ≤ ·.stop) with
  | none =>
      simp only [Option.map_none, Option.getD_none]
      rw [(toList_around separated.sorted reach).2.1]
      refine List.filter_congr fun segment member => ?_
      rw [Bool.eq_iff_iff, decide_eq_true_eq, Segment.touches_iff]
      have := segment.start_le_stop
      have := below_apart separated incoming found segment member
      omega
  | some floor =>
      obtain ⟨floorMember, low, reaches⟩ := lower_joins separated incoming found
      simp only [Option.map_some, Option.getD_some]
      rw [(toList_around separated.sorted (by omega)).2.1]
      refine List.filter_congr fun segment member => ?_
      rw [Bool.eq_iff_iff, decide_eq_true_eq, Segment.touches_iff]
      have := segment.start_le_stop
      rcases separated.apart member floorMember with rfl | apart | apart <;> omega

theorem mem_absorbed {segment : Segment} :
    segment ∈ (store.planMerge incoming).absorbed ↔
      segment ∈ store.segments ∧ incoming.start ≤ segment.stop ∧ segment.start ≤ incoming.stop := by
  rw [absorbed_planMerge separated, List.mem_filter, Segment.touches_iff]

theorem absorbed_sublist : (store.planMerge incoming).absorbed.Sublist store.segments := by
  rw [absorbed_planMerge separated]
  exact List.filter_sublist

theorem separated_absorbed : Separated (store.planMerge incoming).absorbed :=
  separated.sublist (absorbed_sublist separated incoming)

theorem absorbed_touching : ∀ segment ∈ (store.planMerge incoming).absorbed,
    incoming.start ≤ segment.stop ∧ segment.start ≤ incoming.stop := by
  intro segment absorbed
  exact ((mem_absorbed separated incoming).1 absorbed).2

theorem lower_mem_absorbed {lower : Segment}
    (found : (store.floor? incoming.start).filter (incoming.start ≤ ·.stop) = some lower) :
    lower ∈ (store.planMerge incoming).absorbed := by
  obtain ⟨member, low, reaches⟩ := lower_joins separated incoming found
  exact (mem_absorbed separated incoming).2
    ⟨member, reaches, Nat.le_trans low incoming.start_le_stop⟩

/-- The last segment taken in is the one that reaches furthest. -/
theorem last_absorbed_le {last : Segment}
    (isLast : (store.planMerge incoming).absorbed.getLast? = some last) :
    ∀ segment ∈ (store.planMerge incoming).absorbed, segment.stop ≤ last.stop := by
  intro segment member
  have apart := separated_absorbed separated incoming
  obtain ⟨front, split⟩ := List.getLast?_eq_some_iff.1 isLast
  rw [split] at member apart
  rcases List.mem_append.1 member with inFront | isLast
  · have := (List.pairwise_append.1 apart).2.2 segment inFront last List.mem_cons_self
    have := last.start_le_stop
    omega
  · rw [List.mem_singleton.1 isLast]

/-- The merge starts at the least of the starts of what it joins. -/
theorem start_planMerge :
    (store.planMerge incoming).start ≤ incoming.start ∧
      (∀ segment ∈ (store.planMerge incoming).absorbed,
        (store.planMerge incoming).start ≤ segment.start) ∧
      ((store.planMerge incoming).start = incoming.start ∨
        ∃ segment ∈ (store.planMerge incoming).absorbed,
          segment.start = (store.planMerge incoming).start) := by
  have start : (store.planMerge incoming).start =
      (((store.floor? incoming.start).filter (incoming.start ≤ ·.stop)).map (·.start)).getD
        incoming.start := rfl
  cases found : (store.floor? incoming.start).filter (incoming.start ≤ ·.stop) with
  | none =>
      rw [found, Option.map_none, Option.getD_none] at start
      refine ⟨Nat.le_of_eq start, fun segment member => ?_, Or.inl start⟩
      obtain ⟨inStore, reaches, -⟩ := (mem_absorbed separated incoming).1 member
      have := below_apart separated incoming found segment inStore
      omega
  | some floor =>
      rw [found, Option.map_some, Option.getD_some] at start
      obtain ⟨floorMember, low, reaches⟩ := lower_joins separated incoming found
      have floorAbsorbed := lower_mem_absorbed separated incoming found
      refine ⟨by omega, fun segment member => ?_, Or.inr ⟨floor, floorAbsorbed, start.symm⟩⟩
      obtain ⟨inStore, segmentReaches, -⟩ := (mem_absorbed separated incoming).1 member
      have := segment.start_le_stop
      rcases separated.apart inStore floorMember with rfl | apart | apart <;> omega

/-- The merge ends at the greatest of the ends of what it joins. -/
theorem stop_planMerge :
    incoming.stop ≤ (store.planMerge incoming).stop ∧
      (∀ segment ∈ (store.planMerge incoming).absorbed,
        segment.stop ≤ (store.planMerge incoming).stop) ∧
      ((store.planMerge incoming).stop = incoming.stop ∨
        ∃ segment ∈ (store.planMerge incoming).absorbed,
          segment.stop = (store.planMerge incoming).stop) := by
  have stop : (store.planMerge incoming).stop =
      ((store.planMerge incoming).absorbed.getLast?.map (max
        ((((store.floor? incoming.start).filter (incoming.start ≤ ·.stop)).map
          (max incoming.stop ·.stop)).getD incoming.stop) ·.stop)).getD
        ((((store.floor? incoming.start).filter (incoming.start ≤ ·.stop)).map
          (max incoming.stop ·.stop)).getD incoming.stop) := rfl
  cases isLast : (store.planMerge incoming).absorbed.getLast? with
  | none =>
      -- A lower neighbour that joined would be among those taken in, and there are none.
      have nothing := List.getLast?_eq_none_iff.1 isLast
      have alone : (store.floor? incoming.start).filter (incoming.start ≤ ·.stop) = none := by
        by_contra joined
        obtain ⟨floor, found⟩ := Option.ne_none_iff_exists'.1 joined
        have absorbed := lower_mem_absorbed separated incoming found
        rw [nothing] at absorbed
        cases absorbed
      rw [isLast, alone] at stop
      simp only [Option.map_none, Option.getD_none] at stop
      refine ⟨Nat.le_of_eq stop.symm, fun segment member => ?_, Or.inl stop⟩
      rw [nothing] at member
      cases member
  | some last =>
      have furthest := last_absorbed_le separated incoming isLast
      have lastAbsorbed := List.mem_of_getLast? isLast
      have whole : (store.planMerge incoming).stop = max incoming.stop last.stop := by
        rw [stop, isLast, Option.map_some, Option.getD_some]
        cases found : (store.floor? incoming.start).filter (incoming.start ≤ ·.stop) with
        | none => rfl
        | some floor =>
            have := furthest floor (lower_mem_absorbed separated incoming found)
            simp only [Option.map_some, Option.getD_some]
            omega
      rw [whole]
      refine ⟨by omega, fun segment member => ?_, ?_⟩
      · have := furthest segment member
        omega
      · rcases Nat.le_total last.stop incoming.stop with short | long
        · exact Or.inl (by omega)
        · exact Or.inr ⟨last, lastAbsorbed, by omega⟩

theorem planMerge_spans : (store.planMerge incoming).Spans incoming := by
  obtain ⟨startLe, startLeAbsorbed, startEq⟩ := start_planMerge separated incoming
  obtain ⟨leStop, absorbedLeStop, stopEq⟩ := stop_planMerge separated incoming
  exact ⟨startLe, leStop, startLeAbsorbed, absorbedLeStop, startEq, stopEq⟩

end Plan

end Store

/-! ## The segment that a merge makes -/

namespace Merge

theorem start_segment (merge : Merge) (incoming : Segment) :
    (merge.segment incoming).start = merge.start := by
  unfold segment
  split
  · next same => exact same.1.symm
  · exact Segment.start_fuse _ _

variable {merge : Merge} {incoming : Segment} (spans : merge.Spans incoming)

include spans

/-- Every offset in the range of a merge of segments that touch the incoming one is held
by that one or by one of those taken in. -/
theorem covered
    (touching : ∀ segment ∈ merge.absorbed,
      incoming.start ≤ segment.stop ∧ segment.start ≤ incoming.stop)
    {offset : Nat} (reached : merge.start ≤ offset) (short : offset < merge.stop) :
    (incoming.start ≤ offset ∧ offset < incoming.stop) ∨
      ∃ segment ∈ merge.absorbed, segment.start ≤ offset ∧ offset < segment.stop := by
  by_cases below : offset < incoming.start
  · rcases spans.start_eq with same | ⟨segment, member, first⟩
    · omega
    · have := (touching segment member).1
      exact Or.inr ⟨segment, member, by omega, by omega⟩
  · by_cases behind : incoming.stop ≤ offset
    · rcases spans.stop_eq with same | ⟨segment, member, last⟩
      · omega
      · have := (touching segment member).2
        exact Or.inr ⟨segment, member, by omega, by omega⟩
    · exact Or.inl ⟨by omega, by omega⟩

theorem layers_ordered : ∀ layer ∈ merge.absorbed ++ [incoming], merge.start ≤ layer.start := by
  intro layer member
  rcases List.mem_append.1 member with absorbed | top
  · exact spans.start_le_absorbed layer absorbed
  · rw [List.mem_singleton.1 top]
    exact spans.start_le

theorem stop_fused :
    (Segment.fuse merge.start (merge.absorbed ++ [incoming])).stop = merge.stop := by
  have reach := @Segment.stop_fuse_le_iff _ _ (layers_ordered spans)
  have furthest := (reach.1 (Nat.le_refl _)).2
  refine Nat.le_antisymm (reach.2 ⟨?_, fun layer member => ?_⟩) ?_
  · have := incoming.start_le_stop
    have := spans.start_le
    have := spans.le_stop
    omega
  · rcases List.mem_append.1 member with absorbed | top
    · exact spans.absorbed_le_stop layer absorbed
    · rw [List.mem_singleton.1 top]
      exact spans.le_stop
  · rcases spans.stop_eq with same | ⟨segment, member, same⟩
    · rw [same]
      exact furthest incoming (List.mem_append_right _ List.mem_cons_self)
    · rw [← same]
      exact furthest segment (List.mem_append_left _ member)

theorem stop_segment : (merge.segment incoming).stop = merge.stop := by
  unfold segment
  split
  · next same => exact same.2.symm
  · exact stop_fused spans

/-- The merged segment is as long as planned. -/
theorem length_segment : (merge.segment incoming).length = merge.length := by
  rw [Segment.length, start_segment, stop_segment spans, length]

/-- The incoming bytes lie on top. -/
theorem byteAt?_segment_incoming {offset : Nat} (reached : incoming.start ≤ offset)
    (short : offset < incoming.stop) :
    (merge.segment incoming).byteAt? offset = incoming.byteAt? offset := by
  unfold segment
  split
  · rfl
  · rw [Segment.fuse_append]
    refine Segment.byteAt?_paint_layer ?_ reached short
    rw [Segment.start_fuse]
    exact spans.start_le

/-- Beside the incoming bytes the stored ones are kept. -/
theorem byteAt?_segment_absorbed (separated : Store.Separated merge.absorbed) {stored : Segment}
    (member : stored ∈ merge.absorbed) {offset : Nat} (reached : stored.start ≤ offset)
    (short : offset < stored.stop)
    (outside : ¬(incoming.start ≤ offset ∧ offset < incoming.stop)) :
    (merge.segment incoming).byteAt? offset = stored.byteAt? offset := by
  have low := spans.start_le_absorbed stored member
  have high := spans.absorbed_le_stop stored member
  unfold segment
  split
  · omega
  · have ordered := spans.start_le_absorbed
    have furthest := ((Segment.stop_fuse_le_iff ordered).1 (Nat.le_refl _)).2 stored member
    have canvasStart := Segment.start_fuse merge.start merge.absorbed
    have below := spans.start_le
    rw [Segment.fuse_append,
      Segment.byteAt?_paint_canvas (by omega) outside (by omega) (by omega)]
    exact Segment.byteAt?_fuse separated ordered member reached short

end Merge

/-! ## The store after an insertion -/

namespace Store

section Insert

variable {store : Store} (separated : Separated store.segments) (incoming : Segment)

include separated

theorem filter_start_lt :
    store.segments.filter (·.start < (store.planMerge incoming).start) =
      store.segments.filter (·.stop < incoming.start) := by
  have spans := planMerge_spans separated incoming
  refine List.filter_congr fun segment member => ?_
  rw [Bool.eq_iff_iff, decide_eq_true_eq, decide_eq_true_eq]
  have := segment.start_le_stop
  have := incoming.start_le_stop
  constructor
  · intro below
    by_contra reaches
    have absorbed := (mem_absorbed separated incoming).2
      ⟨member, Nat.le_of_not_lt reaches, by have := spans.start_le; omega⟩
    have := spans.start_le_absorbed segment absorbed
    omega
  · intro below
    rcases spans.start_eq with same | ⟨first, absorbed, same⟩
    · omega
    · obtain ⟨inStore, reaches, -⟩ := (mem_absorbed separated incoming).1 absorbed
      rcases separated.apart member inStore with rfl | apart | apart <;> omega

theorem filter_lt_start :
    store.segments.filter ((store.planMerge incoming).stop < ·.start) =
      store.segments.filter (incoming.stop < ·.start) := by
  have spans := planMerge_spans separated incoming
  refine List.filter_congr fun segment member => ?_
  rw [Bool.eq_iff_iff, decide_eq_true_eq, decide_eq_true_eq]
  have := incoming.start_le_stop
  constructor
  · intro above
    have := spans.le_stop
    omega
  · intro above
    rcases spans.stop_eq with same | ⟨last, absorbed, same⟩
    · omega
    · obtain ⟨inStore, -, reached⟩ := (mem_absorbed separated incoming).1 absorbed
      rcases separated.apart member inStore with rfl | apart | apart
      · omega
      · have := segment.start_le_stop
        have := last.start_le_stop
        omega
      · omega

/-- An insertion keeps what lies apart from the incoming segment and puts one segment in
place of all that touches it. -/
theorem segments_insert :
    (store.insert incoming).state.segments =
      store.segments.filter (·.stop < incoming.start) ++
        (store.planMerge incoming).segment incoming ::
          store.segments.filter (incoming.stop < ·.start) := by
  have spans := planMerge_spans separated incoming
  rw [insert, segments_apply separated.sorted spans.ordered, filter_start_lt separated,
    filter_lt_start separated]

/-- Segments with gaps between them lie below an incoming one, touch it, or lie above it,
in this order. -/
theorem segments_split :
    store.segments =
      store.segments.filter (·.stop < incoming.start) ++
        ((store.planMerge incoming).absorbed ++
          store.segments.filter (incoming.stop < ·.start)) := by
  rw [absorbed_planMerge separated]
  generalize store.segments = segments at separated
  have range := incoming.start_le_stop
  induction segments with
  | nil => rfl
  | cons head rest ih =>
      obtain ⟨apart, restSeparated⟩ := List.pairwise_cons.1 separated
      have headRange := head.start_le_stop
      have noneBelow (reaches : incoming.start ≤ head.stop) :
          rest.filter (·.stop < incoming.start) = [] :=
        List.filter_eq_nil_iff.2 fun segment member => by
          have := apart segment member
          have := segment.start_le_stop
          rw [decide_eq_true_eq]
          omega
      simp only [List.filter_cons, Segment.touches, decide_eq_true_eq]
      rcases Nat.lt_or_ge head.stop incoming.start with below | reaches
      · rw [if_pos below, if_neg (by omega), if_neg (by omega), List.cons_append]
        exact congrArg (head :: ·) (ih restSeparated)
      · have tail := ih restSeparated
        rw [noneBelow reaches, List.nil_append] at tail
        rw [if_neg (by omega), noneBelow reaches, List.nil_append]
        rcases Nat.lt_or_ge incoming.stop head.start with above | touching
        · have noneTouch : rest.filter incoming.touches = [] :=
            List.filter_eq_nil_iff.2 fun segment member => by
              have := apart segment member
              rw [Segment.touches_iff]
              omega
          rw [noneTouch, List.nil_append] at tail
          rw [if_neg (by omega), if_pos above, noneTouch, List.nil_append]
          exact congrArg (head :: ·) tail
        · rw [if_pos ⟨reaches, by omega⟩, if_neg (by omega), List.cons_append]
          exact congrArg (head :: ·) tail

/-- After an insertion there is still a gap between any two segments. -/
theorem separated_insert : Separated (store.insert incoming).state.segments := by
  have spans := planMerge_spans separated incoming
  have range := incoming.start_le_stop
  rw [segments_insert separated]
  refine List.pairwise_append.2 ⟨List.Pairwise.filter _ separated,
    List.pairwise_cons.2 ⟨fun segment member => ?_, List.Pairwise.filter _ separated⟩,
    fun segment member other otherMember => ?_⟩
  · rw [Merge.stop_segment spans]
    rw [← filter_lt_start separated, List.mem_filter, decide_eq_true_eq] at member
    exact member.2
  · have below := (List.mem_filter.1 member).2
    rw [decide_eq_true_eq] at below
    rcases List.mem_cons.1 otherMember with rfl | above
    · rw [Merge.start_segment]
      rw [← filter_start_lt separated, List.mem_filter, decide_eq_true_eq] at member
      rcases spans.start_eq with same | ⟨first, absorbed, same⟩
      · omega
      · have firstRange := first.start_le_stop
        have inStore := ((mem_absorbed separated incoming).1 absorbed).1
        rcases separated.apart member.1 inStore with rfl | apart | apart <;> omega
    · have := (List.mem_filter.1 above).2
      rw [decide_eq_true_eq] at this
      omega

/-- The numbers that a store keeps are right after an insertion. -/
theorem counted_insert (counted : store.Counted) : (store.insert incoming).state.Counted := by
  have split := segments_split separated incoming
  have lengths := congrArg List.length split
  have totals := congrArg (totalOf Segment.length) split
  rw [List.length_append, List.length_append] at lengths
  rw [totalOf_append, totalOf_append] at totals
  have count : (store.insert incoming).state.count =
      store.count - (store.planMerge incoming).absorbed.length + 1 := rfl
  have held : (store.insert incoming).state.held =
      store.held - (store.planMerge incoming).absorbedBytes +
        ((store.planMerge incoming).segment incoming).length := rfl
  obtain ⟨oldCount, oldHeld⟩ := counted
  unfold Counted
  rw [segments_insert separated, List.length_append, List.length_cons, totalOf_append, totalOf]
  unfold Merge.absorbedBytes at held
  exact ⟨by omega, by omega⟩

theorem mem_insert {segment : Segment} :
    segment ∈ (store.insert incoming).state.segments ↔
      segment = (store.planMerge incoming).segment incoming ∨
        segment ∈ store.segments ∧ ¬incoming.touches segment := by
  rw [segments_insert separated, List.mem_append, List.mem_cons, List.mem_filter, List.mem_filter,
    decide_eq_true_eq, decide_eq_true_eq, Segment.touches_iff]
  have := segment.start_le_stop
  have := incoming.start_le_stop
  constructor
  · rintro (⟨member, below⟩ | rfl | ⟨member, above⟩)
    · exact Or.inr ⟨member, by omega⟩
    · exact Or.inl rfl
    · exact Or.inr ⟨member, by omega⟩
  · rintro (rfl | ⟨member, apart⟩)
    · exact Or.inr (Or.inl rfl)
    · rcases Nat.lt_or_ge segment.stop incoming.start with below | reaches
      · exact Or.inl ⟨member, below⟩
      · exact Or.inr (Or.inr ⟨member, by omega⟩)

/-- Inside the range of the merge the merged segment is what is stored. -/
theorem byteAt?_insert_merged {offset : Nat}
    (reached : (store.planMerge incoming).start ≤ offset)
    (short : offset < (store.planMerge incoming).stop) :
    (store.insert incoming).state.byteAt? offset =
      ((store.planMerge incoming).segment incoming).byteAt? offset := by
  have after := separated_insert separated incoming
  have merged := (mem_insert separated incoming).2 (Or.inl rfl)
  have start := Merge.start_segment (store.planMerge incoming) incoming
  have stop := Merge.stop_segment (planMerge_spans separated incoming)
  exact byteAt?_of_mem after merged (by omega) (by omega)

theorem byteAt?_insert_incoming {offset : Nat} (reached : incoming.start ≤ offset)
    (short : offset < incoming.stop) :
    (store.insert incoming).state.byteAt? offset = incoming.byteAt? offset := by
  have spans := planMerge_spans separated incoming
  rw [byteAt?_insert_merged separated incoming (Nat.le_trans spans.start_le reached)
    (Nat.lt_of_lt_of_le short spans.le_stop)]
  exact Merge.byteAt?_segment_incoming spans reached short

/-- A stored byte beside the incoming ones stays, in the merged segment or where it was. -/
theorem byteAt?_insert_stored {segment : Segment} (member : segment ∈ store.segments)
    {offset : Nat} (reached : segment.start ≤ offset) (short : offset < segment.stop)
    (outside : ¬(incoming.start ≤ offset ∧ offset < incoming.stop)) :
    (store.insert incoming).state.byteAt? offset = segment.byteAt? offset := by
  by_cases touching : incoming.touches segment
  · have spans := planMerge_spans separated incoming
    have absorbed : segment ∈ (store.planMerge incoming).absorbed := by
      rw [absorbed_planMerge separated]
      exact List.mem_filter.2 ⟨member, touching⟩
    have low := spans.start_le_absorbed segment absorbed
    have high := spans.absorbed_le_stop segment absorbed
    rw [byteAt?_insert_merged separated incoming (by omega) (by omega)]
    exact Merge.byteAt?_segment_absorbed spans (separated_absorbed separated incoming) absorbed
      reached short outside
  · have kept := (mem_insert separated incoming).2 (Or.inr ⟨member, touching⟩)
    exact byteAt?_of_mem (separated_insert separated incoming) kept reached short

/-- An insertion adds no offset but those of the incoming segment. -/
theorem known_of_insert {offset : Nat}
    (present : offset ∈ (store.insert incoming).state.bytes.offsets) :
    (incoming.start ≤ offset ∧ offset < incoming.stop) ∨ offset ∈ store.bytes.offsets := by
  obtain ⟨segment, member, reached, short⟩ := mem_bytes.1 present
  rcases (mem_insert separated incoming).1 member with rfl | ⟨member, -⟩
  · have spans := planMerge_spans separated incoming
    have touching : ∀ segment ∈ (store.planMerge incoming).absorbed,
        incoming.start ≤ segment.stop ∧ segment.start ≤ incoming.stop :=
      fun segment absorbed => ((mem_absorbed separated incoming).1 absorbed).2
    rw [Merge.start_segment] at reached
    rw [Merge.stop_segment spans] at short
    rcases Merge.covered spans touching reached short with within | ⟨stored, absorbed, covers⟩
    · exact Or.inl within
    · exact Or.inr (mem_bytes.2 ⟨stored, ((mem_absorbed separated incoming).1 absorbed).1, covers⟩)
  · exact Or.inr (mem_bytes.2 ⟨segment, member, reached, short⟩)

/-- **An insertion sets the incoming bytes and no others.** -/
theorem bytes_insert :
    (store.insert incoming).state.bytes = store.bytes.write incoming.start incoming.data := by
  refine ByteMap.eq_of_byteAt? fun offset => ?_
  rw [ByteMap.byteAt?_write, ← incoming.stop_eq]
  show (store.insert incoming).state.byteAt? offset = _
  split
  · next within =>
      rw [byteAt?_insert_incoming separated incoming within.1 within.2, Segment.byteAt?,
        if_pos within.1]
  · next outside =>
      by_cases known : offset ∈ store.bytes.offsets
      · obtain ⟨segment, member, reached, short⟩ := mem_bytes.1 known
        rw [byteAt?_insert_stored separated incoming member reached short outside]
        exact (byteAt?_of_mem separated member reached short).symm
      · have absent : offset ∉ (store.insert incoming).state.bytes.offsets := fun present =>
          (known_of_insert separated incoming present).elim outside known
        exact (ByteMap.notMem_offsets.1 absent).trans (ByteMap.notMem_offsets.1 known).symm

end Insert

end Store

end Gapless
