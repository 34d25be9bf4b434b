/-
# Gapless.Proofs.Discarding -- a trim takes what lies below an offset, at once or in stages

Segments have gaps between them, so at most one of them lies on both sides of an offset
(`Segment.CutAt`).  A trim cuts that one, takes those that end at or below the offset, and leaves
all that start at it or above, an empty one among them (`Store.exists_cut`).  The bytes that it
takes are counted segment by segment; their number is that of the offsets held below
(`Store.lossBelow_eq_card`).

What a trim does to a segment and then another one, the further of the two does alone
(`Store.trimSegment_trimSegment`), and so for stores and for the bytes taken.
-/
import Gapless.Proofs.Clipping

namespace Gapless

set_option autoImplicit false

/-- A segment that lies on both sides of an offset, and its upper part. -/
structure Segment.CutAt (segment : Segment) (offset : Nat) (upper : Segment) : Prop where
  below : segment.start < offset
  above : offset < segment.stop
  start : upper.start = offset
  stop : upper.stop = segment.stop
  data : upper.data = segment.data.drop (offset - segment.start)

/-- The upper part of the upper part is the upper part at the further offset. -/
theorem Segment.CutAt.trans {segment upper rest : Segment} {one other : Nat}
    (cut : segment.CutAt one upper) (further : upper.CutAt other rest) :
    segment.CutAt other rest where
  below := by
    have := cut.below
    have := cut.start
    have := further.below
    omega
  above := by rw [← cut.stop]; exact further.above
  start := further.start
  stop := further.stop.trans cut.stop
  data := by
    have := cut.below
    have := further.below
    have start := cut.start
    rw [further.data, cut.data, List.drop_drop]
    congr 1
    omega

namespace Store

/-! ## One segment -/

section Segments

variable {segment upper : Segment} {offset : Nat}

theorem trimSegment_of_above (above : offset ≤ segment.start) :
    trimSegment offset segment = some segment :=
  if_neg (Nat.not_lt.2 above)

theorem trimSegment_of_ends (below : segment.start < offset) (ends : segment.stop ≤ offset) :
    trimSegment offset segment = none := by
  rw [trimSegment, if_pos below, Segment.clipBelow, dif_pos ends]

theorem trimSegment_of_cut (cut : segment.CutAt offset upper) :
    trimSegment offset segment = some upper := by
  rw [trimSegment, if_pos cut.below, Segment.clipBelow, dif_neg (Nat.not_le.2 cut.above),
    dif_neg (Nat.not_le.2 cut.below)]
  exact congrArg some (Segment.eq_of_data cut.start.symm cut.data.symm)

theorem exists_cutAt (below : segment.start < offset) (above : offset < segment.stop) :
    ∃ upper, segment.CutAt offset upper := by
  have stop := segment.stop_eq
  have length : segment.stop = offset + (segment.data.drop (offset - segment.start)).length := by
    rw [List.length_drop]
    omega
  exact ⟨⟨offset, segment.data.drop (offset - segment.start), segment.stop, length⟩,
    below, above, rfl, rfl, rfl⟩

end Segments

/-- To a segment two trims do what the further of them does. -/
theorem trimSegment_trimSegment (one other : Nat) (segment : Segment) :
    (trimSegment one segment).bind (trimSegment other) = trimSegment (max one other) segment := by
  rcases Nat.lt_or_ge segment.start one with below | above
  · rcases Nat.lt_or_ge one segment.stop with reaches | ends
    · obtain ⟨upper, cut⟩ := exists_cutAt below reaches
      have start := cut.start
      have stop := cut.stop
      rw [trimSegment_of_cut cut, Option.bind_some]
      rcases Nat.lt_or_ge one other with further | passed
      · -- The part that the first trim leaves is cut again, or taken.
        rw [Nat.max_eq_right (Nat.le_of_lt further)]
        rcases Nat.lt_or_ge other segment.stop with reachesToo | endsToo
        · obtain ⟨rest, next⟩ : ∃ rest, upper.CutAt other rest :=
            exists_cutAt (by omega) (by omega)
          rw [trimSegment_of_cut next, trimSegment_of_cut (cut.trans next)]
        · rw [trimSegment_of_ends (by omega) (by omega), trimSegment_of_ends (by omega) endsToo]
      · rw [Nat.max_eq_left passed, trimSegment_of_above (by omega), trimSegment_of_cut cut]
    · rw [trimSegment_of_ends below ends, trimSegment_of_ends (by omega) (by omega),
        Option.bind_none]
  · rw [trimSegment_of_above above, Option.bind_some]
    rcases Nat.lt_or_ge segment.start other with below | aboveToo
    · rw [Nat.max_eq_right (by omega)]
    · rw [trimSegment_of_above aboveToo, trimSegment_of_above (by omega)]

/-! ## One trim -/

/-- What a trim at an offset does to a store. -/
structure Trimmed (store : Store) (offset : Nat) (after : Store) : Prop where
  /-- The bytes taken are counted. -/
  loss : store.lossBelow offset = (store.bytes.offsets.filter (· < offset)).card
  held : after.held + store.lossBelow offset = store.held
  count : after.count = after.segments.length
  /-- What is held above stays, and nothing else. -/
  offsets : after.bytes.offsets = store.bytes.offsets.filter (offset ≤ ·)
  byteAt? : ∀ other, offset ≤ other → after.byteAt? other = store.byteAt? other
  /-- Behind the segment that was cut, if one was, come those that were left alone. -/
  segments : ∃ cut : Option Segment,
    after.segments = cut.toList ++ store.segments.filter (offset ≤ ·.start) ∧
      ∀ upper ∈ cut, ∃ segment ∈ store.segments, segment.CutAt offset upper

/-- Segments that all start at an offset or above it are left alone. -/
theorem filterMap_of_above {segments : List Segment} {offset : Nat}
    (above : ∀ segment ∈ segments, offset ≤ segment.start) :
    segments.filterMap (trimSegment offset) = segments.filter (offset ≤ ·.start) := by
  have kept : segments.filter (offset ≤ ·.start) = segments :=
    List.filter_eq_self.2 fun segment member => decide_eq_true (above segment member)
  rw [kept]
  refine (filterMap_eq_of_agree fun segment member => ?_).trans List.filterMap_some
  exact trimSegment_of_above (above segment member)

/-- Of separated segments a trim cuts at most one, and it comes first in what is left. -/
theorem exists_cut {segments : List Segment} (separated : Separated segments) (offset : Nat) :
    ∃ cut : Option Segment,
      segments.filterMap (trimSegment offset) =
          cut.toList ++ segments.filter (offset ≤ ·.start) ∧
        ∀ upper ∈ cut, ∃ segment ∈ segments, segment.CutAt offset upper := by
  induction segments with
  | nil => exact ⟨none, rfl, by simp⟩
  | cons head rest ih =>
      obtain ⟨apart, restSeparated⟩ := List.pairwise_cons.1 separated
      rcases Nat.lt_or_ge head.start offset with below | above
      · rw [List.filterMap_cons, List.filter_cons_of_neg (by simpa using below)]
        rcases Nat.lt_or_ge offset head.stop with reaches | ends
        · -- All others start behind this one, hence above the offset.
          obtain ⟨upper, cut⟩ := exists_cutAt below reaches
          have others := filterMap_of_above fun segment member =>
            Nat.le_of_lt (Nat.lt_trans reaches (apart segment member))
          rw [trimSegment_of_cut cut, others]
          refine ⟨some upper, rfl, fun other same => ?_⟩
          cases same
          exact ⟨head, List.mem_cons_self, cut⟩
        · obtain ⟨cut, left, cuts⟩ := ih restSeparated
          rw [trimSegment_of_ends below ends]
          refine ⟨cut, left, fun upper member => ?_⟩
          obtain ⟨segment, member, cut⟩ := cuts upper member
          exact ⟨segment, List.mem_cons_of_mem _ member, cut⟩
      · refine ⟨none, filterMap_of_above ?_, fun upper found => nomatch found⟩
        intro segment member
        rcases List.mem_cons.1 member with rfl | behind
        · exact above
        · have := apart segment behind
          have := head.start_le_stop
          omega

section Trim

variable {store : Store} (separated : Separated store.segments) (offset : Nat)

include separated

theorem offsets_trimBelow :
    (store.trimBelow offset).bytes.offsets = store.bytes.offsets.filter (offset ≤ ·) := by
  rw [bytes_trimBelow separated]
  rfl

/-- What is held and what a trim takes make up what was held. -/
theorem held_trimBelow (counted : store.Counted) :
    (store.trimBelow offset).held + store.lossBelow offset = store.held := by
  have totals := totalOf_trim offset store.segments
  rw [← segments_trimBelow separated.sorted, ← lossBelow_eq separated, ← counted.2,
    ← (counted_trimBelow separated offset counted).2] at totals
  exact totals

/-- **A trim takes as many bytes as there are offsets held below.** -/
theorem lossBelow_eq_card :
    store.lossBelow offset = (store.bytes.offsets.filter (· < offset)).card := by
  have whole : store.bytes.offsets.card = totalOf Segment.length store.segments :=
    card_offsetsOf separated
  have left : (store.trimBelow offset).bytes.offsets.card =
      totalOf Segment.length (store.trimBelow offset).segments :=
    card_offsetsOf (separated_trimBelow separated offset)
  have totals := totalOf_trim offset store.segments
  have parts := Finset.card_filter_add_card_filter_not (s := store.bytes.offsets) (offset ≤ ·)
  simp only [Nat.not_le] at parts
  rw [offsets_trimBelow separated, segments_trimBelow separated.sorted] at left
  rw [lossBelow_eq separated]
  omega

theorem trimmed (counted : store.Counted) : store.Trimmed offset (store.trimBelow offset) where
  loss := lossBelow_eq_card separated offset
  held := held_trimBelow separated offset counted
  count := (counted_trimBelow separated offset counted).1
  offsets := offsets_trimBelow separated offset
  byteAt? other above := by
    rw [byteAt?_trimBelow separated.sorted, if_pos above]
  segments := by
    rw [segments_trimBelow separated.sorted]
    exact exists_cut separated offset

end Trim

/-! ## Two trims -/

section Stages

variable {store : Store} (separated : Separated store.segments) (counted : store.Counted)
  (one other : Nat)

include separated counted

/-- **Two trims leave what the further of them leaves.** -/
theorem alike_trims :
    Alike ((store.trimBelow one).trimBelow other) (store.trimBelow (max one other)) := by
  have separatedFirst := separated_trimBelow separated one
  have countedFirst := counted_trimBelow separated one counted
  have countedBoth := counted_trimBelow separatedFirst other countedFirst
  have countedOnce := counted_trimBelow separated (max one other) counted
  have segments : ((store.trimBelow one).trimBelow other).segments =
      (store.trimBelow (max one other)).segments := by
    rw [segments_trimBelow separatedFirst.sorted, segments_trimBelow separated.sorted,
      segments_trimBelow separated.sorted, List.filterMap_filterMap]
    simp only [trimSegment_trimSegment]
  refine ⟨segments, ?_, ?_⟩
  · rw [countedBoth.1, countedOnce.1, segments]
  · rw [countedBoth.2, countedOnce.2, segments]

/-- What they take adds up to what it takes. -/
theorem lossBelow_add :
    store.lossBelow one + (store.trimBelow one).lossBelow other =
      store.lossBelow (max one other) := by
  have first := held_trimBelow separated one counted
  have second := held_trimBelow (separated_trimBelow separated one) other
    (counted_trimBelow separated one counted)
  have once := held_trimBelow separated (max one other) counted
  have left := (alike_trims separated counted one other).held
  omega

end Stages

/-- **A trim is exact, and trims compose.**  In every store that changes have led to, whatever
segments they brought, a trim takes the bytes below its offset and counts them; and trimming at
one offset and then at another comes to trimming at the further of them. -/
theorem trims_compose (changes : List Change) :
    let store := empty.after changes
    (∀ offset, store.Trimmed offset (store.trimBelow offset)) ∧
      ∀ one other,
        Alike ((store.trimBelow one).trimBelow other) (store.trimBelow (max one other)) ∧
          store.lossBelow one + (store.trimBelow one).lossBelow other =
            store.lossBelow (max one other) := by
  intro store
  have sound : store.Sound := sound_empty.after changes
  constructor
  · intro offset
    exact trimmed sound.separated offset sound.counted
  · intro one other
    exact ⟨alike_trims sound.separated sound.counted one other,
      lossBelow_add sound.separated sound.counted one other⟩

end Store

end Gapless
