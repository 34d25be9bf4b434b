/-
# Gapless.Proofs.Checking -- stores in machine words

What is asked of a store, planned for it or done to it comes to the same with checks as without
(`Checked.scanFrom_eq`, `Checked.planMerge_eq`, `Checked.apply_eq`, `Checked.trimBelow_eq`), as
long as the store is sound.  A plan is made here as the code makes it: by going on over the
segments above while they start at or below a growing end (`Checked.widen`).  Because of the gaps
this finds those that the end covered from the beginning.

The bytes held are no more than there are offsets, so a number of bytes is a word.  An insertion
adds two such numbers, those of the bytes taken in and of the bytes that come, and there it
matters that the segment that it makes has room in memory (`maxLength`).
-/
import Gapless.Proofs.Lookups
import Gapless.Proofs.Overlaps
import Gapless.Proofs.Words

namespace Gapless

set_option autoImplicit false

/-- The greatest number of bytes that are kept in one piece. -/
def maxLength : Nat := 9223372036854775807

namespace Checked

/-! ## The segments at an offset -/

def covering (store : Store) (offset : Nat) : Option (Option Segment) :=
  match store.floor? offset with
  | none => some none
  | some floor => do
      let stop ← stop floor
      some (if offset < stop then some floor else none)

/-- `Segment.joined`, which looks at the end of each segment that it comes to. -/
def joined : Option Nat → List Segment → Option (List Segment)
  | _, [] => some []
  | expected, segment :: rest => do
      let stop ← stop segment
      if ∀ offset ∈ expected, segment.start = offset then do
        let others ← joined (some stop) rest
        some (segment :: others)
      else some []

def scanFrom (store : Store) (offset : Nat) : Option (List Segment) := do
  match ← covering store offset with
  | none => some []
  | some first => joined none (store.segments.filter (first.start ≤ ·.start))

theorem joined_eq {segments : List Segment}
    (bounded : ∀ segment ∈ segments, segment.stop ≤ maxOffset) (expected : Option Nat) :
    joined expected segments = some (Segment.joined expected segments) := by
  induction segments generalizing expected with
  | nil => rfl
  | cons segment rest ih =>
      obtain ⟨first, others⟩ := List.forall_mem_cons.1 bounded
      simp only [joined, stop_eq first, ih others, Option.bind_eq_bind, Option.bind_some,
        Segment.joined]
      split <;> rfl

section Queries

variable {store : Store} (sound : store.Sound) (offset : Nat)

include sound

theorem covering_eq : covering store offset = some (store.covering? offset) := by
  unfold covering Store.covering?
  cases found : store.floor? offset with
  | none => rfl
  | some floor =>
      have member := (Store.floor?_spec sound.separated found).1
      simp [stop_eq (sound.bounded floor member), Option.filter]

theorem scanFrom_eq : scanFrom store offset = some (store.covering? offset).toList := by
  rw [← Store.scanFrom_eq sound.separated]
  simp only [scanFrom, Store.scanFrom, covering_eq sound, Option.bind_eq_bind, Option.bind_some]
  cases store.covering? offset with
  | none => rfl
  | some first =>
      apply joined_eq
      intro segment member
      exact sound.bounded segment (List.mem_of_mem_filter member)

end Queries

/-! ## Plans -/

/-- The lower neighbour of an incoming segment, if it reaches that far. -/
def lower (store : Store) (incoming : Segment) : Option (Option Segment) :=
  match store.floor? incoming.start with
  | none => some none
  | some floor => do
      let stop ← stop floor
      some (if incoming.start ≤ stop then some floor else none)

/-- Go on over the segments above while they start at or below the end of what there is by then.
The values are that end, the number of bytes taken in and the segments that are. -/
def widen (reach bytes : Nat) : List Segment → Option (Nat × Nat × List Segment)
  | [] => some (reach, bytes, [])
  | segment :: rest =>
      if reach < segment.start then some (reach, bytes, [])
      else do
        let stop ← stop segment
        let bytes ← add bytes segment.data.length
        let (reach, bytes, others) ← widen (max reach stop) bytes rest
        some (reach, bytes, segment :: others)

/-- A plan, with the number of bytes that it takes in. -/
def planMerge (store : Store) (incoming : Segment) : Option (Merge × Nat) := do
  let reach ← stop incoming
  match ← lower store incoming with
  | none => do
      let above := store.segments.filter (incoming.start ≤ ·.start)
      let (stop, bytes, absorbed) ← widen reach 0 above
      some ({ absorbed, start := incoming.start, stop }, bytes)
  | some floor => do
      let low ← stop floor
      let bytes ← add 0 floor.data.length
      let above := store.segments.filter (floor.start < ·.start)
      let (stop, bytes, absorbed) ← widen (max reach low) bytes above
      some ({ absorbed := floor :: absorbed, start := floor.start, stop }, bytes)

/-- The end of what there is when all these segments have been taken in. -/
def furthest (reach : Nat) (segments : List Segment) : Nat :=
  segments.foldl (fun reach segment => max reach segment.stop) reach

theorem furthest_le_iff {reach bound : Nat} {segments : List Segment} :
    furthest reach segments ≤ bound ↔
      reach ≤ bound ∧ ∀ segment ∈ segments, segment.stop ≤ bound := by
  unfold furthest
  induction segments generalizing reach with
  | nil => simp
  | cons segment rest ih => simp [ih, and_assoc]

/-- Because of the gaps, the segments that are taken in are those that start at or below the first
end already. -/
theorem widen_eq {reach bytes : Nat} {above : List Segment} (separated : Store.Separated above)
    (bounded : ∀ segment ∈ above, segment.stop ≤ maxOffset)
    (fits : bytes + totalOf Segment.length (above.filter (·.start ≤ reach)) ≤ maxOffset) :
    let absorbed := above.filter (·.start ≤ reach)
    widen reach bytes above =
      some (furthest reach absorbed, bytes + totalOf Segment.length absorbed, absorbed) := by
  induction above generalizing reach bytes with
  | nil => rfl
  | cons segment rest ih =>
      obtain ⟨apart, restSeparated⟩ := List.pairwise_cons.1 separated
      obtain ⟨first, others⟩ := List.forall_mem_cons.1 bounded
      have ordered := segment.start_le_stop
      intro absorbed
      rw [widen]
      by_cases behind : reach < segment.start
      · have nothing : absorbed = [] := by
          refine List.filter_eq_nil_iff.2 fun next member => ?_
          rw [decide_eq_true_eq]
          rcases List.mem_cons.1 member with rfl | later
          · omega
          · have := apart next later
            omega
        rw [if_pos behind, nothing]
        rfl
      · have split : absorbed = segment :: rest.filter (·.start ≤ reach) := by
          simp [absorbed, Nat.not_lt.1 behind]
        have same : rest.filter (·.start ≤ max reach segment.stop) =
            rest.filter (·.start ≤ reach) := by
          apply List.filter_congr
          intro next later
          have := apart next later
          simp only [decide_eq_decide]
          omega
        have length := segment.length_eq
        rw [split]
        change bytes + totalOf Segment.length absorbed ≤ maxOffset at fits
        rw [split, totalOf] at fits
        have room : bytes + segment.data.length + totalOf Segment.length
            (rest.filter (·.start ≤ max reach segment.stop)) ≤ maxOffset := by
          rw [same]
          omega
        have step := ih restSeparated others room
        rw [same] at step
        have word : bytes + segment.data.length ≤ maxOffset := by omega
        simp only [if_neg behind, stop_eq first, add_eq word, Option.bind_eq_bind, Option.bind_some,
          step, furthest, List.foldl_cons, totalOf, length, Nat.add_assoc]

theorem furthest_absorbed {merge : Merge} {incoming : Segment} (spans : merge.Spans incoming) :
    furthest incoming.stop merge.absorbed = merge.stop := by
  refine eq_of_forall_ge_iff fun bound => ?_
  rw [furthest_le_iff]
  constructor
  · rintro ⟨own, others⟩
    rcases spans.stop_eq with same | ⟨last, absorbed, same⟩
    · omega
    · have := others last absorbed
      omega
  · intro within
    refine ⟨Nat.le_trans spans.le_stop within, fun segment absorbed => ?_⟩
    exact Nat.le_trans (spans.absorbed_le_stop segment absorbed) within

section Plans

variable {store : Store} (sound : store.Sound) {incoming : Segment}

include sound

theorem held_le : store.held ≤ maxOffset := by
  rw [sound.counted.2, ← Store.card_offsetsOf sound.separated, ← Finset.card_range maxOffset]
  apply Finset.card_le_card
  intro offset known
  obtain ⟨segment, member, -, short⟩ := Store.mem_offsetsOf.1 known
  have := sound.bounded segment member
  simp
  omega

/-- A segment that is not empty counts for at least one byte. -/
theorem count_le_held (full : ∀ segment ∈ store.segments, segment.start < segment.stop) :
    store.count ≤ store.held := by
  rw [sound.counted.1, sound.counted.2]
  generalize store.segments = segments at full
  induction segments with
  | nil => exact Nat.le_refl _
  | cons segment rest ih =>
      obtain ⟨first, others⟩ := List.forall_mem_cons.1 full
      have := ih others
      rw [List.length_cons, totalOf, Segment.length]
      omega

theorem lower_eq : lower store incoming =
    some ((store.floor? incoming.start).filter (incoming.start ≤ ·.stop)) := by
  unfold lower
  cases found : store.floor? incoming.start with
  | none => rfl
  | some floor =>
      have member := (Store.floor?_spec sound.separated found).1
      simp [stop_eq (sound.bounded floor member), Option.filter]

/-- When no lower neighbour joins, what is taken in starts at or above the incoming segment. -/
theorem absorbed_of_none
    (alone : (store.floor? incoming.start).filter (incoming.start ≤ ·.stop) = none) :
    (store.planMerge incoming).absorbed =
      (store.segments.filter (incoming.start ≤ ·.start)).filter (·.start ≤ incoming.stop) := by
  rw [Store.absorbed_planMerge sound.separated, List.filter_filter]
  apply List.filter_congr
  intro segment member
  have := segment.start_le_stop
  have := Store.below_apart sound.separated incoming alone segment member
  rw [Bool.eq_iff_iff, Segment.touches_iff, Bool.and_eq_true, decide_eq_true_eq, decide_eq_true_eq]
  omega

/-- Otherwise it is this one and those that start above it and not too far up. -/
theorem absorbed_of_some {floor : Segment}
    (found : (store.floor? incoming.start).filter (incoming.start ≤ ·.stop) = some floor) :
    (store.planMerge incoming).absorbed = floor :: (store.segments.filter
      (floor.start < ·.start)).filter (·.start ≤ max incoming.stop floor.stop) := by
  obtain ⟨member, low, reaches⟩ := Store.lower_joins sound.separated incoming found
  have ordered := incoming.start_le_stop
  have within : decide (floor.start ≤ max incoming.stop floor.stop) = true := by
    rw [decide_eq_true_eq]
    omega
  have first := Store.filter_start_le sound.separated member
  have list : floor :: (store.segments.filter (floor.start < ·.start)).filter
      (·.start ≤ max incoming.stop floor.stop) = (store.segments.filter
      (floor.start ≤ ·.start)).filter (·.start ≤ max incoming.stop floor.stop) := by
    rw [first, List.filter_cons, if_pos within]
  rw [Store.absorbed_planMerge sound.separated, list, List.filter_filter]
  apply List.filter_congr
  intro segment known
  have := segment.start_le_stop
  rw [Bool.eq_iff_iff, Segment.touches_iff, Bool.and_eq_true, decide_eq_true_eq, decide_eq_true_eq]
  rcases sound.separated.apart known member with rfl | apart | apart <;> omega

theorem widen_above {above : Segment → Bool} {reach bytes : Nat} {absorbed : List Segment}
    (taken : (store.segments.filter above).filter (·.start ≤ reach) = absorbed)
    (fits : bytes + totalOf Segment.length absorbed ≤ maxOffset) :
    widen reach bytes (store.segments.filter above) =
      some (furthest reach absorbed, bytes + totalOf Segment.length absorbed, absorbed) := by
  subst taken
  refine widen_eq (List.Pairwise.filter _ sound.separated) ?_ fits
  intro segment member
  exact sound.bounded segment (List.mem_of_mem_filter member)

variable (bounded : incoming.stop ≤ maxOffset)

include bounded

/-- **A plan is made without a fault.** -/
theorem planMerge_eq : planMerge store incoming =
    some (store.planMerge incoming, (store.planMerge incoming).absorbedBytes) := by
  have spans := Store.planMerge_spans sound.separated incoming
  have furthest := furthest_absorbed spans
  have room := held_le sound
  have part := Store.absorbedBytes_le sound.separated incoming sound.counted
  have start : (store.planMerge incoming).start =
      (((store.floor? incoming.start).filter (incoming.start ≤ ·.stop)).map (·.start)).getD
        incoming.start := rfl
  rw [Merge.absorbedBytes] at part
  simp only [planMerge, stop_eq bounded, lower_eq sound, Option.bind_eq_bind, Option.bind_some,
    Merge.absorbedBytes]
  cases found : (store.floor? incoming.start).filter (incoming.start ≤ ·.stop) with
  | none =>
      have absorbed := absorbed_of_none sound found
      rw [found, Option.map_none, Option.getD_none] at start
      have widened := widen_above sound absorbed.symm (show 0 + _ ≤ maxOffset by omega)
      rw [furthest, Nat.zero_add] at widened
      simp only [widened, Option.bind_some]
      rw [← start]
  | some floor =>
      have absorbed := absorbed_of_some sound found
      have member := (Store.lower_joins sound.separated incoming found).1
      have length := floor.length_eq
      rw [found, Option.map_some, Option.getD_some] at start
      generalize others : (store.segments.filter (floor.start < ·.start)).filter
        (·.start ≤ max incoming.stop floor.stop) = rest at absorbed
      rw [absorbed] at furthest
      rw [absorbed, totalOf] at part
      have word : 0 + floor.data.length ≤ maxOffset := by omega
      have widened := widen_above sound others
        (show 0 + floor.data.length + _ ≤ maxOffset by omega)
      have reached : Checked.furthest (max incoming.stop floor.stop) rest =
        (store.planMerge incoming).stop := furthest
      rw [reached] at widened
      simp only [stop_eq (sound.bounded floor member), add_eq word, widened, Option.bind_some]
      have bytes : 0 + floor.data.length + totalOf Segment.length rest =
          totalOf Segment.length (store.planMerge incoming).absorbed := by
        rw [absorbed, totalOf, length, Nat.zero_add]
      rw [← start, ← absorbed, bytes]

end Plans

/-! ## Insertions -/

/-- The segment that a merge leaves in place of those it takes in. -/
def segment (merge : Merge) (incoming : Segment) : Option Segment := do
  let stop ← stop incoming
  if merge.start = incoming.start ∧ merge.stop = stop then some incoming
  else compose merge.start merge.stop (merge.absorbed ++ [incoming])

/-- Carry out a plan that takes in so many bytes.  The shelf itself keeps the number of segments
on it. -/
def apply (store : Store) (merge : Merge) (absorbedBytes : Nat) (incoming : Segment) :
    Option (Step Store MergeOutcome) := do
  let both ← add absorbedBytes incoming.data.length
  let length ← sub merge.stop merge.start
  let merged ← segment merge incoming
  let added ← sub merged.data.length absorbedBytes
  let others ← sub store.held absorbedBytes
  let held ← add others merged.data.length
  let (below, _, above) := store.around merge.start merge.stop
  some
    { state :=
        { shelf := below.join ((Shelf.single merged).join above)
          count := store.count - merge.absorbed.length + 1
          held }
      result := { absorbed := merge.absorbed.length, overlap := both - length, added }
      events := [.merged merge.start merge.stop merge.absorbed.length] }

section Insertions

variable {store : Store} (sound : store.Sound) {incoming : Segment}
  (bounded : incoming.stop ≤ maxOffset)

include sound bounded

theorem segment_eq : segment (store.planMerge incoming) incoming =
    some ((store.planMerge incoming).segment incoming) := by
  have spans := Store.planMerge_spans sound.separated incoming
  have inserted := (sound.insert bounded).bounded _
    ((Store.mem_insert sound.separated incoming).2 (Or.inl rfl))
  rw [Merge.stop_segment spans] at inserted
  simp only [segment, stop_eq bounded, compose_eq spans inserted, Option.bind_eq_bind,
    Option.bind_some, Merge.segment]
  split <;> rfl

/-- **An insertion goes without a fault** when there is room for the segment that it makes. -/
theorem apply_eq (room : (store.planMerge incoming).length ≤ maxLength) :
    apply store (store.planMerge incoming) (store.planMerge incoming).absorbedBytes incoming =
      some (store.insert incoming) := by
  have spans := Store.planMerge_spans sound.separated incoming
  have foretold := Store.foretells_planMerge sound.separated incoming sound.counted
  have low := spans.start_le
  have high := spans.le_stop
  have length := incoming.length_eq
  have whole := incoming.stop_eq
  have merged := Merge.length_segment spans
  rw [Segment.length_eq] at merged
  have span : (store.planMerge incoming).length =
    (store.planMerge incoming).stop - (store.planMerge incoming).start := rfl
  have part := foretold.held.1
  have kept := foretold.exact.2
  have after := held_le (sound.insert bounded)
  rw [foretold.held.2] at after
  have both : (store.planMerge incoming).absorbedBytes + incoming.data.length ≤ maxOffset := by
    unfold maxLength at room
    unfold maxOffset
    omega
  have grows : (store.planMerge incoming).absorbedBytes ≤
      ((store.planMerge incoming).segment incoming).data.length := by omega
  have fits : store.held - (store.planMerge incoming).absorbedBytes +
      ((store.planMerge incoming).segment incoming).data.length ≤ maxOffset := by omega
  simp only [apply, add_eq both, sub_eq spans.ordered, segment_eq sound bounded, sub_eq grows,
    sub_eq part, add_eq fits, Option.bind_eq_bind, Option.bind_some]
  rw [Store.insert, Store.apply, ← length, ← Segment.length_eq, ← span]

end Insertions

/-! ## Trims -/

/-- The bytes of a segment that go when this is left of it. -/
def loss (segment : Segment) : Option Segment → Option Nat
  | some suffix => sub segment.data.length suffix.data.length
  | none => some segment.data.length

/-- Go over segments that start below an offset.  The values are the number of bytes released and
what is left. -/
def release (offset released : Nat) : List Segment → Option (Nat × List Segment)
  | [] => some (released, [])
  | segment :: rest => do
      let left ← clipBelow segment offset
      let loss ← loss segment left
      let released ← add released loss
      let (released, others) ← release offset released rest
      some (released, left.toList ++ others)

def trimBelow (store : Store) (offset : Nat) : Option Store := do
  let (below, above) := store.shelf.split offset
  let (released, left) ← release offset 0 below.toList
  let held ← sub store.held released
  some
    { shelf := (Shelf.ofList left).join above
      count := store.count - below.toList.length + left.length
      held }

theorem loss_eq {segment : Segment} {offset : Nat} (low : segment.start < offset) :
    loss segment (segment.clipBelow offset) = some (Store.trimLoss offset segment) := by
  have whole := Store.trimLoss_add offset segment
  rw [Store.trimSegment, if_pos low, segment.length_eq] at whole
  cases left : segment.clipBelow offset with
  | none =>
      rw [left, Option.map_none, Option.getD_none] at whole
      exact congrArg some whole.symm
  | some suffix =>
      rw [left, Option.map_some, Option.getD_some, suffix.length_eq] at whole
      rw [loss, sub_eq (by omega)]
      exact congrArg some (by omega)

theorem release_eq {offset released : Nat} {segments : List Segment}
    (bounded : ∀ segment ∈ segments, segment.stop ≤ maxOffset)
    (below : ∀ segment ∈ segments, segment.start < offset)
    (fits : released + totalOf (Store.trimLoss offset) segments ≤ maxOffset) :
    release offset released segments =
      some (released + totalOf (Store.trimLoss offset) segments,
        segments.filterMap (·.clipBelow offset)) := by
  induction segments generalizing released with
  | nil => rfl
  | cons segment rest ih =>
      obtain ⟨first, others⟩ := List.forall_mem_cons.1 bounded
      obtain ⟨low, lows⟩ := List.forall_mem_cons.1 below
      rw [totalOf] at fits
      have word : released + Store.trimLoss offset segment ≤ maxOffset := by omega
      have room : released + Store.trimLoss offset segment +
          totalOf (Store.trimLoss offset) rest ≤ maxOffset := by omega
      have step := ih others lows room
      simp only [release, clipBelow_eq first, loss_eq low, add_eq word, step, Option.bind_eq_bind,
        Option.bind_some, totalOf, Nat.add_assoc, List.filterMap_cons]
      cases segment.clipBelow offset <;> rfl

/-- **A trim goes without a fault**, and it releases no more than is held. -/
theorem trimBelow_eq {store : Store} (sound : store.Sound) (offset : Nat) :
    trimBelow store offset = some (store.trimBelow offset) := by
  have parts := Shelf.toList_split offset sound.separated.sorted
  have totals := Store.totalOf_trim offset store.segments
  have room := held_le sound
  have loss := Store.lossBelow_eq sound.separated offset
  have counted := sound.counted.2
  have within : 0 + totalOf (Store.trimLoss offset) (store.shelf.split offset).1.toList ≤
      store.held := by
    show 0 + store.lossBelow offset ≤ _
    omega
  have bounded : ∀ segment ∈ (store.shelf.split offset).1.toList, segment.stop ≤ maxOffset := by
    intro segment member
    rw [parts.1] at member
    exact sound.bounded segment (List.mem_of_mem_filter member)
  have below : ∀ segment ∈ (store.shelf.split offset).1.toList, segment.start < offset := by
    intro segment member
    rw [parts.1, List.mem_filter, decide_eq_true_eq] at member
    exact member.2
  have released := release_eq bounded below (Nat.le_trans within room)
  simp only [trimBelow, released, sub_eq within, Option.bind_eq_bind, Option.bind_some]
  rw [Nat.zero_add]
  rfl

/-- With a total that is too small the same trim is a fault. -/
example : trimBelow ⟨.single ⟨4, [1, 2], 6, rfl⟩, 1, 1⟩ 6 = none := by decide

end Checked

end Gapless
