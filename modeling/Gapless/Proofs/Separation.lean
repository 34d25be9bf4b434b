/-
# Gapless.Proofs.Separation -- what segments with gaps between them hold

A store is read through the map of the bytes it holds (`Store.bytes`).  Because of the
gaps between its segments (`Store.Separated`)

* the byte at an offset is the byte of the one segment that covers it;
* the lengths of the segments add up to the number of offsets held;
* segments that are not empty are exactly the maximal runs of the map, which hence says what
  they are;
* the segment that covers an offset is found at its lower neighbour, and no other
  segment continues it.
-/
import Gapless.Proofs.ByteMap
import Gapless.Store
import Mathlib.Data.List.Pairwise
import Mathlib.Data.List.Sort

namespace Gapless.Store

set_option autoImplicit false

/-! ## Offsets held -/

/-- The offsets that segments hold. -/
def offsetsOf : List Segment → Finset Nat
  | [] => ∅
  | segment :: rest => Finset.Ico segment.start segment.stop ∪ offsetsOf rest

theorem mem_offsetsOf {segments : List Segment} {offset : Nat} :
    offset ∈ offsetsOf segments ↔
      ∃ segment ∈ segments, segment.start ≤ offset ∧ offset < segment.stop := by
  induction segments with
  | nil => simp [offsetsOf]
  | cons segment rest ih =>
      rw [offsetsOf, Finset.mem_union, Finset.mem_Ico, ih]
      simp

/-- The bytes that a store holds. -/
def bytes (store : Store) : ByteMap where
  byteAt? := store.byteAt?
  offsets := offsetsOf store.segments
  mem_offsets offset := by
    rw [mem_offsetsOf, byteAt?, List.findSome?_isSome_iff]
    simp only [Segment.isSome_byteAt?, Segment.covers_iff]

theorem mem_bytes {store : Store} {offset : Nat} :
    offset ∈ store.bytes.offsets ↔
      ∃ segment ∈ store.segments, segment.start ≤ offset ∧ offset < segment.stop :=
  mem_offsetsOf

/-! ## Gaps -/

/-- One of two separated segments lies behind the other, with a gap between. -/
theorem Separated.apart {segments : List Segment} (separated : Separated segments)
    {one other : Segment} (inOne : one ∈ segments) (inOther : other ∈ segments) :
    one = other ∨ one.stop < other.start ∨ other.stop < one.start := by
  induction segments with
  | nil => cases inOne
  | cons head rest ih =>
      obtain ⟨apart, restSeparated⟩ := List.pairwise_cons.1 separated
      rcases List.mem_cons.1 inOne with rfl | oneBehind <;>
        rcases List.mem_cons.1 inOther with rfl | otherBehind
      · exact Or.inl rfl
      · exact Or.inr (Or.inl (apart _ otherBehind))
      · exact Or.inr (Or.inr (apart _ oneBehind))
      · exact ih restSeparated oneBehind otherBehind

/-- The byte held at an offset is that of the segment that covers it. -/
theorem byteAt?_of_mem {store : Store} (separated : Separated store.segments) {segment : Segment}
    (member : segment ∈ store.segments) {offset : Nat} (reached : segment.start ≤ offset)
    (short : offset < segment.stop) : store.byteAt? offset = segment.byteAt? offset := by
  unfold byteAt?
  generalize store.segments = segments at separated member
  induction segments with
  | nil => cases member
  | cons head rest ih =>
      obtain ⟨apart, restSeparated⟩ := List.pairwise_cons.1 separated
      rcases List.mem_cons.1 member with rfl | behind
      · refine List.findSome?_cons_of_isSome ?_
        rw [Segment.isSome_byteAt?, Segment.covers_iff]
        exact ⟨reached, short⟩
      · have missed : head.byteAt? offset = none := by
          have := apart _ behind
          exact Segment.byteAt?_eq_none_iff.2 (by omega)
        rw [List.findSome?_cons, missed]
        exact ih restSeparated behind

/-- Separated segments share no offset, so their lengths count the offsets held. -/
theorem card_offsetsOf {segments : List Segment} (separated : Separated segments) :
    (offsetsOf segments).card = totalOf Segment.length segments := by
  induction segments with
  | nil => rfl
  | cons head rest ih =>
      obtain ⟨apart, restSeparated⟩ := List.pairwise_cons.1 separated
      have disjoint : Disjoint (Finset.Ico head.start head.stop) (offsetsOf rest) := by
        rw [Finset.disjoint_left]
        intro offset inHead inRest
        obtain ⟨segment, member, reached, -⟩ := mem_offsetsOf.1 inRest
        have := apart segment member
        have := (Finset.mem_Ico.1 inHead).2
        omega
      rw [offsetsOf, Finset.card_union_of_disjoint disjoint, Nat.card_Ico, ih restSeparated]
      rfl

/-! ## Runs -/

section Runs

variable {store : Store} (separated : Separated store.segments)

include separated

/-- A stored segment that is not empty is a maximal run of what is held. -/
theorem isRun_of_mem {segment : Segment} (member : segment ∈ store.segments)
    (nonempty : segment.start < segment.stop) : store.bytes.IsRun segment where
  nonempty := nonempty
  byteAt? _ reached short := byteAt?_of_mem separated member reached short
  before offset known touching := by
    obtain ⟨other, inStore, reached, short⟩ := mem_bytes.1 known
    rcases separated.apart member inStore with rfl | apart | apart <;> omega
  behind known := by
    obtain ⟨other, inStore, reached, short⟩ := mem_bytes.1 known
    rcases separated.apart member inStore with rfl | apart | apart <;> omega

/-- When no segment is empty, the segments are exactly the maximal runs. -/
theorem mem_segments_iff_isRun (full : ∀ segment ∈ store.segments, segment.start < segment.stop)
    {segment : Segment} : segment ∈ store.segments ↔ store.bytes.IsRun segment := by
  refine ⟨fun member => isRun_of_mem separated member (full segment member), fun run => ?_⟩
  have known := run.mem_offsets (Nat.le_refl _) run.nonempty
  obtain ⟨other, member, reached, short⟩ := mem_bytes.1 known
  have otherRun := isRun_of_mem separated member (full other member)
  rwa [run.eq_of_shared otherRun ⟨Nat.le_refl _, run.nonempty⟩ ⟨reached, short⟩]

/-- Stores that hold the same bytes have the same segments. -/
theorem segments_eq_of_bytes (full : ∀ segment ∈ store.segments, segment.start < segment.stop)
    {other : Store} (separatedToo : Separated other.segments)
    (fullToo : ∀ segment ∈ other.segments, segment.start < segment.stop)
    (bytes : store.bytes = other.bytes) : store.segments = other.segments := by
  have : Std.Antisymm fun left right : Segment => left.stop < right.start :=
    ⟨fun left right ahead behind => by
      have := left.start_le_stop
      have := right.start_le_stop
      omega⟩
  have : Std.Irrefl fun left right : Segment => left.stop < right.start :=
    ⟨fun segment ahead => Nat.not_lt.2 segment.start_le_stop ahead⟩
  apply List.Pairwise.eq_of_mem_iff separated separatedToo
  intro segment
  rw [mem_segments_iff_isRun separated full, mem_segments_iff_isRun separatedToo fullToo, bytes]

/-- There are as many segments as offsets at which a run begins. -/
theorem card_runStarts (full : ∀ segment ∈ store.segments, segment.start < segment.stop) :
    (runStarts store.bytes.offsets).card = store.segments.length := by
  have gapped : Gapped (store.segments.map fun segment => (segment.start, segment.stop)) :=
    { nonempty := List.forall_mem_map.2 full
      apart := List.pairwise_map.2 separated }
  rw [gapped.card_runStarts, List.length_map]
  intro offset
  simp [mem_bytes]

/-! ## The segment at an offset -/

/-- The lower neighbour of an offset starts at or before it, and all other segments
that do so end before the neighbour starts. -/
theorem floor?_spec {offset : Nat} {floor : Segment} (found : store.floor? offset = some floor) :
    floor ∈ store.segments ∧ floor.start ≤ offset ∧
      ∀ other ∈ store.segments, other.start ≤ offset →
        other = floor ∨ other.stop < floor.start := by
  rw [floor?_eq separated] at found
  have member := List.mem_of_getLast? found
  rw [List.mem_filter, decide_eq_true_eq] at member
  refine ⟨member.1, member.2, fun other inStore reached => ?_⟩
  obtain ⟨front, split⟩ := List.getLast?_eq_some_iff.1 found
  have low : other ∈ store.segments.filter (·.start ≤ offset) :=
    List.mem_filter.2 ⟨inStore, decide_eq_true reached⟩
  have apart := List.Pairwise.filter (·.start ≤ offset) separated
  rw [split] at low apart
  rcases List.mem_append.1 low with inFront | last
  · exact Or.inr ((List.pairwise_append.1 apart).2.2 other inFront floor List.mem_cons_self)
  · exact Or.inl (List.mem_singleton.1 last)

theorem floor?_eq_none_iff {offset : Nat} :
    store.floor? offset = none ↔ ∀ segment ∈ store.segments, offset < segment.start := by
  rw [floor?_eq separated, List.getLast?_eq_none_iff, List.filter_eq_nil_iff]
  simp only [decide_eq_true_eq, Nat.not_le]

/-- A segment found at an offset is a stored one that covers it. -/
theorem covering?_eq_some_iff {offset : Nat} {segment : Segment} :
    store.covering? offset = some segment ↔
      segment ∈ store.segments ∧ segment.start ≤ offset ∧ offset < segment.stop := by
  rw [covering?, Option.filter_eq_some_iff, decide_eq_true_eq]
  constructor
  · rintro ⟨found, short⟩
    obtain ⟨member, reached, -⟩ := floor?_spec separated found
    exact ⟨member, reached, short⟩
  · rintro ⟨member, reached, short⟩
    refine ⟨?_, short⟩
    cases found : store.floor? offset with
    | none =>
        have := (floor?_eq_none_iff separated).1 found segment member
        omega
    | some floor =>
        obtain ⟨-, floorReached, rest⟩ := floor?_spec separated found
        rcases rest segment member reached with rfl | below
        · rfl
        · omega

theorem covering?_eq_none_iff {offset : Nat} :
    store.covering? offset = none ↔ offset ∉ store.bytes.offsets := by
  rw [Option.eq_none_iff_forall_ne_some]
  constructor
  · intro nothing known
    obtain ⟨segment, covers⟩ := mem_bytes.1 known
    exact nothing segment ((covering?_eq_some_iff separated).2 covers)
  · intro gap segment found
    exact gap (mem_bytes.2 ⟨segment, (covering?_eq_some_iff separated).1 found⟩)

/-- No stored segment begins where another one ends. -/
theorem followers_eq_nil {segment : Segment} (member : segment ∈ store.segments) (rounds : Nat) :
    store.followers segment rounds = [] := by
  cases rounds with
  | zero => rfl
  | succ rounds =>
      rw [followers]
      split
      · rfl
      · next next found =>
          rw [Option.filter_eq_some_iff, ceiling?_eq separated, decide_eq_true_eq] at found
          have later := List.find?_some found.1
          rw [decide_eq_true_eq] at later
          rcases separated.apart member (List.mem_of_find?_eq_some found.1) with
            rfl | apart | apart
          · omega
          · omega
          · have := next.start_le_stop
            omega

/-- A run without a gap is a single segment. -/
theorem runFrom_eq (offset : Nat) :
    store.runFrom offset = (store.covering? offset).toList := by
  rw [runFrom]
  split
  · next missed => rw [missed]; rfl
  · next first found =>
      rw [found, followers_eq_nil separated ((covering?_eq_some_iff separated).1 found).1]
      rfl

end Runs

end Gapless.Store
