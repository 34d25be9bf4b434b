/-
# Gapless.Proofs.ByteMap -- which bytes are known, offset by offset

What waits to be read can be said without segments: finitely many offsets and a byte
at each of them.  `ByteMap.write` sets the bytes of a chunk, `ByteMap.above` forgets
what lies below an offset.

Segments come back as the maximal runs of a map (`ByteMap.IsRun`), each with the bounds
of a stretch of offsets without a gap (`IsStretch`), so that those that share an offset are
the same.  Each run has one first offset, hence there are as many runs as offsets at which
one begins (`runStarts`).
What can be read at an offset is the run from there on: `ByteMap.reach` is its length
and `ByteMap.bytesFrom` its bytes.
-/
import Gapless.Segment
import Mathlib.Data.Finset.Card
import Mathlib.Order.Interval.Finset.Nat

namespace Gapless

set_option autoImplicit false

/-! ## Stretches -/

/-- The offsets of a set at which a maximal run of it begins. -/
def runStarts (offsets : Finset Nat) : Finset Nat :=
  offsets.filter fun offset => offset = 0 ∨ offset - 1 ∉ offsets

/-- The bounds of some stretches of offsets in order: none is empty, and there is a gap between
any two. -/
structure Gapped (stretches : List (Nat × Nat)) : Prop where
  nonempty : ∀ stretch ∈ stretches, stretch.1 < stretch.2
  apart : stretches.Pairwise fun one next => one.2 < next.1

/-- The offsets of a set are those of some stretches. -/
def Fills (stretches : List (Nat × Nat)) (offsets : Finset Nat) : Prop :=
  ∀ offset, offset ∈ offsets ↔ ∃ stretch ∈ stretches, stretch.1 ≤ offset ∧ offset < stretch.2

section Stretches

variable {stretches : List (Nat × Nat)} {offsets : Finset Nat} (gapped : Gapped stretches)

include gapped

/-- One of two stretches lies behind the other. -/
theorem Gapped.apart_of_mem {one other : Nat × Nat} (inOne : one ∈ stretches)
    (inOther : other ∈ stretches) : one = other ∨ one.2 < other.1 ∨ other.2 < one.1 := by
  have symmetric : Std.Symm fun one other : Nat × Nat => one.2 < other.1 ∨ other.2 < one.1 :=
    ⟨fun _ _ => Or.symm⟩
  have apart : stretches.Pairwise fun one other => one.2 < other.1 ∨ other.2 < one.1 :=
    gapped.apart.imp Or.inl
  exact or_iff_not_imp_left.2 (apart.forall inOne inOther)

/-- A run begins with each stretch, and nowhere else. -/
theorem Gapped.mem_runStarts (fills : Fills stretches offsets) {offset : Nat} :
    offset ∈ runStarts offsets ↔ ∃ stretch ∈ stretches, stretch.1 = offset := by
  rw [runStarts, Finset.mem_filter]
  constructor
  · rintro ⟨known, first⟩
    obtain ⟨stretch, member, reached, short⟩ := (fills offset).1 known
    refine ⟨stretch, member, ?_⟩
    by_contra later
    have before : offset - 1 ∈ offsets := (fills _).2 ⟨stretch, member, by omega, by omega⟩
    rcases first with zero | gap
    · omega
    · exact gap before
  · rintro ⟨stretch, member, rfl⟩
    have nonempty := gapped.nonempty stretch member
    refine ⟨(fills _).2 ⟨stretch, member, by omega, by omega⟩, ?_⟩
    by_contra preceded
    rw [not_or, not_not] at preceded
    obtain ⟨other, inOther, reached, short⟩ := (fills _).1 preceded.2
    rcases gapped.apart_of_mem member inOther with rfl | apart | apart <;> omega

/-- There are as many runs as stretches. -/
theorem Gapped.card_runStarts (fills : Fills stretches offsets) :
    (runStarts offsets).card = stretches.length := by
  have starts : runStarts offsets = (stretches.map Prod.fst).toFinset := by
    ext offset
    simp [gapped.mem_runStarts fills]
  have ordered : stretches.Pairwise fun one next => one.1 < next.1 :=
    gapped.apart.imp_of_mem fun {one _} inOne _ apart =>
      Nat.lt_trans (gapped.nonempty one inOne) apart
  have distinct : (stretches.map Prod.fst).Nodup :=
    List.pairwise_map.2 (ordered.imp Nat.ne_of_lt)
  rw [starts, List.toFinset_card_of_nodup distinct, List.length_map]

end Stretches

/-- The offsets from `bounds.1` up to `bounds.2`, with a gap on either side. -/
structure IsStretch (offsets : Finset Nat) (bounds : Nat × Nat) : Prop where
  nonempty : bounds.1 < bounds.2
  whole : ∀ offset, bounds.1 ≤ offset → offset < bounds.2 → offset ∈ offsets
  before : ∀ offset ∈ offsets, offset + 1 ≠ bounds.1
  behind : bounds.2 ∉ offsets

namespace IsStretch

variable {offsets : Finset Nat} {one other : Nat × Nat} (stretch : IsStretch offsets one)
  (stretchToo : IsStretch offsets other)

include stretch stretchToo

/-- Where a stretch goes on no other one begins. -/
theorem start_le {offset : Nat} (inOne : offset < one.2) (inOther : other.1 ≤ offset) :
    other.1 ≤ one.1 := by
  by_contra later
  have known : other.1 - 1 ∈ offsets := stretch.whole _ (by omega) (by omega)
  exact stretchToo.before _ known (by omega)

/-- Where a stretch goes on no other one ends. -/
theorem stop_le {offset : Nat} (inOne : one.1 ≤ offset) (inOther : offset < other.2) :
    one.2 ≤ other.2 := by
  by_contra longer
  exact stretchToo.behind (stretch.whole _ (by omega) (by omega))

theorem eq_of_shared {offset : Nat} (inOne : one.1 ≤ offset ∧ offset < one.2)
    (inOther : other.1 ≤ offset ∧ offset < other.2) : one = other := by
  apply Prod.ext
  · apply Nat.le_antisymm
    · exact stretchToo.start_le stretch inOther.2 inOne.1
    · exact stretch.start_le stretchToo inOne.2 inOther.1
  · apply Nat.le_antisymm
    · exact stretch.stop_le stretchToo inOne.1 inOther.2
    · exact stretchToo.stop_le stretch inOther.1 inOne.2

end IsStretch

/-! ## Maps -/

/-- A finite partial map from offsets to bytes. -/
structure ByteMap where
  byteAt? : Nat → Option UInt8
  offsets : Finset Nat
  mem_offsets : ∀ offset, offset ∈ offsets ↔ (byteAt? offset).isSome

namespace ByteMap

/-- A map is known by its bytes. -/
theorem eq_of_byteAt? {one other : ByteMap}
    (same : ∀ offset, one.byteAt? offset = other.byteAt? offset) : one = other := by
  obtain ⟨first, offsets, known⟩ := one
  obtain ⟨second, others, knownToo⟩ := other
  obtain rfl : first = second := funext same
  obtain rfl : offsets = others := by
    ext offset
    rw [known, knownToo]
  rfl

theorem notMem_offsets {map : ByteMap} {offset : Nat} :
    offset ∉ map.offsets ↔ map.byteAt? offset = none := by
  rw [map.mem_offsets, Option.not_isSome_iff_eq_none]

def empty : ByteMap where
  byteAt? _ := none
  offsets := ∅
  mem_offsets _ := by simp

/-- Set these bytes at the offsets from `offset` on. -/
def write (map : ByteMap) (offset : Nat) (data : Bytes) : ByteMap where
  byteAt? other :=
    if offset ≤ other ∧ other < offset + data.length then data[other - offset]?
    else map.byteAt? other
  offsets := map.offsets ∪ Finset.Ico offset (offset + data.length)
  mem_offsets other := by
    rw [Finset.mem_union, Finset.mem_Ico, map.mem_offsets]
    split
    · next within =>
        have : other - offset < data.length := by omega
        simp [within, this]
    · next outside => simp [outside]

/-- Forget the bytes below `floor`. -/
def above (map : ByteMap) (floor : Nat) : ByteMap where
  byteAt? offset := if floor ≤ offset then map.byteAt? offset else none
  offsets := map.offsets.filter (floor ≤ ·)
  mem_offsets offset := by
    rw [Finset.mem_filter, map.mem_offsets]
    split
    · next kept => simp [kept]
    · next gone => simp [gone]

theorem byteAt?_write (map : ByteMap) (offset : Nat) (data : Bytes) (other : Nat) :
    (map.write offset data).byteAt? other =
      if offset ≤ other ∧ other < offset + data.length then data[other - offset]?
      else map.byteAt? other := rfl

theorem byteAt?_above (map : ByteMap) (floor offset : Nat) :
    (map.above floor).byteAt? offset = if floor ≤ offset then map.byteAt? offset else none := rfl

theorem write_nil (map : ByteMap) (offset : Nat) : map.write offset [] = map :=
  eq_of_byteAt? fun other => by
    rw [byteAt?_write, if_neg (by simp)]

/-! ## Runs -/

/-- A segment is a maximal run of a map, with its bytes. -/
structure IsRun (map : ByteMap) (segment : Segment) : Prop where
  nonempty : segment.start < segment.stop
  byteAt? : ∀ offset, segment.start ≤ offset → offset < segment.stop →
    map.byteAt? offset = segment.byteAt? offset
  before : ∀ offset ∈ map.offsets, offset + 1 ≠ segment.start
  behind : segment.stop ∉ map.offsets

theorem IsRun.mem_offsets {map : ByteMap} {segment : Segment} (run : map.IsRun segment)
    {offset : Nat} (reached : segment.start ≤ offset) (short : offset < segment.stop) :
    offset ∈ map.offsets := by
  rw [map.mem_offsets, run.byteAt? offset reached short, Segment.isSome_byteAt?,
    Segment.covers_iff]
  exact ⟨reached, short⟩

theorem IsRun.isStretch {map : ByteMap} {segment : Segment} (run : map.IsRun segment) :
    IsStretch map.offsets (segment.start, segment.stop) where
  nonempty := run.nonempty
  whole _ reached short := run.mem_offsets reached short
  before := run.before
  behind := run.behind

/-- Runs that share an offset are the same. -/
theorem IsRun.eq_of_shared {map : ByteMap} {one other : Segment} (run : map.IsRun one)
    (otherRun : map.IsRun other) {offset : Nat}
    (inOne : one.start ≤ offset ∧ offset < one.stop)
    (inOther : other.start ≤ offset ∧ offset < other.stop) : one = other := by
  have bounds := run.isStretch.eq_of_shared otherRun.isStretch inOne inOther
  have start : one.start = other.start := congrArg Prod.fst bounds
  have stop : one.stop = other.stop := congrArg Prod.snd bounds
  refine Segment.eq_of_data start (List.ext_getElem? fun index => ?_)
  have oneStop := one.stop_eq
  have otherStop := other.stop_eq
  by_cases inside : index < one.data.length
  · have same : one.byteAt? (one.start + index) = other.byteAt? (one.start + index) :=
      (run.byteAt? _ (by omega) (by omega)).symm.trans (otherRun.byteAt? _ (by omega) (by omega))
    unfold Segment.byteAt? at same
    rw [if_pos (by omega), if_pos (by omega), Nat.add_sub_cancel_left] at same
    rw [same]
    congr 1
    omega
  · rw [List.getElem?_eq_none (by omega), List.getElem?_eq_none (by omega)]

/-! ## Reading on from an offset -/

theorem exists_gap (map : ByteMap) (offset : Nat) :
    ∃ length, offset + length ∉ map.offsets := by
  refine ⟨map.offsets.sup id + 1, fun known => ?_⟩
  have : offset + (map.offsets.sup id + 1) ≤ map.offsets.sup id :=
    Finset.le_sup (f := id) known
  omega

/-- The number of offsets from `offset` on before the first one without a byte. -/
def reach (map : ByteMap) (offset : Nat) : Nat := Nat.find (map.exists_gap offset)

/-- The bytes at `offset` and after it, up to the first gap and at most `count`. -/
def bytesFrom (map : ByteMap) (offset : Nat) : Nat → Bytes
  | 0 => []
  | count + 1 =>
      match map.byteAt? offset with
      | none => []
      | some byte => byte :: map.bytesFrom (offset + 1) count

theorem reach_eq_iff {map : ByteMap} {offset length : Nat} :
    map.reach offset = length ↔
      offset + length ∉ map.offsets ∧ ∀ index < length, offset + index ∈ map.offsets := by
  unfold reach
  rw [Nat.find_eq_iff]
  simp only [not_not]

theorem reach_eq_zero_iff {map : ByteMap} {offset : Nat} :
    map.reach offset = 0 ↔ offset ∉ map.offsets := by
  rw [reach_eq_iff, Nat.add_zero]
  exact and_iff_left fun _ less => absurd less (Nat.not_lt_zero _)

theorem add_reach_notMem (map : ByteMap) (offset : Nat) :
    offset + map.reach offset ∉ map.offsets :=
  (reach_eq_iff.1 rfl).1

theorem mem_of_lt_reach {map : ByteMap} {offset index : Nat} (short : index < map.reach offset) :
    offset + index ∈ map.offsets :=
  (reach_eq_iff.1 rfl).2 index short

theorem getElem?_bytesFrom (map : ByteMap) (offset count index : Nat) :
    (map.bytesFrom offset count)[index]? =
      if index < min count (map.reach offset) then map.byteAt? (offset + index) else none := by
  induction count generalizing offset index with
  | zero => simp [bytesFrom]
  | succ count ih =>
      rw [bytesFrom]
      split
      · next gap =>
          have nothing : map.reach offset = 0 := reach_eq_zero_iff.2 (notMem_offsets.2 gap)
          simp [nothing]
      · next byte found =>
          -- The gap is where it is seen from the next offset, one step further away.
          have further : map.reach offset = map.reach (offset + 1) + 1 := by
            refine reach_eq_iff.2 ⟨?_, fun index less => ?_⟩
            · have := map.add_reach_notMem (offset + 1)
              rwa [Nat.add_assoc, Nat.add_comm 1] at this
            · cases index with
              | zero => exact (map.mem_offsets _).2 (by simp [found])
              | succ index =>
                  have known : offset + 1 + index ∈ map.offsets := mem_of_lt_reach (by omega)
                  rwa [Nat.add_assoc, Nat.add_comm 1] at known
          cases index with
          | zero => simp [further, found]
          | succ index =>
              rw [List.getElem?_cons_succ, ih, further, Nat.add_assoc, Nat.add_comm 1]
              by_cases inside : index < min count (map.reach (offset + 1))
              · rw [if_pos inside, if_pos (by omega)]
              · rw [if_neg inside, if_neg (by omega)]

theorem length_bytesFrom (map : ByteMap) (offset count : Nat) :
    (map.bytesFrom offset count).length = min count (map.reach offset) := by
  refine Nat.le_antisymm ?_ ?_
  · rw [← List.getElem?_eq_none_iff, getElem?_bytesFrom, if_neg (Nat.lt_irrefl _)]
  · by_contra short
    have missing := List.getElem?_eq_none (Nat.le_refl (map.bytesFrom offset count).length)
    rw [getElem?_bytesFrom, if_pos (by omega), ← notMem_offsets] at missing
    exact missing (mem_of_lt_reach (by omega))

/-- Inside a run the bytes to read are those of its segment. -/
theorem IsRun.reach {map : ByteMap} {segment : Segment} (run : map.IsRun segment) {offset : Nat}
    (reached : segment.start ≤ offset) (short : offset < segment.stop) :
    map.reach offset = segment.stop - offset := by
  refine reach_eq_iff.2 ⟨?_, fun index less => run.mem_offsets (by omega) (by omega)⟩
  rw [Nat.add_sub_cancel' (Nat.le_of_lt short)]
  exact run.behind

theorem IsRun.bytesFrom {map : ByteMap} {segment : Segment} (run : map.IsRun segment)
    {offset : Nat} (reached : segment.start ≤ offset) (short : offset < segment.stop)
    (count : Nat) : map.bytesFrom offset count = (segment.bytesFrom offset).take count := by
  have stop := segment.stop_eq
  refine List.ext_getElem? fun index => ?_
  rw [getElem?_bytesFrom, run.reach reached short, List.getElem?_take, Segment.bytesFrom,
    List.getElem?_drop]
  by_cases inside : index < min count (segment.stop - offset)
  · rw [if_pos inside, if_pos (by omega), run.byteAt? _ (by omega) (by omega), Segment.byteAt?,
      if_pos (by omega)]
    congr 1
    omega
  · rw [if_neg inside]
    split
    · rw [List.getElem?_eq_none (by omega)]
    · rfl

end ByteMap

end Gapless
