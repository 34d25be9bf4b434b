/-
# Gapless.Proofs.Overlaps -- how much of what comes in was held already

The range of a planned merge has no hole: each offset of it belongs to a stored segment that is
taken in, or to the incoming one (`Merge.Spans.filled`).  Stored segments share no offset, so by
inclusion and exclusion what the plan takes in and what comes in are longer together than the
merged segment by just the offsets that both hold (`Store.length_planMerge`).

All figures of a plan and of the step that carries it out rest on this (`Merge.Foretells`): how
many of the incoming bytes count as overlap and how many as new, and what the store counts
afterwards.  A buffer clips a chunk at its cursor first.  What it clips counts as overlap too
(`Buffer.Sound.counts_place`).
-/
import Gapless.Proofs.Calls
import Gapless.Proofs.Changes

namespace Gapless

set_option autoImplicit false

/-! ## Offsets -/

namespace Segment

/-- The offsets of a segment. -/
def offsets (segment : Segment) : Finset Nat := Finset.Ico segment.start segment.stop

@[simp] theorem mem_offsets {segment : Segment} {offset : Nat} :
    offset ∈ segment.offsets ↔ segment.start ≤ offset ∧ offset < segment.stop := Finset.mem_Ico

theorem card_offsets (segment : Segment) : segment.offsets.card = segment.length :=
  Nat.card_Ico _ _

end Segment

/-- The range of a merge is filled by what it takes in and what comes in. -/
theorem Merge.Spans.filled {merge : Merge} {incoming : Segment} (spans : merge.Spans incoming)
    (touching : ∀ segment ∈ merge.absorbed,
      incoming.start ≤ segment.stop ∧ segment.start ≤ incoming.stop) :
    Finset.Ico merge.start merge.stop = Store.offsetsOf merge.absorbed ∪ incoming.offsets := by
  ext offset
  simp only [Finset.mem_Ico, Finset.mem_union, Store.mem_offsetsOf, Segment.mem_offsets]
  constructor
  · intro within
    exact (covered spans touching within.1 within.2).symm
  · rintro (⟨segment, absorbed, within⟩ | within)
    · have := spans.start_le_absorbed segment absorbed
      have := spans.absorbed_le_stop segment absorbed
      omega
    · have := spans.start_le
      have := spans.le_stop
      omega

/-! ## The figures of a plan -/

/-- What a plan tells beforehand of the step that carries it out. -/
structure Merge.Foretells (plan : Merge) (store : Store) (incoming : Segment)
    (step : Step Store MergeOutcome) : Prop where
  taken : plan.absorbed.Sublist store.segments
  absorbed : step.result.absorbed = plan.absorbed.length
  count : plan.absorbed.length ≤ store.count ∧
    step.state.count = store.count - plan.absorbed.length + 1
  held : plan.absorbedBytes ≤ store.held ∧
    step.state.held = store.held - plan.absorbedBytes + plan.length
  grown : step.state.held = store.held + step.result.added
  /-- The numbers of a store are those of its segments. -/
  counted : store.Counted ∧ step.state.Counted
  merged : ∃ merged ∈ step.state.segments,
    merged.start ≤ incoming.start ∧ incoming.stop ≤ merged.stop ∧
      merged.data.length = plan.length
  overlap : step.result.overlap = (incoming.offsets ∩ Store.offsetsOf store.segments).card
  added : step.result.added = (incoming.offsets \ Store.offsetsOf store.segments).card
  whole : step.result.overlap + step.result.added = incoming.length
  /-- No subtraction on the way to these figures is cut off at zero. -/
  exact : plan.length ≤ plan.absorbedBytes + incoming.length ∧ plan.absorbedBytes ≤ plan.length

namespace Store

section Plan

variable {store : Store} (separated : Separated store.segments) (incoming : Segment)

include separated

/-- An incoming segment meets no stored one but those that are taken in. -/
theorem inter_absorbed :
    offsetsOf (store.planMerge incoming).absorbed ∩ incoming.offsets =
      incoming.offsets ∩ offsetsOf store.segments := by
  ext offset
  simp only [Finset.mem_inter, mem_offsetsOf, mem_absorbed separated, Segment.mem_offsets]
  constructor
  · rintro ⟨⟨segment, ⟨member, -⟩, covers⟩, within⟩
    exact ⟨within, segment, member, covers⟩
  · rintro ⟨within, segment, member, covers⟩
    exact ⟨⟨segment, ⟨member, by omega, by omega⟩, covers⟩, within⟩

/-- **Inclusion and exclusion.**  What is taken in and what comes in are longer than the segment
they make by the offsets that both hold. -/
theorem length_planMerge :
    (store.planMerge incoming).length + (incoming.offsets ∩ offsetsOf store.segments).card =
      (store.planMerge incoming).absorbedBytes + incoming.length := by
  have both := Finset.card_union_add_card_inter
    (offsetsOf (store.planMerge incoming).absorbed) incoming.offsets
  rw [← (planMerge_spans separated incoming).filled (absorbed_touching separated incoming),
    inter_absorbed separated, Nat.card_Ico, card_offsetsOf (separated_absorbed separated incoming),
    Segment.card_offsets] at both
  exact both

/-- What is taken in is part of what is held. -/
theorem absorbedBytes_le (counted : store.Counted) :
    (store.planMerge incoming).absorbedBytes ≤ store.held := by
  have split := congrArg (totalOf Segment.length) (segments_split separated incoming)
  simp only [totalOf_append] at split
  rw [counted.2, split]
  unfold Merge.absorbedBytes
  omega

/-- **A plan foretells the step that carries it out.** -/
theorem foretells_planMerge (counted : store.Counted) :
    (store.planMerge incoming).Foretells store incoming (store.insert incoming) := by
  have spans := planMerge_spans separated incoming
  have segment := Merge.length_segment spans
  have sum := length_planMerge separated incoming
  have part := absorbedBytes_le separated incoming counted
  have taken := absorbed_sublist separated incoming
  have known : (incoming.offsets ∩ offsetsOf store.segments).card ≤ incoming.length := by
    rw [← Segment.card_offsets]
    exact Finset.card_le_card Finset.inter_subset_left
  have news : (incoming.offsets \ offsetsOf store.segments).card +
      (incoming.offsets ∩ offsetsOf store.segments).card = incoming.length := by
    rw [Finset.card_sdiff_add_card_inter, Segment.card_offsets]
  have overlap : (store.insert incoming).result.overlap =
      (store.planMerge incoming).absorbedBytes + incoming.length -
        (store.planMerge incoming).length := rfl
  have added : (store.insert incoming).result.added =
      ((store.planMerge incoming).segment incoming).length -
        (store.planMerge incoming).absorbedBytes := rfl
  have held : (store.insert incoming).state.held =
      store.held - (store.planMerge incoming).absorbedBytes +
        ((store.planMerge incoming).segment incoming).length := rfl
  rw [segment] at added held
  refine
    { taken := taken
      absorbed := rfl
      count := ⟨?_, rfl⟩
      held := ⟨part, held⟩
      grown := by omega
      counted := ⟨counted, counted_insert separated incoming counted⟩
      merged := ⟨_, (mem_insert separated incoming).2 (Or.inl rfl), ?_, ?_, ?_⟩
      overlap := by omega
      added := by omega
      whole := by omega
      exact := by omega }
  · rw [counted.1]
    exact taken.length_le
  · rw [Merge.start_segment]
    exact spans.start_le
  · rw [Merge.stop_segment spans]
    exact spans.le_stop
  · rw [← Segment.length_eq]
    exact segment

end Plan

end Store

/-! ## Chunks -/

namespace Buffer

/-- The offsets of a chunk that the cursor has passed or that are held. -/
def knownOf (buffer : Buffer) (chunk : Chunk) : Finset Nat :=
  (Finset.Ico chunk.offset chunk.stop).filter fun offset =>
    offset < buffer.cursor ∨ offset ∈ Store.offsetsOf buffer.store.segments

/-- The other offsets of a chunk. -/
def newsOf (buffer : Buffer) (chunk : Chunk) : Finset Nat :=
  (Finset.Ico chunk.offset chunk.stop).filter fun offset =>
    buffer.cursor ≤ offset ∧ offset ∉ Store.offsetsOf buffer.store.segments

section Clipped

variable {buffer : Buffer} {chunk : Chunk}
  (news : buffer.cursor < chunk.offset + chunk.data.length)

include news

/-- What is new of a chunk is what is new of the part that arrives. -/
theorem newsOf_eq :
    buffer.newsOf chunk =
      (buffer.arriving chunk.offset chunk.data).offsets \
        Store.offsetsOf buffer.store.segments := by
  have stop := stop_arriving news
  have start : (buffer.arriving chunk.offset chunk.data).start =
      max chunk.offset buffer.cursor := rfl
  ext offset
  simp only [newsOf, Chunk.stop, ← chunk.length_data, Finset.mem_filter, Finset.mem_Ico,
    Finset.mem_sdiff, Segment.mem_offsets, stop, start]
  constructor
  · rintro ⟨within, ahead, absent⟩
    exact ⟨by omega, absent⟩
  · rintro ⟨within, absent⟩
    exact ⟨by omega, by omega, absent⟩

/-- What is known of a chunk is what the cursor cuts off, and what is held of the rest. -/
theorem card_knownOf :
    (buffer.knownOf chunk).card =
      ((buffer.arriving chunk.offset chunk.data).offsets ∩
          Store.offsetsOf buffer.store.segments).card + (buffer.cursor - chunk.offset) := by
  have stop := stop_arriving news
  have start : (buffer.arriving chunk.offset chunk.data).start =
      max chunk.offset buffer.cursor := rfl
  have split : buffer.knownOf chunk =
      ((buffer.arriving chunk.offset chunk.data).offsets ∩
          Store.offsetsOf buffer.store.segments) ∪
        Finset.Ico chunk.offset (max chunk.offset buffer.cursor) := by
    ext offset
    simp only [knownOf, Chunk.stop, ← chunk.length_data, Finset.mem_filter, Finset.mem_Ico,
      Finset.mem_union, Finset.mem_inter, Segment.mem_offsets, stop, start]
    by_cases held : offset ∈ Store.offsetsOf buffer.store.segments
    · simp only [held, or_true, and_true]
      omega
    · simp only [held, or_false, and_false, false_or]
      omega
  have disjoint : Disjoint
      ((buffer.arriving chunk.offset chunk.data).offsets ∩
        Store.offsetsOf buffer.store.segments)
      (Finset.Ico chunk.offset (max chunk.offset buffer.cursor)) := by
    rw [Finset.disjoint_left]
    intro offset within below
    have reached := (Segment.mem_offsets.1 (Finset.mem_inter.1 within).1).1
    have := (Finset.mem_Ico.1 below).2
    omega
  rw [split, Finset.card_union_of_disjoint disjoint, Nat.card_Ico]
  omega

end Clipped

section Counts

variable {buffer : Buffer} {chunk : Chunk}

/-- All of a chunk is known that ends at or below the cursor. -/
theorem known_of_passed (passed : chunk.offset + chunk.data.length ≤ buffer.cursor) :
    (buffer.knownOf chunk).card = chunk.data.length ∧ (buffer.newsOf chunk).card = 0 := by
  have whole : buffer.knownOf chunk = Finset.Ico chunk.offset chunk.stop := by
    apply Finset.filter_true_of_mem
    intro offset within
    have := (Finset.mem_Ico.1 within).2
    rw [Chunk.stop, ← chunk.length_data] at this
    exact Or.inl (by omega)
  have nothing : buffer.newsOf chunk = ∅ := by
    apply Finset.filter_false_of_mem
    intro offset within
    have := (Finset.mem_Ico.1 within).2
    rw [Chunk.stop, ← chunk.length_data] at this
    omega
  rw [whole, nothing, Nat.card_Ico, Chunk.stop, ← chunk.length_data]
  exact ⟨by omega, rfl⟩

/-- The outcome that is reported of an accepted chunk counts its known offsets and the others. -/
theorem Sound.counts_place (sound : buffer.Sound) {outcome : MergeOutcome}
    (accepted : (buffer.place chunk).result = .ok outcome) :
    outcome.overlap = (buffer.knownOf chunk).card ∧
      outcome.added = (buffer.newsOf chunk).card := by
  rw [← place_ofData] at accepted
  rcases Nat.lt_or_ge maxOffset (chunk.offset + chunk.data.length) with beyond | fits
  · rw [place_overflow beyond] at accepted
    cases accepted
  · rcases Nat.lt_or_ge buffer.cursor (chunk.offset + chunk.data.length) with news | passed
    · have foretold := Store.foretells_planMerge sound.store.separated
        (buffer.arriving chunk.offset chunk.data) sound.store.counted
      rw [place_news fits news, accept_eq sound.store.separated] at accepted
      cases check : buffer.limits.check (buffer.merged chunk.offset chunk.data).held
          (buffer.merged chunk.offset chunk.data).count with
      | error refusal =>
          unfold merged inserting at check
          rw [check] at accepted
          cases accepted
      | ok _ =>
          unfold merged inserting at check
          rw [check] at accepted
          cases accepted
          rw [card_knownOf news, newsOf_eq news, ← foretold.overlap, ← foretold.added]
          exact ⟨rfl, rfl⟩
    · rw [place_late fits passed] at accepted
      cases accepted
      obtain ⟨known, nothing⟩ := known_of_passed passed
      exact ⟨known.symm, nothing.symm⟩

/-- Every offset of a chunk is known or new. -/
theorem card_knownOf_add_newsOf (buffer : Buffer) (chunk : Chunk) :
    (buffer.knownOf chunk).card + (buffer.newsOf chunk).card = chunk.length := by
  have others : buffer.newsOf chunk =
      (Finset.Ico chunk.offset chunk.stop).filter fun offset =>
        ¬(offset < buffer.cursor ∨ offset ∈ Store.offsetsOf buffer.store.segments) := by
    apply Finset.filter_congr
    intro offset _
    rw [not_or, Nat.not_lt]
  rw [others, knownOf, Finset.card_filter_add_card_filter_not, Nat.card_Ico, Chunk.stop,
    Nat.add_sub_cancel_left]

/-- The outcome of a chunk counts its bytes right, and the count is reported. -/
structure Counts (buffer : Buffer) (chunk : Chunk) (outcome : MergeOutcome) : Prop where
  overlap : outcome.overlap = (buffer.knownOf chunk).card
  added : outcome.added = (buffer.newsOf chunk).card
  whole : outcome.overlap + outcome.added = chunk.length
  /-- An empty chunk is not stored at all. -/
  reported : chunk.length ≠ 0 →
    Event.accepted chunk.length outcome.overlap outcome.added ∈ (buffer.ingestChunk chunk).events

theorem Sound.counts (sound : buffer.Sound) {outcome : MergeOutcome}
    (accepted : (buffer.place chunk).result = .ok outcome) : buffer.Counts chunk outcome := by
  obtain ⟨overlap, added⟩ := sound.counts_place accepted
  refine
    { overlap := overlap
      added := added
      whole := ?_
      reported := ?_ }
  · rw [overlap, added]
    exact card_knownOf_add_newsOf buffer chunk
  · intro nonempty
    unfold ingestChunk
    rw [if_neg nonempty]
    apply List.mem_append_right
    rw [accepted]
    exact List.mem_append_right _ (List.mem_singleton.2 rfl)

end Counts

end Buffer

/-! ## Reachable stores and buffers -/

/-- **The figures of a merge are right.**  A plan foretells what carrying it out does to a store,
and the counts of a chunk are those of the offsets that a buffer knew and of the others. -/
theorem merges_foretold :
    (∀ (changes : List Store.Change) (incoming : Segment),
      let store := Store.empty.after changes
      let plan := store.planMerge incoming
      plan.Foretells store incoming (store.apply plan incoming)) ∧
    ∀ (limits : Limits) (calls : List Buffer.Call) (chunk : Chunk) (outcome : MergeOutcome),
      let buffer := ((Buffer.fresh limits).run calls).state
      (buffer.place chunk).result = .ok outcome → buffer.Counts chunk outcome := by
  constructor
  · intro changes incoming store plan
    have sound : store.Sound := Store.sound_empty.after changes
    exact Store.foretells_planMerge sound.separated incoming sound.counted
  · intro limits calls chunk outcome buffer accepted
    exact (Buffer.follows_fresh limits calls).sound.counts accepted

/-- A chunk begins below the cursor and goes over a stored byte on either side of a gap. -/
theorem merges_foretold_straddling :
    let calls : List Buffer.Call :=
      [.request (.ingest 0 [1, 2, 3]), .request (.read 2), .request (.ingest 5 [6])]
    let buffer := ((Buffer.fresh {}).run calls).state
    let chunk := Chunk.ofData 1 [2, 3, 4, 5, 6, 7]
    (buffer.place chunk).result = .ok ⟨2, 3, 3⟩ ∧ buffer.Counts chunk ⟨2, 3, 3⟩ := by
  intro calls buffer chunk
  have accepted : (buffer.place chunk).result = .ok ⟨2, 3, 3⟩ := by decide
  exact ⟨accepted, merges_foretold.2 {} calls chunk ⟨2, 3, 3⟩ accepted⟩

end Gapless
