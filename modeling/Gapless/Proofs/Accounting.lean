/-
# Gapless.Proofs.Accounting -- what an accepted chunk adds to the running totals

Of the bytes of an accepted chunk some are new and all others were known: stored, or
passed by the cursor.  A buffer grows by the new ones, the level rises with them, and
the others count as overlap (`Sound.after_ingest`).  Totals of this kind add up
(`Metrics.taking_taking`).
-/
import Gapless.Proofs.Admission
import Gapless.Proofs.Overlaps

namespace Gapless

set_option autoImplicit false

/-! ## Totals -/

namespace Metrics

/-- The totals when `length` more bytes were accepted, of which `added` were new. -/
def taking (metrics : Metrics) (length added : Nat) : Metrics :=
  { metrics with
    ingested := metrics.ingested + length
    overlap := metrics.overlap + (length - added) }.shift added

theorem taking_nothing (metrics : Metrics) : metrics.taking 0 0 = metrics := by
  simp [taking, shift]

theorem taking_taking (metrics : Metrics) {length added more news : Nat}
    (within : added ≤ length) (withinToo : news ≤ more) :
    (metrics.taking length added).taking more news =
      metrics.taking (length + more) (added + news) := by
  -- The level remembers whether it was touched, which it is by a positive amount only.
  by_cases old : added = 0 <;> by_cases known : news = 0
  · simp [taking, shift, old, known]
    omega
  · simp [taking, shift, level, old, known]
    omega
  · simp [taking, shift, level, old, known]
    omega
  · have touched : (added : Int) + news ≠ 0 := by omega
    simp [taking, shift, level, old, known, touched]
    omega

/-- The report on an accepted chunk counts its new bytes and the others. -/
theorem after_placement (metrics : Metrics) (offset length : Nat) {outcome : MergeOutcome}
    (rest : outcome.overlap = length - outcome.added) :
    metrics.after (Buffer.placementEvents offset length (.ok outcome)) =
      metrics.taking length outcome.added := by
  unfold Buffer.placementEvents taking
  rw [← rest]
  by_cases known : outcome.added = 0 <;> simp [known, after, note]

/-- What a desk reports on a chunk counts for nothing. -/
theorem after_report (metrics : Metrics) (desk : Desk) (offset length : Nat)
    (result : Except Refusal Unit) :
    metrics.after (desk.report offset length result) = metrics := by
  cases result <;> rfl

end Metrics

/-! ## Chunks -/

namespace Buffer

variable {buffer : Buffer} (sound : buffer.Sound) {offset : Nat} {data : Bytes}

include sound

/-- A merge counts the bytes by which the store grows as new and the others as overlap. -/
theorem Sound.result_inserting (news : buffer.cursor < offset + data.length) :
    buffer.store.held ≤ (buffer.merged offset data).held ∧
      (buffer.merged offset data).held ≤ buffer.store.held + data.length ∧
      (buffer.inserting offset data).result.added =
        (buffer.merged offset data).held - buffer.store.held ∧
      (buffer.inserting offset data).result.overlap + (buffer.cursor - offset) =
        data.length - ((buffer.merged offset data).held - buffer.store.held) := by
  have foretold := Store.foretells_planMerge sound.store.separated
    (buffer.arriving offset data) sound.store.counted
  have arriving :
      (buffer.arriving offset data).length = data.length - (buffer.cursor - offset) := by
    rw [Segment.length_eq]
    exact List.length_drop
  have grown : (buffer.merged offset data).held =
      buffer.store.held + (buffer.inserting offset data).result.added := foretold.grown
  have whole : (buffer.inserting offset data).result.overlap +
      (buffer.inserting offset data).result.added = (buffer.arriving offset data).length :=
    foretold.whole
  exact ⟨by omega, by omega, by omega, by omega⟩

/-- **What an accepted chunk counts for**: the buffer grows by no more than its bytes, and
these are new while the others count as overlap. -/
theorem Sound.after_ingest (accepted : (buffer.ingest offset data).result = .ok ()) :
    buffer.store.held ≤ (buffer.ingest offset data).state.store.held ∧
      (buffer.ingest offset data).state.store.held ≤ buffer.store.held + data.length ∧
      ∀ metrics : Metrics, metrics.after (buffer.ingest offset data).events =
        metrics.taking data.length
          ((buffer.ingest offset data).state.store.held - buffer.store.held) := by
  have fared := ingest_cases sound.store.separated offset data
  generalize buffer.ingest offset data = step at fared accepted
  cases fared with
  | empty nothing =>
      refine ⟨Nat.le_refl _, Nat.le_add_right _ _, fun metrics => ?_⟩
      rw [nothing, Nat.sub_self]
      exact metrics.taking_nothing.symm
  | overflow => cases accepted
  | late nonempty fits passed =>
      refine ⟨Nat.le_refl _, Nat.le_add_right _ _, fun metrics => ?_⟩
      rw [Nat.sub_self]
      have known : MergeOutcome.overlap ⟨0, data.length, 0⟩ = data.length - 0 := rfl
      exact metrics.after_placement offset data.length known
  | refused => cases accepted
  | stored nonempty fits news check =>
      obtain ⟨grown, bound, added, overlap⟩ := sound.result_inserting news
      refine ⟨grown, bound, fun metrics => ?_⟩
      rw [Metrics.after_append, ← added]
      exact metrics.after_placement offset data.length (overlap.trans (by rw [added]))

end Buffer

end Gapless
