/-
# Gapless.Proofs.Cutting -- where bytes are cut into chunks does not matter

Bytes may be offered as one chunk or as several, each of which begins where the one before it
ends (`Buffer.laid`).  On a tape this comes to the same (`Tape.writeAll_laid`), and so do the
ranges (`Buffer.ranged_laid`).  So when the bytes are the only limit, the pieces are all accepted
just when the whole is (`Sound.accepts_laid_iff`), and the buffers are alike afterwards.

The merges on the two ways have little to do with each other: a piece may be cut off by the
cursor, stand alone, or bridge to what lies behind it, where the whole does all at once.
-/
import Gapless.Proofs.Reordering

namespace Gapless

set_option autoImplicit false

namespace Buffer

/-- Pieces as chunks, one right behind the other. -/
def laid (offset : Nat) : List Bytes → List (Nat × Bytes)
  | [] => []
  | piece :: pieces => (offset, piece) :: laid (offset + piece.length) pieces

theorem totalOf_laid (offset : Nat) (pieces : List Bytes) :
    totalOf (·.2.length) (laid offset pieces) = pieces.flatten.length := by
  induction pieces generalizing offset with
  | nil => rfl
  | cons piece pieces ih =>
      simp only [laid, totalOf, List.flatten_cons, List.length_append]
      rw [ih]

/-- There are offsets for some bytes when there are for both parts of them. -/
theorem ranged_append {offset : Nat} {one other : Bytes} :
    Ranged (offset, one ++ other) ↔
      Ranged (offset, one) ∧ Ranged (offset + one.length, other) := by
  simp only [Ranged, List.append_eq_nil_iff, List.length_append]
  by_cases noneFirst : one = []
  · simp [noneFirst]
  · by_cases noneSecond : other = []
    · simp [noneSecond]
    · simp only [noneFirst, noneSecond, false_and, false_or]
      omega

theorem ranged_laid {offset : Nat} {pieces : List Bytes} :
    (∀ chunk ∈ laid offset pieces, Ranged chunk) ↔ Ranged (offset, pieces.flatten) := by
  induction pieces generalizing offset with
  | nil => exact iff_of_true (List.forall_mem_nil _) (Or.inl rfl)
  | cons piece pieces ih =>
      rw [laid, List.forall_mem_cons, ih, List.flatten_cons, ranged_append]

end Buffer

/-- **Pieces that are written one behind the other are written together.** -/
theorem Tape.writeAll_laid (tape : Tape) (offset : Nat) (pieces : List Bytes) :
    tape.writeAll (Buffer.laid offset pieces) = tape.write offset pieces.flatten := by
  induction pieces generalizing tape offset with
  | nil => exact (tape.write_nil offset).symm
  | cons piece pieces ih =>
      rw [List.flatten_cons, ← Tape.write_append]
      exact ih (tape.write offset piece) (offset + piece.length)

namespace Buffer

section Pieces

variable {buffer : Buffer} (sound : buffer.Sound) (uncounted : buffer.limits.segments = none)
  (offset : Nat) (pieces : List Bytes)

include sound uncounted

/-- With no limit on segments, all pieces are accepted just when the whole is. -/
theorem Sound.accepts_laid_iff :
    AllDone (buffer.run (offers (laid offset pieces))).result ↔
      (buffer.ingest offset pieces.flatten).result = .ok () := by
  rw [sound.acceptsAll_iff uncounted, ranged_laid, Tape.writeAll_laid,
    sound.accepts_iff uncounted (offset, pieces.flatten)]

/-- The whole and its pieces leave buffers that are alike, and count for the same. -/
theorem Sound.alike_laid (accepted : (buffer.ingest offset pieces.flatten).result = .ok ()) :
    let whole := buffer.ingest offset pieces.flatten
    let parts := buffer.run (offers (laid offset pieces))
    whole.state.Alike parts.state ∧
      ∀ metrics : Metrics, metrics.after whole.events = metrics.after parts.events := by
  intro whole parts
  have acceptedToo := (sound.accepts_laid_iff uncounted offset pieces).2 accepted
  obtain ⟨tape, -, -, counts⟩ := sound.after_offers acceptedToo
  obtain ⟨-, -, count⟩ := sound.after_ingest accepted
  have follows := sound.run (offers (laid offset pieces))
  have alike : whole.state.Alike parts.state := by
    apply (sound.ingest offset pieces.flatten).alike follows.sound
    · rw [sound.tape_ingest accepted, tape, Tape.writeAll_laid]
    · rw [sound.limits_ingest, follows.limits]
  refine ⟨alike, fun metrics => ?_⟩
  have held : whole.state.store.held = parts.state.store.held := congrArg Stats.held alike.stats
  rw [count, counts, totalOf_laid]
  exact congrArg (fun held => metrics.taking _ (held - _)) held

end Pieces

/-- Two pieces are offered by two calls. -/
theorem run_offers_pair (buffer : Buffer) (offset : Nat) (one other : Bytes) :
    let first := buffer.ingest offset one
    let second := first.state.ingest (offset + one.length) other
    let parts := buffer.run (offers (laid offset [one, other]))
    (AllDone parts.result ↔ first.result = .ok () ∧ second.result = .ok ()) ∧
      parts.state = second.state ∧ parts.events = first.events ++ second.events := by
  intro first second parts
  refine ⟨?_, rfl, ?_⟩
  · have none : AllDone [] := List.forall_mem_nil _
    show AllDone [first.result.map fun _ => .done, second.result.map fun _ => .done] ↔ _
    rw [allDone_cons, allDone_cons, and_iff_left none, done_iff, done_iff]
  · show first.events ++ (second.events ++ []) = _
    rw [List.append_nil]

/-- **A chunk may be cut in two.**  Both parts are accepted just when the whole is, and then either
way ends in buffers that are alike and adds up to the same totals. -/
theorem run_cut (limits : Limits) (uncounted : limits.segments = none) (calls : List Call)
    (offset : Nat) (one other : Bytes) :
    let buffer := ((fresh limits).run calls).state
    let whole := buffer.ingest offset (one ++ other)
    let first := buffer.ingest offset one
    let second := first.state.ingest (offset + one.length) other
    (whole.result = .ok () ↔ first.result = .ok () ∧ second.result = .ok ()) ∧
      (whole.result = .ok () →
        whole.state.Alike second.state ∧
          ∀ metrics : Metrics,
            metrics.after whole.events = metrics.after (first.events ++ second.events)) := by
  intro buffer whole first second
  have follows : Follows (fresh limits) _ buffer := follows_fresh limits calls
  have sound : buffer.Sound := follows.sound
  have unlimited : buffer.limits.segments = none := by rw [follows.limits]; exact uncounted
  have flat : [one, other].flatten = one ++ other := by simp
  obtain ⟨both, state, events⟩ := buffer.run_offers_pair offset one other
  have accepts := sound.accepts_laid_iff unlimited offset [one, other]
  have alike := sound.alike_laid unlimited offset [one, other]
  rw [flat] at accepts alike
  refine ⟨accepts.symm.trans both, fun accepted => ?_⟩
  obtain ⟨seen, totals⟩ := alike accepted
  rw [state] at seen
  rw [events] at totals
  exact ⟨seen, totals⟩

/-- The first part lies on both sides of the cursor, the second one closes a gap, and the buffer
is full afterwards. -/
theorem run_cut_bridging :
    let limits : Limits := { bytes := some 6 }
    let calls : List Call :=
      [.request (.ingest 0 [1, 2]), .request (.read 2), .request (.ingest 6 [7, 8])]
    let buffer := ((fresh limits).run calls).state
    let first := buffer.ingest 1 [2, 3]
    let second := first.state.ingest 3 [4, 5, 6]
    limits.segments = none ∧ (first.result = .ok () ∧ second.result = .ok ()) ∧
      (buffer.ingest 1 [2, 3, 4, 5, 6]).state.Alike second.state ∧
      second.state.stats = ⟨2, 6, 1, 6⟩ := by
  intro limits calls buffer first second
  obtain ⟨accepts, alike⟩ := run_cut limits rfl calls 1 [2, 3] [4, 5, 6]
  have accepted : (buffer.ingest 1 [2, 3, 4, 5, 6]).result = .ok () := by decide
  exact ⟨rfl, accepts.1 accepted, (alike accepted).1, by decide⟩

end Buffer

end Gapless
