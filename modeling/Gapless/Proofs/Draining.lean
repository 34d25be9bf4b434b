/-
# Gapless.Proofs.Draining -- reading little by little is reading all at once

What one read returns and then another, one read of as much returns, and the buffers that are
left are alike (`HandsOut.alike`).  In which of the two ways a read is made does not matter.

A reader who goes on until a read returns nothing gets full pieces up to the last one
(`Portioned`).  Their sizes say how many there are (`Portioned.length_eq`): as many as it takes
to hold what was readable.
-/
import Gapless.Proofs.Alike

namespace Gapless

set_option autoImplicit false

namespace Buffer

/-! ## Two reads -/

/-- The ways to read. -/
def readers : List (Buffer → Nat → Step Buffer Bytes) := [read, take]

theorem Sound.handsOut {buffer : Buffer} (sound : buffer.Sound)
    {reader : Buffer → Nat → Step Buffer Bytes} (known : reader ∈ readers) (count : Nat) :
    HandsOut buffer count (reader buffer count).state (reader buffer count).result := by
  simp only [readers, List.mem_cons, List.not_mem_nil, or_false] at known
  rcases known with rfl | rfl
  · exact sound.read count
  · exact sound.take count

/-- Whoever hands out as much of a buffer returns the same bytes and leaves it alike. -/
theorem HandsOut.alike {buffer one other : Buffer} {count more : Nat} {data dataToo : Bytes}
    (hands : HandsOut buffer count one data) (handsToo : HandsOut buffer more other dataToo)
    (same : min count buffer.tape.readable = min more buffer.tape.readable) :
    data = dataToo ∧ one.Alike other := by
  constructor
  · rw [hands.data, handsToo.data, ← Tape.front_min, same, Tape.front_min]
  · apply hands.sound.alike handsToo.sound
    · rw [hands.tape, handsToo.tape, Tape.read, Tape.read, same]
    · rw [hands.limits, handsToo.limits]

/-! ## Pieces -/

/-- Pieces of `count` bytes each, except that the last one may be shorter. -/
structure Portioned (count : Nat) (pieces : List Bytes) : Prop where
  found : ∀ piece ∈ pieces, piece ≠ []
  within : ∀ piece ∈ pieces, piece.length ≤ count
  full : ∀ piece ∈ pieces.dropLast, piece.length = count

namespace Portioned

variable {count : Nat} {piece : Bytes} {pieces : List Bytes}

theorem nothing (count : Nat) : Portioned count [] where
  found := by simp
  within := by simp
  full := by simp

/-- A piece in front of others is a full one. -/
theorem cons (rest : Portioned count pieces) (found : piece ≠ []) (within : piece.length ≤ count)
    (full : pieces ≠ [] → piece.length = count) : Portioned count (piece :: pieces) where
  found := List.forall_mem_cons.2 ⟨found, rest.found⟩
  within := List.forall_mem_cons.2 ⟨within, rest.within⟩
  full := by
    cases pieces with
    | nil => simp
    | cons next pieces =>
        rw [List.dropLast_cons_cons]
        exact List.forall_mem_cons.2 ⟨full (List.cons_ne_nil _ _), rest.full⟩

theorem tail (portioned : Portioned count (piece :: pieces)) : Portioned count pieces where
  found := (List.forall_mem_cons.1 portioned.found).2
  within := (List.forall_mem_cons.1 portioned.within).2
  full := by
    cases pieces with
    | nil => simp
    | cons next pieces =>
        have full := portioned.full
        rw [List.dropLast_cons_cons] at full
        exact (List.forall_mem_cons.1 full).2

/-- **The number of pieces** is the least one that has room for all the bytes. -/
theorem length_eq (positive : 0 < count) (portioned : Portioned count pieces) :
    pieces.length = (pieces.flatten.length + count - 1) / count := by
  induction pieces with
  | nil =>
      simp only [List.flatten_nil, List.length_nil, Nat.zero_add]
      exact (Nat.div_eq_of_lt (by omega)).symm
  | cons piece pieces ih =>
      have some : 0 < piece.length :=
        List.length_pos_iff.2 (portioned.found piece List.mem_cons_self)
      have within := portioned.within piece List.mem_cons_self
      rw [List.length_cons, ih portioned.tail, List.flatten_cons, List.length_append]
      cases pieces with
      | nil =>
          -- The last piece counts as one, however short it is.
          have whole : piece.length + 0 + count - 1 = piece.length - 1 + count := by omega
          rw [List.flatten_nil, List.length_nil, Nat.zero_add, whole,
            Nat.add_div_right _ positive, Nat.div_eq_of_lt (by omega), Nat.div_eq_of_lt (by omega)]
      | cons next pieces =>
          have full : piece.length = count := by
            apply portioned.full
            rw [List.dropLast_cons_cons]
            exact List.mem_cons_self
          have whole : count + (next :: pieces).flatten.length + count - 1 =
              (next :: pieces).flatten.length + count - 1 + count := by omega
          rw [full, whole, Nat.add_div_right _ positive]

end Portioned

/-! ## The loop -/

section Loop

variable {buffer : Buffer} {count : Nat}

/-- The loop has no choice. -/
theorem Drains.unique {one other : Step Buffer (List Bytes)} (drains : Drains count buffer one)
    (drainsToo : Drains count buffer other) : one = other := by
  induction drains generalizing other with
  | done nothing =>
      cases drainsToo with
      | done _ => rfl
      | more found _ => exact absurd nothing found
  | more found further ih =>
      cases drainsToo with
      | done nothing => exact absurd nothing found
      | more _ furtherToo => rw [ih furtherToo]

/-- The first read finds something when any read does. -/
theorem Drains.readable_pos {step : Step Buffer (List Bytes)} (drains : Drains count buffer step)
    (sound : buffer.Sound) (some : step.result ≠ []) : 0 < buffer.tape.readable := by
  cases drains with
  | done nothing => exact absurd rfl some
  | more found further =>
      have length := List.length_pos_iff.2 found
      rw [(sound.read count).data, Tape.length_front] at length
      omega

/-- Reads of `count` bytes return that many as long as there is more to read after them. -/
theorem Drains.portioned {step : Step Buffer (List Bytes)} (drains : Drains count buffer step)
    (sound : buffer.Sound) : Portioned count step.result := by
  induction drains with
  | done nothing => exact .nothing count
  | @more buffer rest found further ih =>
      have first := sound.read count
      have length : (buffer.read count).result.length = min count buffer.tape.readable := by
        rw [first.data, Tape.length_front]
      apply (ih first.sound).cons found
      · omega
      · intro more
        have left := further.readable_pos first.sound more
        rw [first.tape, Tape.readable_read] at left
        omega

end Loop

/-- **Reads compose, and draining ends.**  Two reads do what one read of both numbers does,
whichever way each of them is made.  Reading `count` bytes at a time until a read returns nothing
takes as many reads as it takes to hold what is readable, and does what a single read of all of it
does. -/
theorem run_reads_compose (limits : Limits) (calls : List Call) :
    let buffer := ((fresh limits).run calls).state
    (∀ one ∈ readers, ∀ other ∈ readers, ∀ whole ∈ readers, ∀ count more : Nat,
      let first := one buffer count
      let second := other first.state more
      let joined := whole buffer (count + more)
      first.result ++ second.result = joined.result ∧ second.state.Alike joined.state) ∧
    ∀ count, 0 < count →
      let drained := buffer.drain count
      let whole := buffer.read buffer.readable
      (∀ step, Drains count buffer step ↔ step = drained) ∧
        drained.result.length = (buffer.readable + count - 1) / count ∧
        Portioned count drained.result ∧
        drained.result.flatten = whole.result ∧ drained.state.Alike whole.state ∧
        drained.state.readable = 0 := by
  intro buffer
  have sound : buffer.Sound := (follows_fresh limits calls).sound
  constructor
  · intro one knownOne other knownOther whole knownWhole count more first second joined
    have hands := sound.handsOut knownOne count
    have both := hands.trans (hands.sound.handsOut knownOther more)
    exact both.alike (sound.handsOut knownWhole (count + more)) rfl
  · intro count positive drained whole
    have drains := sound.drains count
    have hands := sound.drain count
    have everything : min (buffer.tape.readable * count) buffer.tape.readable =
        buffer.tape.readable := Nat.min_eq_right (Nat.le_mul_of_pos_right _ positive)
    have same : min (buffer.tape.readable * count) buffer.tape.readable =
        min buffer.readable buffer.tape.readable := by
      rw [everything, sound.readable_eq, Nat.min_self]
    obtain ⟨bytes, alike⟩ := hands.alike (sound.read buffer.readable) same
    have portioned := drains.portioned sound
    have number := portioned.length_eq positive
    rw [hands.data, Tape.length_front, everything, ← sound.readable_eq] at number
    refine ⟨fun step => ⟨fun ends => ends.unique drains, ?_⟩, number, portioned, bytes, alike, ?_⟩
    · rintro rfl
      exact drains
    · rw [hands.sound.readable_eq, hands.tape, Tape.readable_read]
      have := Nat.le_mul_of_pos_right buffer.tape.readable positive
      omega

/-- Two bytes at a time, after one byte was read: two full reads and one of a single byte, up to
the gap. -/
theorem run_reads_compose_gap :
    let calls : List Call :=
      [.request (.ingest 0 [1, 2, 3, 4, 5, 6]), .request (.ingest 8 [9]), .request (.read 1)]
    let buffer := ((fresh {}).run calls).state
    read ∈ readers ∧ take ∈ readers ∧
      (buffer.read 2).result ++ ((buffer.read 2).state.take 1).result = (buffer.read 3).result ∧
      0 < 2 ∧ (buffer.drain 2).result = [[2, 3], [4, 5], [6]] ∧
      (∀ step, Drains 2 buffer step ↔ step = buffer.drain 2) ∧
      (buffer.drain 2).state.Alike (buffer.read buffer.readable).state := by
  intro calls buffer
  have knownRead : read ∈ readers := List.mem_cons_self
  have knownTake : take ∈ readers := List.mem_cons_of_mem _ List.mem_cons_self
  obtain ⟨compose, drain⟩ := run_reads_compose {} calls
  obtain ⟨both, -⟩ := compose read knownRead take knownTake read knownRead 2 1
  obtain ⟨ends, -, -, -, alike, -⟩ := drain 2 (by decide)
  exact ⟨knownRead, knownTake, both, by decide, by decide, ends, alike⟩

end Buffer

end Gapless
