/-
# Gapless.Proofs.Budget -- the room that a stream needs in order and against it

When the pieces of a stream are sent in their order, each one is read before the next comes: all
that is ever held is the part of one piece that was not read before, whatever it reaches back for.
Against their order everything waits for the first piece, or for one that reaches back as far, and
then the whole stream is held at once; what comes later is late.

Both are one shape of the tape, which holds nothing or what lies between two offsets
(`Tape.Holds`).  A chunk that meets this stretch makes it longer, and then it is read whole or not
at all.
-/
import Gapless.Proofs.Stalls

namespace Gapless

set_option autoImplicit false

/-! ## Tapes with one stretch -/

/-- A tape at this cursor, with the bytes that lie between two offsets. -/
structure Tape.Holds (tape : Tape) (cursor low high : Nat) : Prop where
  cursor : tape.cursor = cursor
  offsets : tape.bytes.offsets = Finset.Ico low high

namespace Tape.Holds

variable {tape : Tape} {cursor low high : Nat}

theorem fresh : ({} : Tape).Holds 0 high high := ⟨rfl, (Finset.Ico_self high).symm⟩

/-- A chunk that meets the stretch makes it longer. -/
theorem write (holds : tape.Holds cursor low high) (ahead : cursor ≤ low) (chunk : Chunk)
    (reaches : chunk.offset ≤ high) (meets : low ≤ chunk.offset + chunk.data.length) :
    (tape.write chunk.offset chunk.data).Holds cursor (max cursor (min low chunk.offset))
      (max high (chunk.offset + chunk.data.length)) := by
  refine ⟨holds.cursor, Finset.ext fun other => ?_⟩
  rw [mem_write, holds.offsets, holds.cursor, Finset.mem_Ico, Finset.mem_Ico]
  omega

theorem counts (holds : tape.Holds cursor low high) (some : low < high) :
    (runStarts tape.bytes.offsets).card = 1 ∧ tape.bytes.offsets.card = high - low := by
  have first : runStarts tape.bytes.offsets = {low} := by
    ext offset
    rw [runStarts, holds.offsets, Finset.mem_filter, Finset.mem_Ico, Finset.mem_Ico,
      Finset.mem_singleton]
    omega
  rw [first, holds.offsets, Nat.card_Ico]
  exact ⟨rfl, rfl⟩

theorem readable_first (holds : tape.Holds cursor cursor high) (ordered : cursor ≤ high) :
    tape.readable = high - cursor := by
  rw [readable, ByteMap.reach_eq_iff, holds.offsets, holds.cursor]
  simp only [Finset.mem_Ico]
  constructor
  · omega
  · intro index less
    omega

theorem readable_gap (holds : tape.Holds cursor low high) (gap : cursor < low) :
    tape.readable = 0 := by
  rw [readable, ByteMap.reach_eq_zero_iff, holds.offsets, holds.cursor, Finset.mem_Ico]
  omega

theorem skip (holds : tape.Holds cursor low high) (count : Nat) :
    (tape.skip count).Holds (cursor + count) (max low (cursor + count)) high := by
  refine ⟨congrArg (· + count) holds.cursor, Finset.ext fun other => ?_⟩
  show other ∈ tape.bytes.offsets.filter (tape.cursor + count ≤ ·) ↔ _
  rw [Finset.mem_filter, holds.offsets, holds.cursor, Finset.mem_Ico, Finset.mem_Ico]
  omega

section Gulps

variable {chunk : Chunk}

/-- A stretch at the cursor is read to its end. -/
theorem gulped_first (holds : (tape.write chunk.offset chunk.data).Holds cursor cursor high)
    (some : cursor < high) :
    ((tape.gulp chunk).segments = 1 ∧ (tape.gulp chunk).held = high - cursor ∧
        (tape.gulp chunk).data.length = high - cursor) ∧
      (tape.gulped chunk).Holds high high high := by
  obtain ⟨segments, held⟩ := holds.counts some
  have readable := holds.readable_first (Nat.le_of_lt some)
  refine ⟨⟨segments, held, ?_⟩, ?_⟩
  · show ((tape.write chunk.offset chunk.data).front _).length = _
    rw [length_front, Nat.min_self, readable]
  · have read := holds.skip (high - cursor)
    rw [Nat.add_sub_cancel' (Nat.le_of_lt some), Nat.max_eq_right (Nat.le_of_lt some)] at read
    rwa [gulped, Tape.read, Nat.min_self, readable]

/-- Behind a gap it stays. -/
theorem gulped_gap (holds : (tape.write chunk.offset chunk.data).Holds cursor low high)
    (gap : cursor < low) (some : low < high) :
    ((tape.gulp chunk).segments = 1 ∧ (tape.gulp chunk).held = high - low ∧
        (tape.gulp chunk).data = []) ∧
      (tape.gulped chunk).Holds cursor low high := by
  obtain ⟨segments, held⟩ := holds.counts some
  have readable := holds.readable_gap gap
  refine ⟨⟨segments, held, ?_⟩, ?_⟩
  · show (tape.write chunk.offset chunk.data).front _ = _
    rw [readable]
    rfl
  · have read := holds.skip 0
    rw [Nat.add_zero, Nat.max_eq_left (Nat.le_of_lt gap)] at read
    rwa [gulped, Tape.read, readable]

/-- Nothing comes of a late chunk when nothing is held. -/
theorem gulped_late (holds : tape.Holds cursor high high)
    (late : chunk.offset + chunk.data.length ≤ cursor) :
    tape.gulp chunk = ⟨0, 0, []⟩ ∧ tape.gulped chunk = tape := by
  have nothing : tape.bytes.offsets = ∅ := holds.offsets.trans (Finset.Ico_self high)
  have readable : tape.readable = 0 := by
    rw [Tape.readable, ByteMap.reach_eq_zero_iff, nothing]
    exact Finset.notMem_empty _
  have ahead : tape.Ahead := fun offset known => by
    rw [nothing] at known
    exact absurd known (Finset.notMem_empty offset)
  have stays : tape.write chunk.offset chunk.data = tape := write_late (holds.cursor ▸ late)
  constructor
  · show Gulp.mk (runStarts (tape.write chunk.offset chunk.data).bytes.offsets).card
      (tape.write chunk.offset chunk.data).bytes.offsets.card
      ((tape.write chunk.offset chunk.data).front _) = _
    rw [stays, readable, nothing]
    rfl
  · rw [gulped, stays, Tape.read, readable]
    exact skip_zero ahead

/-- Nor of many. -/
theorem gulps_late (holds : tape.Holds cursor high high) {chunks : List Chunk}
    (late : ∀ chunk ∈ chunks, chunk.offset + chunk.data.length ≤ cursor) {gulp : Gulp}
    (member : gulp ∈ tape.gulps chunks) : gulp = ⟨0, 0, []⟩ := by
  induction chunks with
  | nil => cases member
  | cons chunk rest ih =>
      obtain ⟨first, later⟩ := List.forall_mem_cons.1 late
      obtain ⟨idle, next⟩ := holds.gulped_late first
      rw [gulps, next, idle] at member
      rcases List.mem_cons.1 member with same | member
      · exact same
      · exact ih later member

end Gulps

end Tape.Holds

/-! ## Plans -/

/-- One segment is always allowed. -/
theorem Limits.allows_iff {limits : Limits} {report : ReplayReport}
    (one : report.peakSegments = 1) (usable : ∀ bound ∈ limits.segments, 0 < bound) :
    limits.Allows report ↔ Within report.peakHeld limits.bytes := by
  constructor
  · intro allows
    exact allows.held
  · intro within
    refine ⟨within, ?_⟩
    rw [one]
    exact usable

namespace DeliveryPlan

variable {plan : DeliveryPlan} {stream : Bytes} (cuts : 0 < plan.chunkSize)

include cuts

/-- A chunk ends where its part of the stream does. -/
theorem stop_chunk {place : Nat} (counted : place < plan.pieces stream.length) :
    (plan.chunk stream place).offset + (plan.chunk stream place).data.length =
      min ((place + 1) * plan.chunkSize) stream.length := by
  have short := (lt_pieces_iff cuts).1 counted
  have bound : (place + 1) * plan.chunkSize = place * plan.chunkSize + plan.chunkSize :=
    Nat.succ_mul _ _
  unfold chunk
  rw [Chunk.data_within, List.length_take, List.length_drop]
  show place * plan.chunkSize - plan.overlap + _ = _
  omega

/-- **Pieces in their order** are read one by one. -/
theorem peaks_forward (readSize : Nat) {place count : Nat}
    (all : place + count = plan.pieces stream.length) {tape : Tape}
    (holds : tape.Holds (min (place * plan.chunkSize) stream.length)
      (min (place * plan.chunkSize) stream.length) (min (place * plan.chunkSize) stream.length)) :
    let report := ReplayReport.ofGulps readSize
      (tape.gulps ((List.range' place count).map (plan.chunk stream)))
    report.peakHeld = min plan.chunkSize (stream.length - place * plan.chunkSize) ∧
      report.peakSegments = min 1 count ∧ report.stalledPolls = 0 := by
  induction count generalizing place tape with
  | zero =>
      have reached : ¬place * plan.chunkSize < stream.length := fun short =>
        absurd ((lt_pieces_iff cuts).2 short) (by omega)
      refine ⟨?_, rfl, rfl⟩
      show 0 = _
      omega
  | succ count ih =>
      have counted : place < plan.pieces stream.length := by omega
      have short := (lt_pieces_iff cuts).1 counted
      have bound : (place + 1) * plan.chunkSize = place * plan.chunkSize + plan.chunkSize :=
        Nat.succ_mul _ _
      have stop := stop_chunk cuts counted
      have low : (plan.chunk stream place).offset = place * plan.chunkSize - plan.overlap := rfl
      -- What it reaches back for lies below the cursor, so its own part is all that is held.
      have written := holds.write (Nat.le_refl _) (plan.chunk stream place) (by omega) (by omega)
      rw [Nat.max_eq_left (Nat.min_le_left _ _), Nat.max_eq_right (by omega), stop] at written
      obtain ⟨⟨segments, held, length⟩, next⟩ := written.gulped_first (by omega)
      obtain ⟨peakHeld, peakSegments, stalled⟩ := ih (by omega) next
      rw [List.range'_succ, List.map_cons, Tape.gulps]
      refine ⟨?_, ?_, ?_⟩
      · show max _ (ReplayReport.ofGulps readSize _).peakHeld = _
        rw [peakHeld, held]
        omega
      · show max _ (ReplayReport.ofGulps readSize _).peakSegments = _
        rw [peakSegments, segments]
        omega
      · have found : (tape.gulp (plan.chunk stream place)).data ≠ [] :=
          List.ne_nil_of_length_pos (by omega)
        show List.countP (fun gulp => gulp.data.isEmpty) (tape.gulp _ :: _) = 0
        rw [List.countP_cons_of_neg (by simpa using found)]
        exact stalled

/-- **Pieces against their order** wait until all can be read at once. -/
theorem padded_reverse {count low : Nat} (left : count ≤ plan.pieces stream.length) {tape : Tape}
    (holds : tape.Holds 0 low stream.length) (gap : 0 < low) (ordered : low ≤ stream.length)
    (meets : low ≤ count * plan.chunkSize) :
    ∃ stalls whole, Padded stalls [whole]
        (tape.gulps ((List.range count).reverse.map (plan.chunk stream))) ∧
      whole.segments = 1 ∧ whole.held = stream.length ∧ whole.data.length = stream.length := by
  induction count generalizing low tape with
  | zero => omega
  | succ count ih =>
      have short := (lt_pieces_iff cuts).1 left
      have stop := stop_chunk cuts left
      have begins : (plan.chunk stream count).offset = count * plan.chunkSize - plan.overlap := rfl
      have bound : (count + 1) * plan.chunkSize = count * plan.chunkSize + plan.chunkSize :=
        Nat.succ_mul _ _
      -- What came so far ends with the stream, and this piece meets it from below.
      have written := holds.write (Nat.zero_le _) (plan.chunk stream count) (by omega) (by omega)
      rw [Nat.max_eq_right (Nat.zero_le _), Nat.max_eq_left (by omega)] at written
      rw [List.range_succ, List.reverse_append, List.reverse_singleton, List.singleton_append,
        List.map_cons, Tape.gulps]
      rcases Nat.eq_zero_or_pos (min low (plan.chunk stream count).offset) with first | behind
      · rw [first] at written
        obtain ⟨⟨segments, held, length⟩, next⟩ := written.gulped_first (by omega)
        rw [Nat.sub_zero] at held length
        refine ⟨_, _, .behind fun gulp member => ?_, segments, held, length⟩
        rw [next.gulps_late ?_ member]
        · exact ⟨Nat.zero_le _, Nat.zero_le _, rfl⟩
        · intro chunk later
          obtain ⟨place, earlier, rfl⟩ := List.mem_map.1 later
          rw [List.mem_reverse, List.mem_range] at earlier
          rw [stop_chunk cuts (by omega)]
          exact Nat.min_le_right _ _
      · obtain ⟨⟨segments, held, data⟩, next⟩ := written.gulped_gap behind (by omega)
        obtain ⟨stalls, whole, padded, one, size, length⟩ :=
          ih (by omega) next behind (by omega) (by omega)
        have under : (tape.gulp (plan.chunk stream count)).StallsUnder whole :=
          { segments := by rw [segments, one]
            held := by
              rw [held, size]
              exact Nat.sub_le _ _
            data := data }
        exact ⟨stalls + 1, whole, padded.stall (List.mem_singleton_self _) under, one, size, length⟩

section Orders

variable (found : stream ≠ []) (readSize : Nat)

include found

theorem report_forward (forward : plan.order = .forward) :
    let plain := ReplayReport.ofGulps readSize (Tape.gulps {} (plan.arranged stream))
    plain.stalledPolls = 0 ∧ plain.peakSegments = 1 ∧
      plain.peakHeld = min plan.chunkSize stream.length := by
  intro plain
  have length := List.length_pos_iff.2 found
  have first : 0 < plan.pieces stream.length := (lt_pieces_iff cuts).2 (by omega)
  have holds : Tape.Holds {} (min (0 * plan.chunkSize) stream.length)
      (min (0 * plan.chunkSize) stream.length) (min (0 * plan.chunkSize) stream.length) := by
    rw [Nat.zero_mul, Nat.zero_min]
    exact .fresh
  obtain ⟨held, segments, stalled⟩ := peaks_forward cuts readSize (Nat.zero_add _) holds
  have sent : plan.arranged stream =
      (List.range' 0 (plan.pieces stream.length)).map (plan.chunk stream) := by
    rw [arranged_eq, forward, ← List.range_eq_range']
    rfl
  have told : plain = .ofGulps readSize (Tape.gulps {} _) :=
    congrArg (fun chunks => ReplayReport.ofGulps readSize (Tape.gulps {} chunks)) sent
  rw [told, stalled, segments, held, Nat.zero_mul, Nat.sub_zero]
  exact ⟨rfl, Nat.min_eq_left first, rfl⟩

theorem report_reverse (reverse : plan.order = .reverse) :
    let plain := ReplayReport.ofGulps readSize (Tape.gulps {} (plan.arranged stream))
    plain.stalledPolls + 1 = plain.chunks ∧ plain.reads = stream.length ⌈/⌉ readSize ∧
      plain.peakSegments = 1 ∧ plain.peakHeld = stream.length := by
  intro plain
  have length := List.length_pos_iff.2 found
  have reached : stream.length ≤ plan.pieces stream.length * plan.chunkSize := by
    by_contra short
    exact absurd ((lt_pieces_iff cuts).2 (Nat.not_le.1 short)) (Nat.lt_irrefl _)
  obtain ⟨stalls, whole, padded, segments, held, taken⟩ :=
    padded_reverse cuts (Nat.le_refl _) .fresh length (Nat.le_refl _) reached
  have sent : plan.arranged stream =
      (List.range (plan.pieces stream.length)).reverse.map (plan.chunk stream) := by
    rw [arranged_eq, reverse]
    rfl
  rw [← sent] at padded
  have some : whole.data ≠ [] := List.ne_nil_of_length_pos (by omega)
  have single : ReplayReport.ofGulps readSize [whole] =
      { chunks := 1, reads := stream.length ⌈/⌉ readSize, stalledPolls := 0, peakSegments := 1,
        peakHeld := stream.length, output := whole.data } := by
    simp [ReplayReport.ofGulps, some, segments, held, taken]
  have more := padded.report readSize
  rw [single] at more
  refine ⟨?_, more.reads, more.peakSegments, more.peakHeld⟩
  rw [more.stalledPolls, more.chunks]
  exact Nat.add_right_comm 0 stalls 1

variable {limits : Limits} (positive : 0 < readSize) (room : readSize ≤ longestRequest)
  (fits : stream.length ≤ maxOffset) (usable : ∀ bound ∈ limits.segments, 0 < bound)

include positive room fits usable

theorem replay_forward (forward : plan.order = .forward) :
    let outcome := (Buffer.fresh limits).replay (plan.chunks stream) readSize
    let count := plan.pieces stream.length
    let least := min plan.chunkSize stream.length
    ((∃ report, outcome.result = .ok report) ↔ Limits.Within least limits.bytes) ∧
      ∀ report, outcome.result = .ok report →
        report.chunks = count + plan.resent count ∧ report.stalledPolls = plan.resent count ∧
          report.peakSegments = 1 ∧ report.peakHeld = least := by
  intro outcome count least
  obtain ⟨stalled, segments, held⟩ := report_forward cuts found readSize forward
  obtain ⟨goes, reports⟩ := plan.replay_ok stream limits cuts positive room fits
  constructor
  · rw [goes, Limits.allows_iff segments usable, held]
  · intro report ended
    have more := reports report ended
    refine ⟨?_, ?_, more.peakSegments.trans segments, more.peakHeld.trans held⟩
    · rw [more.chunks, chunks_plain]
    · rw [more.stalledPolls, stalled, Nat.zero_add]

theorem replay_reverse (reverse : plan.order = .reverse) :
    let outcome := (Buffer.fresh limits).replay (plan.chunks stream) readSize
    let count := plan.pieces stream.length
    ((∃ report, outcome.result = .ok report) ↔ Limits.Within stream.length limits.bytes) ∧
      ∀ report, outcome.result = .ok report →
        report.chunks = count + plan.resent count ∧ report.stalledPolls + 1 = report.chunks ∧
          report.reads = stream.length ⌈/⌉ readSize ∧
          report.peakSegments = 1 ∧ report.peakHeld = stream.length := by
  intro outcome count
  obtain ⟨stalled, reads, segments, held⟩ := report_reverse cuts found readSize reverse
  obtain ⟨goes, reports⟩ := plan.replay_ok stream limits cuts positive room fits
  constructor
  · rw [goes, Limits.allows_iff segments usable, held]
  · intro report ended
    have more := reports report ended
    refine ⟨?_, ?_, more.reads.trans reads, more.peakSegments.trans segments,
      more.peakHeld.trans held⟩
    · rw [more.chunks, chunks_plain]
    · rw [more.stalledPolls, more.chunks, ← stalled]
      exact Nat.add_right_comm _ _ _

end Orders

omit cuts

/-- **The room that a stream needs.**  In order a plan goes through when one piece of it can be
held, against its order when the whole stream can.  How far the pieces reach back and how many
segments are allowed has no say in this, and neither shows in what is reported. -/
theorem replay_budget (plan : DeliveryPlan) (stream : Bytes) (limits : Limits) {readSize : Nat}
    (cuts : 0 < plan.chunkSize) (positive : 0 < readSize) (room : readSize ≤ longestRequest)
    (found : stream ≠ []) (fits : stream.length ≤ maxOffset)
    (usable : ∀ bound ∈ limits.segments, 0 < bound) :
    let count := stream.length ⌈/⌉ plan.chunkSize
    let least := min plan.chunkSize stream.length
    let replay := fun order =>
      ((Buffer.fresh limits).replay ({ plan with order := order }.chunks stream) readSize).result
    ((∃ report, replay .forward = .ok report) ↔ Limits.Within least limits.bytes) ∧
      (∀ report, replay .forward = .ok report →
        report.chunks = count + plan.resent count ∧ report.stalledPolls = plan.resent count ∧
          report.peakSegments = 1 ∧ report.peakHeld = least) ∧
      ((∃ report, replay .reverse = .ok report) ↔
        Limits.Within stream.length limits.bytes) ∧
      ∀ report, replay .reverse = .ok report →
        report.chunks = count + plan.resent count ∧ report.stalledPolls + 1 = report.chunks ∧
          report.reads = stream.length ⌈/⌉ readSize ∧
          report.peakSegments = 1 ∧ report.peakHeld = stream.length := by
  intro count least replay
  have counted : plan.pieces stream.length = count := plan.pieces_eq stream.length
  obtain ⟨goes, reports⟩ := { plan with order := .forward }.replay_forward cuts found readSize
    positive room fits usable rfl
  obtain ⟨turns, returns⟩ := { plan with order := .reverse }.replay_reverse cuts found readSize
    positive room fits usable rfl
  rw [← counted]
  exact ⟨goes, reports, turns, returns⟩

/-- Three pieces of ten bytes reach back over more than one piece, and the second that is sent is
sent twice.  Four bytes are enough in order, nine are too few against it, ten are enough. -/
theorem replay_budget_tight :
    let plan : DeliveryPlan := { chunkSize := 4, overlap := 5, duplicateEvery := some 2 }
    let stream : Bytes := [1, 2, 3, 4, 5, 6, 7, 8, 9, 10]
    let four : Limits := { bytes := some 4, segments := some 1 }
    let nine : Limits := { bytes := some 9 }
    let ten : Limits := { bytes := some 10, segments := some 1 }
    let replay := fun (limits : Limits) order =>
      ((Buffer.fresh limits).replay ({ plan with order := order }.chunks stream) 3).result
    (0 < plan.chunkSize ∧ 0 < 3 ∧ 3 ≤ longestRequest ∧ stream ≠ [] ∧ stream.length ≤ maxOffset ∧
        (∀ bound ∈ ten.segments, 0 < bound)) ∧
      (∃ report, replay four .forward = .ok report ∧
        report.stalledPolls = 1 ∧ report.peakSegments = 1 ∧ report.peakHeld = 4) ∧
      (¬∃ report, replay nine .reverse = .ok report) ∧
      ∃ report, replay ten .reverse = .ok report ∧
        report.stalledPolls = 3 ∧ report.reads = 4 ∧ report.peakHeld = 10 := by
  intro plan stream four nine ten replay
  have cuts : 0 < plan.chunkSize := by decide
  have positive : 0 < 3 := by decide
  have room : 3 ≤ longestRequest := by decide
  have found : stream ≠ [] := by decide
  have fits : stream.length ≤ maxOffset := by decide
  have usableFour : ∀ bound ∈ four.segments, 0 < bound := by simp [four]
  have usableNine : ∀ bound ∈ nine.segments, 0 < bound := by simp [nine]
  have usableTen : ∀ bound ∈ ten.segments, 0 < bound := by simp [ten]
  obtain ⟨goes, reports, -, -⟩ :=
    replay_budget plan stream four cuts positive room found fits usableFour
  obtain ⟨-, -, stops, -⟩ := replay_budget plan stream nine cuts positive room found fits usableNine
  obtain ⟨-, -, turns, returns⟩ :=
    replay_budget plan stream ten cuts positive room found fits usableTen
  refine ⟨⟨cuts, positive, room, found, fits, usableTen⟩, ?_, ?_, ?_⟩
  · obtain ⟨report, ended⟩ := goes.2 (by simp [Limits.Within, four, plan, stream])
    obtain ⟨-, stalled, segments, held⟩ := reports report ended
    exact ⟨report, ended, stalled.trans (by decide), segments, held⟩
  · rw [stops]
    simp [Limits.Within, nine, stream]
  · obtain ⟨report, ended⟩ := turns.2 (by simp [Limits.Within, ten, stream])
    obtain ⟨chunks, stalled, reads, -, held⟩ := returns report ended
    have sent : report.chunks = 4 := chunks.trans (by decide)
    exact ⟨report, ended, by omega, reads.trans (by decide), held⟩

/-- Without limits there is room for two bytes, and none can be had for the reads. -/
theorem replay_budget_oversized :
    let plan : DeliveryPlan := { chunkSize := 4096 }
    let stream : Bytes := [97, 98]
    let limits : Limits := {}
    let readSize := 9223372036854775808
    let replay := fun order =>
      ((Buffer.fresh limits).replay ({ plan with order := order }.chunks stream) readSize).result
    (0 < plan.chunkSize ∧ 0 < readSize ∧ stream ≠ [] ∧ stream.length ≤ maxOffset) ∧
      Limits.Within (min plan.chunkSize stream.length) limits.bytes ∧
      (¬∃ report, replay .forward = .ok report) ∧
      Limits.Within stream.length limits.bytes ∧ ¬∃ report, replay .reverse = .ok report := by
  intro plan stream limits readSize replay
  have ended (order : DeliveryOrder) : replay order = .error .oversized :=
    congrArg Step.result (Buffer.replay_of_oversized _ _ (by decide))
  rw [ended, ended]
  exact ⟨by decide, nofun, by simp, nofun, by simp⟩

end DeliveryPlan

end Gapless
