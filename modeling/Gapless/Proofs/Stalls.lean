/-
# Gapless.Proofs.Stalls -- deliveries that bring nothing to read

A replay of chunks that have their place goes through when its peaks are within the limits, and
not otherwise (`Buffer.Sound.replay_ok_iff`).  So what a replay needs is known from its gulps.

Of these some can be left out: where nothing can be read and no more is held than at another one
(`Gulp.StallsUnder`), a delivery adds itself to the stalled ones and changes nothing else in a
report (`Padded.report`).  A chunk that comes a second time is such a delivery
(`Tape.stalls_again`), so the copies that a plan sends show in a report by their number
(`DeliveryPlan.padded_chunks`).
-/
import Gapless.Proofs.Gulps
import Gapless.Proofs.Sending

namespace Gapless

set_option autoImplicit false

/-! ## Peaks and limits -/

theorem Limits.within_max {one other : Nat} {limit : Option Nat} :
    Within (max one other) limit ↔ Within one limit ∧ Within other limit := by
  simp only [Within, Nat.max_le, forall_and]

/-- No peak of a report is past the limits. -/
structure Limits.Allows (limits : Limits) (report : ReplayReport) : Prop where
  held : Within report.peakHeld limits.bytes
  segments : Within report.peakSegments limits.segments

theorem Limits.allows_cons_iff {limits : Limits} {readSize : Nat} {gulp : Gulp}
    {gulps : List Gulp} :
    limits.Allows (.ofGulps readSize (gulp :: gulps)) ↔
      limits.check gulp.held gulp.segments = .ok () ∧
        limits.Allows (.ofGulps readSize gulps) := by
  rw [check_eq_ok_iff]
  constructor
  · rintro ⟨held, segments⟩
    obtain ⟨heldFirst, heldLater⟩ := within_max.1 held
    obtain ⟨segmentsFirst, segmentsLater⟩ := within_max.1 segments
    exact ⟨⟨heldFirst, segmentsFirst⟩, heldLater, segmentsLater⟩
  · rintro ⟨⟨heldFirst, segmentsFirst⟩, heldLater, segmentsLater⟩
    exact ⟨within_max.2 ⟨heldFirst, heldLater⟩, within_max.2 ⟨segmentsFirst, segmentsLater⟩⟩

/-- A chunk has bytes, and there is an offset for each of them. -/
structure Chunk.Placed (chunk : Chunk) : Prop where
  found : chunk.data ≠ []
  fits : chunk.offset + chunk.data.length ≤ maxOffset

theorem DeliveryPlan.placed_of_mem {plan : DeliveryPlan} {stream : Bytes}
    (cuts : 0 < plan.chunkSize) (fits : stream.length ≤ maxOffset) {chunk : Chunk}
    (member : chunk ∈ plan.chunks stream) : chunk.Placed := by
  obtain ⟨place, counted, rfl⟩ := mem_chunks.1 member
  have found := (data_chunk cuts counted).2
  exact ⟨found, (ranged_of_mem fits member).resolve_left found⟩

namespace Tape

/-- What deliveries come to when none is refused. -/
def gulps (tape : Tape) : List Chunk → List Gulp
  | [] => []
  | chunk :: rest => tape.gulp chunk :: (tape.gulped chunk).gulps rest

theorem length_gulps (tape : Tape) (chunks : List Chunk) :
    (tape.gulps chunks).length = chunks.length := by
  induction chunks generalizing tape with
  | nil => rfl
  | cons chunk rest ih => exact congrArg Nat.succ (ih _)

/-- Only the limits have something to say to a chunk that has its place. -/
theorem verdict_eq (tape : Tape) (limits : Limits) {chunk : Chunk} (placed : chunk.Placed) :
    tape.verdict limits chunk = limits.check (tape.gulp chunk).held (tape.gulp chunk).segments := by
  rw [verdict, if_neg placed.found, if_neg (Nat.not_lt.2 placed.fits)]
  rfl

/-- Deliveries are accepted when their peaks are within the limits, and only then. -/
theorem deliver_ok_iff {limits : Limits} (readSize : Nat) {tape : Tape} {chunks : List Chunk}
    (placed : ∀ chunk ∈ chunks, chunk.Placed) {told : List Gulp} :
    (tape.deliver limits chunks).result = .ok told ↔
      told = tape.gulps chunks ∧ limits.Allows (.ofGulps readSize (tape.gulps chunks)) := by
  induction chunks generalizing tape told with
  | nil =>
      constructor
      · intro done
        cases done
        exact ⟨rfl, fun _ _ => Nat.zero_le _, fun _ _ => Nat.zero_le _⟩
      · rintro ⟨rfl, -⟩
        rfl
  | cons chunk rest ih =>
      obtain ⟨first, later⟩ := List.forall_mem_cons.1 placed
      rw [gulps, Limits.allows_cons_iff, ← tape.verdict_eq limits first]
      cases verdict : tape.verdict limits chunk with
      | error refusal =>
          rw [deliver_of_refused rest verdict]
          constructor
          · intro done
            cases done
          · rintro ⟨-, accepted, -⟩
            cases accepted
      | ok _ =>
          rw [deliver_of_accepted rest verdict]
          constructor
          · intro done
            obtain ⟨found, ended, rfl⟩ := ok_of_map done
            obtain ⟨rfl, allows⟩ := (ih later).1 ended
            exact ⟨rfl, rfl, allows⟩
          · rintro ⟨rfl, -, allows⟩
            show (((tape.gulped chunk).deliver limits rest).result.map _) = _
            rw [(ih later).2 ⟨rfl, allows⟩]
            rfl

end Tape

/-- **A replay goes through when its peaks are within the limits, and only then.** -/
theorem Buffer.Sound.replay_ok_iff {buffer : Buffer} (sound : buffer.Sound) {readSize : Nat}
    (positive : 0 < readSize) (room : readSize ≤ longestRequest) {chunks : List Chunk}
    (placed : ∀ chunk ∈ chunks, chunk.Placed) {report : ReplayReport} :
    (buffer.replay chunks readSize).result = .ok report ↔
      report = .ofGulps readSize (buffer.tape.gulps chunks) ∧ buffer.limits.Allows report := by
  rw [sound.result_replay positive room]
  constructor
  · intro done
    obtain ⟨gulps, told, rfl⟩ := ok_of_map (ok_of_mapError done)
    obtain ⟨rfl, allows⟩ := (Tape.deliver_ok_iff readSize placed).1 told
    exact ⟨rfl, allows⟩
  · rintro ⟨rfl, allows⟩
    rw [(Tape.deliver_ok_iff readSize placed).2 ⟨rfl, allows⟩]
    rfl

/-! ## Stalls -/

/-- At a stall nothing can be read, and no more is held than at another gulp. -/
structure Gulp.StallsUnder (stall gulp : Gulp) : Prop where
  segments : stall.segments ≤ gulp.segments
  held : stall.held ≤ gulp.held
  data : stall.data = []

/-- Some gulps, with so many stalls among them. -/
def Padded (count : Nat) (plain sent : List Gulp) : Prop :=
  ∃ stalls : List Gulp, stalls.length = count ∧ sent.Perm (stalls ++ plain) ∧
    ∀ stall ∈ stalls, ∃ gulp ∈ plain, stall.StallsUnder gulp

/-- A report that tells of so many more deliveries than another, all of them stalled. -/
structure ReplayReport.WithStalls (long : ReplayReport) (count : Nat) (short : ReplayReport) :
    Prop where
  chunks : long.chunks = short.chunks + count
  reads : long.reads = short.reads
  stalledPolls : long.stalledPolls = short.stalledPolls + count
  peakSegments : long.peakSegments = short.peakSegments
  peakHeld : long.peakHeld = short.peakHeld

theorem ReplayReport.WithStalls.allows_iff {long short : ReplayReport} {count : Nat}
    (more : long.WithStalls count short) {limits : Limits} :
    limits.Allows long ↔ limits.Allows short := by
  constructor
  · rintro ⟨held, segments⟩
    exact ⟨more.peakHeld ▸ held, more.peakSegments ▸ segments⟩
  · rintro ⟨held, segments⟩
    exact ⟨more.peakHeld.symm ▸ held, more.peakSegments.symm ▸ segments⟩

theorem peak_le_iff {amount : Gulp → Nat} {gulps : List Gulp} {bound : Nat} :
    gulps.foldr (fun gulp => max (amount gulp)) 0 ≤ bound ↔
      ∀ gulp ∈ gulps, amount gulp ≤ bound := by
  induction gulps with
  | nil => simp
  | cons gulp gulps ih => rw [List.foldr_cons, Nat.max_le, ih, List.forall_mem_cons]

namespace Padded

variable {count : Nat} {plain sent : List Gulp}

theorem none (gulps : List Gulp) : Padded 0 gulps gulps := ⟨[], rfl, .rfl, by simp⟩

theorem length_eq (padded : Padded count plain sent) : sent.length = plain.length + count := by
  obtain ⟨stalls, number, perm, -⟩ := padded
  rw [perm.length_eq, List.length_append, number, Nat.add_comm]

theorem gulp (gulp : Gulp) (padded : Padded count plain sent) :
    Padded count (gulp :: plain) (gulp :: sent) := by
  obtain ⟨stalls, number, perm, under⟩ := padded
  refine ⟨stalls, number, (perm.cons gulp).trans List.perm_middle.symm, fun stall member => ?_⟩
  obtain ⟨other, known, stalls⟩ := under stall member
  exact ⟨other, .tail _ known, stalls⟩

theorem stall {stall gulp : Gulp} (known : gulp ∈ plain) (stalls : stall.StallsUnder gulp)
    (padded : Padded count plain sent) : Padded (count + 1) plain (stall :: sent) := by
  obtain ⟨others, number, perm, under⟩ := padded
  exact ⟨stall :: others, congrArg Nat.succ number, perm.cons stall,
    List.forall_mem_cons.2 ⟨⟨gulp, known, stalls⟩, under⟩⟩

theorem again {stall gulp : Gulp} (stalls : stall.StallsUnder gulp)
    (padded : Padded count plain sent) :
    Padded (count + 1) (gulp :: plain) (gulp :: stall :: sent) := by
  obtain ⟨others, number, perm, under⟩ := (padded.gulp gulp).stall List.mem_cons_self stalls
  exact ⟨others, number, (List.Perm.swap _ _ _).trans perm, under⟩

theorem behind {gulp : Gulp} {stalls : List Gulp}
    (under : ∀ stall ∈ stalls, stall.StallsUnder gulp) :
    Padded stalls.length [gulp] (gulp :: stalls) := by
  refine ⟨stalls, rfl, (List.perm_append_singleton gulp stalls).symm, fun stall member => ?_⟩
  exact ⟨gulp, List.mem_singleton_self _, under stall member⟩

/-- A peak shows at one of the plain gulps. -/
theorem peak_eq (padded : Padded count plain sent) {amount : Gulp → Nat}
    (under : ∀ stall gulp : Gulp, stall.StallsUnder gulp → amount stall ≤ amount gulp) :
    sent.foldr (fun gulp => max (amount gulp)) 0 =
      plain.foldr (fun gulp => max (amount gulp)) 0 := by
  obtain ⟨stalls, -, perm, covered⟩ := padded
  refine eq_of_forall_ge_iff fun bound => ?_
  rw [peak_le_iff, peak_le_iff]
  constructor
  · intro all gulp member
    exact all gulp (perm.mem_iff.2 (List.mem_append_right _ member))
  · intro all gulp member
    rcases List.mem_append.1 (perm.mem_iff.1 member) with stalled | known
    · obtain ⟨other, known, stalls⟩ := covered gulp stalled
      exact Nat.le_trans (under gulp other stalls) (all other known)
    · exact all gulp known

/-- **Stalls show in a report by their number.** -/
theorem report (padded : Padded count plain sent) (readSize : Nat) :
    (ReplayReport.ofGulps readSize sent).WithStalls count (.ofGulps readSize plain) := by
  obtain ⟨stalls, number, perm, under⟩ := id padded
  have silent : ∀ stall ∈ stalls, stall.data = [] := by
    intro stall member
    obtain ⟨_, _, quiet⟩ := under stall member
    exact quiet.data
  have reads : (stalls.map fun stall : Gulp => stall.data.length ⌈/⌉ readSize).sum = 0 := by
    apply List.sum_eq_zero
    intro reads member
    obtain ⟨stall, stalled, rfl⟩ := List.mem_map.1 member
    rw [silent stall stalled, List.length_nil, zero_ceilDiv]
  have polls : stalls.countP (·.data.isEmpty) = stalls.length := by
    apply List.countP_eq_length.2
    intro stall member
    rw [silent stall member]
    rfl
  exact
    { chunks := padded.length_eq
      reads := by
        show (sent.map _).sum = (plain.map _).sum
        rw [(perm.map _).sum_eq, List.map_append, List.sum_append, reads, Nat.zero_add]
      stalledPolls := by
        show sent.countP _ = plain.countP _ + count
        rw [perm.countP_eq, List.countP_append, polls, number, Nat.add_comm]
      peakSegments := padded.peak_eq fun _ _ stalls => stalls.segments
      peakHeld := padded.peak_eq fun _ _ stalls => stalls.held }

end Padded

/-! ## Chunks that come again -/

namespace Tape

/-- From a gap on, no run begins that was not one before. -/
theorem runStarts_skip {tape : Tape} {count : Nat}
    (gap : tape.cursor + count ∉ tape.bytes.offsets) :
    runStarts (tape.skip count).bytes.offsets ⊆ runStarts tape.bytes.offsets := by
  intro offset begins
  obtain ⟨kept, first⟩ := Finset.mem_filter.1 begins
  obtain ⟨known, reached⟩ := Finset.mem_filter.1 kept
  refine Finset.mem_filter.2 ⟨known, first.imp_right fun missing before => ?_⟩
  -- A byte right before is only gone if this one is the first above the gap.
  have passed : ¬tape.cursor + count ≤ offset - 1 := fun above =>
    missing (Finset.mem_filter.2 ⟨before, above⟩)
  have same : offset = tape.cursor + count := by omega
  exact gap (same ▸ known)

section Again

variable (tape : Tape) (chunk : Chunk)

/-- The bytes of a chunk that comes again are there or have been read. -/
theorem write_gulped :
    (tape.gulped chunk).write chunk.offset chunk.data = tape.gulped chunk := by
  refine eq_of_byteAt? rfl fun place => ?_
  rw [byteAt?_write, gulped, read, byteAt?_skip, byteAt?_write, cursor_skip]
  split
  · next within => rw [if_pos within.1, if_pos ⟨Nat.le_of_add_right_le within.1, within.2⟩]
  · rfl

theorem ahead_gulped : (tape.gulped chunk).Ahead :=
  fun _ known => (Finset.mem_filter.1 known).2

/-- It is read past once more, and nothing moves. -/
theorem gulped_again : (tape.gulped chunk).gulped chunk = tape.gulped chunk := by
  have nothing := (tape.cursor_gulped chunk).2
  rw [gulped, write_gulped, nothing, read, nothing]
  exact skip_zero (tape.ahead_gulped chunk)

/-- **A chunk that comes again stalls.** -/
theorem stalls_again : ((tape.gulped chunk).gulp chunk).StallsUnder (tape.gulp chunk) := by
  have nothing := (tape.cursor_gulped chunk).2
  have gap : (tape.write chunk.offset chunk.data).cursor +
      min (tape.write chunk.offset chunk.data).readable
        (tape.write chunk.offset chunk.data).readable ∉
        (tape.write chunk.offset chunk.data).bytes.offsets := by
    rw [Nat.min_self]
    exact ByteMap.add_reach_notMem _ _
  unfold gulp
  rw [write_gulped]
  exact
    { segments := Finset.card_le_card (runStarts_skip gap)
      held := Finset.card_le_card (Finset.filter_subset _ _)
      data := congrArg (tape.gulped chunk).front nothing }

/-- So do all that are sent twice. -/
theorem padded_repeatEvery (every position : Nat) (chunks : List Chunk) :
    ∃ count, Padded count (tape.gulps chunks)
      (tape.gulps (DeliveryPlan.repeatEvery every position chunks)) := by
  induction chunks generalizing tape position with
  | nil => exact ⟨0, .none _⟩
  | cons chunk rest ih =>
      obtain ⟨count, padded⟩ := ih (tape.gulped chunk) (position + 1)
      rw [DeliveryPlan.repeatEvery]
      split
      · rw [List.cons_append, List.cons_append, List.nil_append, gulps, gulps, gulps, gulped_again]
        exact ⟨count + 1, padded.again (tape.stalls_again chunk)⟩
      · exact ⟨count, padded.gulp _⟩

end Again

end Tape

/-- The copies that a plan sends stall, and nothing else comes of them. -/
theorem DeliveryPlan.padded_chunks (plan : DeliveryPlan) (stream : Bytes) (tape : Tape) :
    Padded (plan.resent (plan.pieces stream.length)) (tape.gulps (plan.arranged stream))
      (tape.gulps (plan.chunks stream)) := by
  have some : ∃ count, Padded count (tape.gulps (plan.arranged stream))
      (tape.gulps (plan.chunks stream)) := by
    unfold chunks
    cases plan.duplicateEvery with
    | none => exact ⟨0, .none _⟩
    | some every => exact tape.padded_repeatEvery every 1 _
  obtain ⟨count, padded⟩ := some
  have sent := padded.length_eq
  rw [Tape.length_gulps, Tape.length_gulps, length_chunks, length_arranged] at sent
  rwa [← Nat.add_left_cancel sent] at padded

theorem DeliveryPlan.chunks_plain (plan : DeliveryPlan) (stream : Bytes) (tape : Tape)
    (readSize : Nat) :
    (ReplayReport.ofGulps readSize (tape.gulps (plan.arranged stream))).chunks =
      plan.pieces stream.length :=
  (tape.length_gulps _).trans (plan.length_arranged stream)

/-- **What a plan needs is told by its chunks before copies are made.** -/
theorem DeliveryPlan.replay_ok (plan : DeliveryPlan) (stream : Bytes) (limits : Limits)
    {readSize : Nat} (cuts : 0 < plan.chunkSize) (positive : 0 < readSize)
    (room : readSize ≤ longestRequest) (fits : stream.length ≤ maxOffset) :
    let outcome := (Buffer.fresh limits).replay (plan.chunks stream) readSize
    let plain := ReplayReport.ofGulps readSize (Tape.gulps {} (plan.arranged stream))
    ((∃ report, outcome.result = .ok report) ↔ limits.Allows plain) ∧
      ∀ report, outcome.result = .ok report →
        report.WithStalls (plan.resent (plan.pieces stream.length)) plain := by
  intro outcome plain
  have done (report : ReplayReport) : outcome.result = .ok report ↔
      report = .ofGulps readSize (Tape.gulps {} (plan.chunks stream)) ∧ limits.Allows report := by
    rw [← Buffer.tape_fresh limits]
    exact (Buffer.sound_fresh limits).replay_ok_iff positive room
      fun chunk member => placed_of_mem cuts fits member
  have more := (plan.padded_chunks stream {}).report readSize
  constructor
  · constructor
    · rintro ⟨report, ended⟩
      obtain ⟨rfl, allows⟩ := (done report).1 ended
      exact more.allows_iff.1 allows
    · intro allows
      exact ⟨_, (done _).2 ⟨rfl, more.allows_iff.2 allows⟩⟩
  · intro report ended
    obtain ⟨rfl, -⟩ := (done report).1 ended
    exact more

end Gapless
