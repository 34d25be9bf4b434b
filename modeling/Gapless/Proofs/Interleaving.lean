/-
# Gapless.Proofs.Interleaving -- the segments that a stream needs when every other piece is late

Sent first, the pieces at the even places lie behind one another with a gap before each, like the
teeth of a comb (`DeliveryPlan.teeth`).  The first of them is read at once, and every later one is
a segment more.  Then come the pieces at the odd places.  Each of them closes the gap at the
cursor, so that it is read together with the tooth behind the gap, and there is a segment less
(`DeliveryPlan.written_between`).  What a replay needs is hence the number of teeth that wait when
the last one has come.

Pieces that reach back over a whole piece leave no gap, and then a single segment is enough.
-/
import Gapless.Proofs.Budget

namespace Gapless

set_option autoImplicit false

/-! ## Tapes with many stretches -/

/-- A tape at this cursor, with the bytes of some stretches. -/
structure Tape.Lays (tape : Tape) (cursor : Nat) (stretches : List (Nat × Nat)) : Prop where
  cursor : tape.cursor = cursor
  fills : Fills stretches tape.bytes.offsets

namespace Tape

variable {tape : Tape} {cursor high : Nat} {stretches rest : List (Nat × Nat)}

/-- A tape that holds nothing. -/
theorem Holds.lays (holds : tape.Holds cursor high high) : tape.Lays cursor [] := by
  refine ⟨holds.cursor, fun offset => ?_⟩
  simp [holds.offsets]

namespace Lays

theorem readable_gap (lays : tape.Lays cursor stretches)
    (behind : ∀ stretch ∈ stretches, cursor < stretch.1) : tape.readable = 0 := by
  rw [readable, ByteMap.reach_eq_zero_iff, lays.cursor, lays.fills]
  rintro ⟨stretch, member, reached, -⟩
  have := behind stretch member
  omega

section First

variable (lays : tape.Lays cursor ((cursor, high) :: rest))
  (gapped : Gapped ((cursor, high) :: rest))

include lays gapped

/-- All other stretches lie behind the first one. -/
theorem readable_first : tape.readable = high - cursor := by
  have ordered : cursor < high := gapped.nonempty _ List.mem_cons_self
  have behind := (List.pairwise_cons.1 gapped.apart).1
  rw [readable, ByteMap.reach_eq_iff, lays.cursor, Nat.add_sub_cancel' (Nat.le_of_lt ordered)]
  constructor
  · rw [lays.fills]
    rintro ⟨stretch, member, reached, short⟩
    rcases List.mem_cons.1 member with rfl | later
    · exact Nat.lt_irrefl _ short
    · have := behind stretch later
      omega
  · intro index less
    rw [lays.fills]
    exact ⟨_, List.mem_cons_self, by simp, by simp; omega⟩

/-- Reading the first stretch leaves the others. -/
theorem skip_first : (tape.skip (high - cursor)).Lays high rest := by
  have ordered : cursor < high := gapped.nonempty _ List.mem_cons_self
  have behind := (List.pairwise_cons.1 gapped.apart).1
  have passed : tape.cursor + (high - cursor) = high := by
    rw [lays.cursor]
    omega
  refine ⟨passed, fun offset => ?_⟩
  show offset ∈ tape.bytes.offsets.filter (tape.cursor + (high - cursor) ≤ ·) ↔ _
  rw [Finset.mem_filter, passed, lays.fills, List.exists_mem_cons_iff]
  constructor
  · rintro ⟨⟨-, short⟩ | later, reached⟩
    · omega
    · exact later
  · rintro ⟨stretch, member, reached, short⟩
    have := behind stretch member
    exact ⟨Or.inr ⟨stretch, member, reached, short⟩, by dsimp only at this; omega⟩

end First

section Gulps

variable {chunk : Chunk}

/-- Stretches behind a gap stay. -/
theorem gulped_gap (lays : (tape.write chunk.offset chunk.data).Lays cursor stretches)
    (gapped : Gapped stretches) (behind : ∀ stretch ∈ stretches, cursor < stretch.1) :
    (tape.gulp chunk).segments = stretches.length ∧ (tape.gulped chunk).Lays cursor stretches := by
  refine ⟨gapped.card_runStarts lays.fills, ?_⟩
  have ahead : (tape.write chunk.offset chunk.data).Ahead := by
    intro offset known
    obtain ⟨stretch, member, reached, -⟩ := (lays.fills offset).1 known
    have := behind stretch member
    rw [lays.cursor]
    omega
  rwa [gulped, lays.readable_gap behind, Tape.read, Nat.zero_min, skip_zero ahead]

/-- A stretch at the cursor is read to its end. -/
theorem gulped_first
    (lays : (tape.write chunk.offset chunk.data).Lays cursor ((cursor, high) :: rest))
    (gapped : Gapped ((cursor, high) :: rest)) :
    (tape.gulp chunk).segments = rest.length + 1 ∧ (tape.gulped chunk).Lays high rest := by
  refine ⟨gapped.card_runStarts lays.fills, ?_⟩
  rw [gulped, Tape.read, Nat.min_self, lays.readable_first gapped]
  exact lays.skip_first gapped

end Gulps

end Lays

/-- Where nothing is held, a chunk that leaves no gap is one segment, if it is not late. -/
theorem Holds.gulped_meeting (holds : tape.Holds cursor cursor cursor) {chunk : Chunk}
    (meets : chunk.offset ≤ cursor) :
    let stop := chunk.offset + chunk.data.length
    (tape.gulp chunk).segments = (if cursor < stop then 1 else 0) ∧
      (tape.gulped chunk).Holds (max cursor stop) (max cursor stop) (max cursor stop) := by
  intro stop
  by_cases news : cursor < stop
  · have written := holds.write (Nat.le_refl _) chunk meets (Nat.le_of_lt news)
    rw [Nat.min_eq_right meets, Nat.max_eq_left meets, Nat.max_eq_right (Nat.le_of_lt news)]
      at written
    obtain ⟨⟨segments, -, -⟩, next⟩ := written.gulped_first news
    rw [if_pos news, Nat.max_eq_right (Nat.le_of_lt news)]
    exact ⟨segments, next⟩
  · obtain ⟨idle, next⟩ := holds.gulped_late (Nat.not_lt.1 news)
    rw [if_neg news, Nat.max_eq_left (Nat.not_lt.1 news), idle, next]
    exact ⟨rfl, holds⟩

/-- Chunks that leave no gap are a single segment each time. -/
theorem Holds.segments_meeting (holds : tape.Holds cursor cursor cursor) {chunks : List Chunk}
    (meets : ∀ chunk ∈ chunks, chunk.offset ≤ cursor) {gulp : Gulp}
    (member : gulp ∈ tape.gulps chunks) : gulp.segments ≤ 1 := by
  induction chunks generalizing tape cursor with
  | nil => cases member
  | cons chunk rest ih =>
      obtain ⟨first, later⟩ := List.forall_mem_cons.1 meets
      obtain ⟨segments, next⟩ := holds.gulped_meeting first
      rcases List.mem_cons.1 member with rfl | member
      · rw [segments]
        split <;> omega
      · refine ih next (fun other there => ?_) member
        exact Nat.le_trans (later other there) (Nat.le_max_left _ _)

end Tape

/-! ## Teeth -/

/-- The numbers at even places, and those at odd ones. -/
theorem filter_even_range (count : Nat) :
    (List.range count).filter (· % 2 = 0) = (List.range ((count + 1) / 2)).map (2 * ·) ∧
      (List.range count).filter (· % 2 = 1) = (List.range (count / 2)).map (2 * · + 1) := by
  induction count with
  | zero => exact ⟨rfl, rfl⟩
  | succ count ih =>
      obtain ⟨even, odd⟩ := ih
      rw [List.range_succ, List.filter_append, List.filter_append, even, odd]
      rcases Nat.mod_two_eq_zero_or_one count with parity | parity
      · have half : (count + 1 + 1) / 2 = (count + 1) / 2 + 1 := by omega
        have same : (count + 1) / 2 = count / 2 := by omega
        have last : 2 * (count / 2) = count := by omega
        simp [parity, half, same, List.range_succ, last]
      · have half : (count + 1) / 2 = count / 2 + 1 := by omega
        have same : (count + 1 + 1) / 2 = (count + 1) / 2 := by omega
        have last : 2 * (count / 2) + 1 = count := by omega
        simp [parity, half, same, List.range_succ, last]

namespace DeliveryPlan

variable {plan : DeliveryPlan} {stream : Bytes}

/-- The bounds of the piece with a place in a stream of this length. -/
def span (plan : DeliveryPlan) (length place : Nat) : Nat × Nat :=
  (place * plan.chunkSize - plan.overlap, min ((place + 1) * plan.chunkSize) length)

/-- The bounds of so many pieces at even places, the first of which is the `first` of them. -/
def teeth (plan : DeliveryPlan) (length first count : Nat) : List (Nat × Nat) :=
  (List.range' first count).map fun tooth => plan.span length (2 * tooth)

theorem length_teeth (plan : DeliveryPlan) (length first count : Nat) :
    (plan.teeth length first count).length = count := by
  simp [teeth]

theorem teeth_succ (plan : DeliveryPlan) (length first count : Nat) :
    plan.teeth length first (count + 1) =
      plan.span length (2 * first) :: plan.teeth length (first + 1) count := by
  simp [teeth, List.range'_succ]

theorem teeth_concat (plan : DeliveryPlan) (length first count : Nat) :
    plan.teeth length first (count + 1) =
      plan.teeth length first count ++ [plan.span length (2 * (first + count))] := by
  simp [teeth, List.range'_concat]

section Teeth

variable (cuts : 0 < plan.chunkSize) (short : plan.overlap < plan.chunkSize)

include cuts

theorem nonempty_span {place : Nat} (counted : place < plan.pieces stream.length) :
    (plan.span stream.length place).1 < (plan.span stream.length place).2 := by
  have begun := (lt_pieces_iff cuts).1 counted
  have bound : (place + 1) * plan.chunkSize = place * plan.chunkSize + plan.chunkSize :=
    Nat.succ_mul _ _
  unfold span
  dsimp only
  omega

include short

omit cuts in
/-- Between two teeth there is a gap. -/
theorem apart_spans {length place next : Nat} (behind : place + 1 < next) :
    (plan.span length place).2 < (plan.span length next).1 := by
  have bound : (place + 1) * plan.chunkSize = place * plan.chunkSize + plan.chunkSize :=
    Nat.succ_mul _ _
  have further : (place + 2) * plan.chunkSize ≤ next * plan.chunkSize :=
    Nat.mul_le_mul_right _ behind
  have step : (place + 2) * plan.chunkSize = (place + 1) * plan.chunkSize + plan.chunkSize :=
    Nat.succ_mul _ _
  unfold span
  dsimp only
  omega

theorem gapped_teeth {first count : Nat}
    (counted : 2 * (first + count) ≤ plan.pieces stream.length + 1) :
    Gapped (plan.teeth stream.length first count) where
  nonempty := by
    intro stretch member
    obtain ⟨tooth, within, rfl⟩ := List.mem_map.1 member
    rw [List.mem_range'_1] at within
    exact nonempty_span cuts (by omega)
  apart := by
    refine List.pairwise_map.2 (List.Pairwise.imp ?_ List.pairwise_lt_range')
    intro tooth next less
    exact apart_spans short (by omega)

/-- So there is between a stretch and the teeth behind it. -/
theorem gapped_cons_teeth {low tooth count : Nat}
    (counted : 2 * (tooth + 1 + count) ≤ plan.pieces stream.length + 1)
    (nonempty : low < (plan.span stream.length (2 * tooth)).2) :
    Gapped ((low, (plan.span stream.length (2 * tooth)).2) ::
      plan.teeth stream.length (tooth + 1) count) := by
  have gapped := gapped_teeth cuts short counted
  refine ⟨List.forall_mem_cons.2 ⟨nonempty, gapped.nonempty⟩, List.Pairwise.cons ?_ gapped.apart⟩
  intro stretch member
  obtain ⟨next, within, rfl⟩ := List.mem_map.1 member
  rw [List.mem_range'_1] at within
  exact apart_spans short (by omega)

/-! ## One piece -/

variable {tape : Tape}

/-- A piece at an even place is a tooth more. -/
theorem gulped_tooth {waiting : Nat} (counted : 2 * (1 + waiting) < plan.pieces stream.length)
    (lays : tape.Lays (plan.span stream.length 0).2 (plan.teeth stream.length 1 waiting)) :
    let chunk := plan.chunk stream (2 * (1 + waiting))
    (tape.gulp chunk).segments = waiting + 1 ∧
      (tape.gulped chunk).Lays (plan.span stream.length 0).2
        (plan.teeth stream.length 1 (waiting + 1)) := by
  intro chunk
  have stop : chunk.offset + chunk.data.length = (plan.span stream.length (2 * (1 + waiting))).2 :=
    stop_chunk cuts counted
  have behind : ∀ stretch ∈ plan.teeth stream.length 1 (waiting + 1),
      (plan.span stream.length 0).2 < stretch.1 := by
    intro stretch member
    obtain ⟨tooth, within, rfl⟩ := List.mem_map.1 member
    rw [List.mem_range'_1] at within
    exact apart_spans short (by omega)
  have own := behind (plan.span stream.length (2 * (1 + waiting))) (by simp [teeth_concat])
  have written : (tape.write chunk.offset chunk.data).Lays (plan.span stream.length 0).2
      (plan.teeth stream.length 1 (waiting + 1)) := by
    refine ⟨lays.cursor, fun offset => ?_⟩
    rw [Tape.mem_write, lays.fills, lays.cursor, stop, teeth_concat]
    simp only [List.mem_append, List.mem_singleton, or_and_right, exists_or, exists_eq_left]
    refine or_congr_right (and_iff_left_of_imp fun within => ?_)
    exact Nat.le_of_lt (Nat.lt_of_lt_of_le own within.1)
  have gulped := written.gulped_gap (gapped_teeth cuts short (by omega)) behind
  rwa [length_teeth] at gulped

/-- A piece at an odd place fills what lies between two teeth. -/
theorem written_between {tooth waiting : Nat}
    (counted : 2 * tooth + 1 < plan.pieces stream.length)
    (half : tooth + 1 + waiting = (plan.pieces stream.length + 1) / 2)
    (lays : tape.Lays (plan.span stream.length (2 * tooth)).2
      (plan.teeth stream.length (tooth + 1) waiting)) :
    let chunk := plan.chunk stream (2 * tooth + 1)
    (tape.write chunk.offset chunk.data).Lays (plan.span stream.length (2 * tooth)).2
      (((plan.span stream.length (2 * tooth)).2, (plan.span stream.length (2 * (tooth + 1))).2) ::
        plan.teeth stream.length (tooth + 1 + 1) (waiting - 1)) := by
  intro chunk
  have stop : chunk.offset + chunk.data.length = (plan.span stream.length (2 * tooth + 1)).2 :=
    stop_chunk cuts counted
  have start : chunk.offset = (plan.span stream.length (2 * tooth + 1)).1 := rfl
  have first : (2 * tooth + 1) * plan.chunkSize = 2 * tooth * plan.chunkSize + plan.chunkSize :=
    Nat.succ_mul _ _
  have second : (2 * tooth + 1 + 1) * plan.chunkSize =
      (2 * tooth + 1) * plan.chunkSize + plan.chunkSize := Nat.succ_mul _ _
  have third : (2 * tooth + 1 + 1 + 1) * plan.chunkSize =
      (2 * tooth + 1 + 1) * plan.chunkSize + plan.chunkSize := Nat.succ_mul _ _
  have next : 2 * (tooth + 1) = 2 * tooth + 1 + 1 := Nat.mul_succ 2 tooth
  refine ⟨lays.cursor, fun offset => ?_⟩
  rw [Tape.mem_write, lays.fills, lays.cursor, stop, start, List.exists_mem_cons_iff]
  cases waiting with
  | zero =>
      -- No tooth is left, so this piece is the last of the stream.
      have last : ¬(2 * tooth + 1 + 1) * plan.chunkSize < stream.length := fun more => by
        have := (lt_pieces_iff cuts).2 more
        omega
      simp only [teeth, span, next, Nat.zero_sub, List.range'_zero, List.map_nil,
        List.not_mem_nil, false_and, exists_false, false_or, or_false]
      omega
  | succ waiting =>
      rw [teeth_succ, List.exists_mem_cons_iff, Nat.add_sub_cancel]
      generalize (∃ stretch ∈ plan.teeth stream.length (tooth + 1 + 1) waiting, _) = later
      simp only [span, next]
      by_cases known : later
      · simp [known]
      · simp only [known, or_false]
        omega

theorem gulped_between {tooth : Nat} (counted : 2 * tooth + 1 < plan.pieces stream.length)
    {half : Nat} (halved : half = (plan.pieces stream.length + 1) / 2)
    (lays : tape.Lays (plan.span stream.length (2 * tooth)).2
      (plan.teeth stream.length (tooth + 1) (half - (tooth + 1)))) :
    let chunk := plan.chunk stream (2 * tooth + 1)
    (tape.gulp chunk).segments = half - (tooth + 2) + 1 ∧
      (tape.gulped chunk).Lays (plan.span stream.length (2 * (tooth + 1))).2
        (plan.teeth stream.length (tooth + 1 + 1) (half - (tooth + 2))) := by
  intro chunk
  have begun := (lt_pieces_iff cuts).1 counted
  have written := written_between cuts short counted (by omega) lays
  rw [Nat.sub_sub] at written
  have grows : (plan.span stream.length (2 * tooth)).2 <
      (plan.span stream.length (2 * (tooth + 1))).2 := by
    have further : (2 * tooth + 1) * plan.chunkSize < (2 * (tooth + 1) + 1) * plan.chunkSize :=
      Nat.mul_lt_mul_of_pos_right (by omega) cuts
    unfold span
    dsimp only
    omega
  by_cases more : tooth + 2 ≤ half
  · have gulped := written.gulped_first (gapped_cons_teeth cuts short (by omega) grows)
    rwa [length_teeth] at gulped
  · have nothing : half - (tooth + 2) = 0 := by omega
    rw [nothing] at written ⊢
    have single : Gapped [((plan.span stream.length (2 * tooth)).2,
        (plan.span stream.length (2 * (tooth + 1))).2)] := ⟨by simpa using grows, by simp⟩
    exact written.gulped_first single

/-! ## All pieces -/

/-- When the teeth have come, there is one segment less with each piece. -/
theorem segments_between {half : Nat} (halved : half = (plan.pieces stream.length + 1) / 2)
    {tooth count : Nat} (counted : 2 * (tooth + count) ≤ plan.pieces stream.length)
    (lays : tape.Lays (plan.span stream.length (2 * tooth)).2
      (plan.teeth stream.length (tooth + 1) (half - (tooth + 1))))
    {gulp : Gulp} (member : gulp ∈ tape.gulps
      ((List.range' tooth count).map fun place => plan.chunk stream (2 * place + 1))) :
    gulp.segments ≤ max 1 (half - (tooth + 1)) := by
  induction count generalizing tooth tape with
  | zero => cases member
  | succ count ih =>
      obtain ⟨segments, next⟩ := gulped_between cuts short (by omega) halved lays
      rw [List.range'_succ, List.map_cons, Tape.gulps] at member
      rcases List.mem_cons.1 member with rfl | later
      · omega
      · have := ih (by omega) next later
        omega

/-- Until then there is one more. -/
theorem peak_teeth (readSize : Nat) {half : Nat}
    (halved : half = (plan.pieces stream.length + 1) / 2) {rest : List Chunk}
    (between : ∀ tape : Tape,
      tape.Lays (plan.span stream.length 0).2 (plan.teeth stream.length 1 (half - 1)) →
        ∀ gulp ∈ tape.gulps rest, gulp.segments ≤ max 1 (half - 1))
    {waiting count : Nat} (counted : 1 + waiting + count = half)
    (lays : tape.Lays (plan.span stream.length 0).2 (plan.teeth stream.length 1 waiting)) :
    max (max 1 waiting) (ReplayReport.ofGulps readSize (tape.gulps
        ((List.range' (1 + waiting) count).map (fun tooth => plan.chunk stream (2 * tooth)) ++
          rest))).peakSegments =
      max 1 (half - 1) := by
  induction count generalizing waiting tape with
  | zero =>
      have all : waiting = half - 1 := by omega
      rw [all] at lays ⊢
      exact Nat.max_eq_left (peak_le_iff.2 (between tape lays))
  | succ count ih =>
      obtain ⟨segments, next⟩ := gulped_tooth cuts short (by omega) lays
      have later := ih (by omega) next
      rw [List.range'_succ, List.map_cons, List.cons_append, Tape.gulps]
      show max (max 1 waiting) (max (tape.gulp _).segments (ReplayReport.ofGulps readSize
        (Tape.gulps _ _)).peakSegments) = _
      rw [segments, ← later, Nat.add_assoc 1 waiting 1]
      omega

end Teeth

/-! ## Pieces that leave no gap -/

section Reaching

variable (cuts : 0 < plan.chunkSize)

include cuts

/-- When each piece at an even place reaches back to the one before, there is no second segment. -/
theorem segments_reaching (long : plan.chunkSize ≤ plan.overlap) {tape : Tape} {tooth count : Nat}
    (counted : 2 * (tooth + count) < plan.pieces stream.length) {cursor : Nat}
    (reached : cursor = (plan.span stream.length (2 * tooth)).2)
    (holds : tape.Holds cursor cursor cursor) {rest : List Chunk}
    (meets : ∀ chunk ∈ rest, chunk.offset ≤ (plan.span stream.length (2 * (tooth + count))).2)
    {gulp : Gulp} (member : gulp ∈ tape.gulps
      ((List.range' (tooth + 1) count).map (fun tooth => plan.chunk stream (2 * tooth)) ++ rest)) :
    gulp.segments ≤ 1 := by
  induction count generalizing tooth tape cursor with
  | zero => exact holds.segments_meeting (reached ▸ meets) member
  | succ count ih =>
      have next : 2 * (tooth + 1) = 2 * tooth + 1 + 1 := Nat.mul_succ 2 tooth
      have begun := (lt_pieces_iff cuts).1
        (show 2 * tooth + 1 + 1 < plan.pieces stream.length by omega)
      have bound : (2 * tooth + 1 + 1) * plan.chunkSize =
          (2 * tooth + 1) * plan.chunkSize + plan.chunkSize := Nat.succ_mul _ _
      have further : (2 * tooth + 1 + 1 + 1) * plan.chunkSize =
          (2 * tooth + 1 + 1) * plan.chunkSize + plan.chunkSize := Nat.succ_mul _ _
      have stop := stop_chunk cuts
        (show 2 * (tooth + 1) < plan.pieces stream.length by omega)
      have start : (plan.chunk stream (2 * (tooth + 1))).offset =
        2 * (tooth + 1) * plan.chunkSize - plan.overlap := rfl
      rw [next] at start stop
      have meeting : (plan.chunk stream (2 * (tooth + 1))).offset ≤ cursor := by
        rw [reached, next, start, span]
        dsimp only
        omega
      obtain ⟨segments, after⟩ := holds.gulped_meeting meeting
      rw [List.range'_succ, List.map_cons, List.cons_append, Tape.gulps] at member
      rcases List.mem_cons.1 member with rfl | later
      · rw [segments]
        split <;> omega
      · refine ih (by omega) ?_ after ?_ later
        · rw [reached, next, stop, span, span]
          dsimp only
          omega
        · rwa [Nat.add_assoc, Nat.add_comm 1]

end Reaching

/-! ## Replays -/

section Interleaved

variable (cuts : 0 < plan.chunkSize) (found : stream ≠ []) (interleaved : plan.order = .interleaved)

/-- What is sent after the first piece: the other pieces at even places, then those at odd ones. -/
def afterFirst (plan : DeliveryPlan) (stream : Bytes) : List Chunk :=
  (List.range' 1 ((plan.pieces stream.length + 1) / 2 - 1)).map
      (fun tooth => plan.chunk stream (2 * tooth)) ++
    (List.range' 0 (plan.pieces stream.length / 2)).map
      fun place => plan.chunk stream (2 * place + 1)

include interleaved in
theorem arranged_interleaved (some : 0 < plan.pieces stream.length) :
    plan.arranged stream = plan.chunk stream 0 :: plan.afterFirst stream := by
  obtain ⟨even, odd⟩ := filter_even_range (plan.pieces stream.length)
  obtain ⟨more, half⟩ : ∃ more, (plan.pieces stream.length + 1) / 2 = more + 1 :=
    ⟨(plan.pieces stream.length + 1) / 2 - 1, by omega⟩
  rw [arranged_eq, interleaved, afterFirst, DeliveryOrder.places, even, odd, half,
    List.range_eq_range', List.range_eq_range', List.range'_succ, Nat.add_sub_cancel]
  simp [Function.comp_def]

include cuts

/-- Every piece at an odd place lies below the last tooth when the pieces reach back that far. -/
theorem start_odd_le (long : plan.chunkSize ≤ plan.overlap) {place : Nat}
    (counted : place < plan.pieces stream.length / 2) :
    (plan.chunk stream (2 * place + 1)).offset ≤
      (plan.span stream.length (2 * (0 + ((plan.pieces stream.length + 1) / 2 - 1)))).2 := by
  have begun := (lt_pieces_iff cuts).1
    (show 2 * place + 1 < plan.pieces stream.length by omega)
  have before : 2 * place + 1 ≤ 2 * (0 + ((plan.pieces stream.length + 1) / 2 - 1)) + 1 := by omega
  have covered := Nat.mul_le_mul_right plan.chunkSize before
  have start : (plan.chunk stream (2 * place + 1)).offset =
    (2 * place + 1) * plan.chunkSize - plan.overlap := rfl
  rw [start, span]
  dsimp only
  omega

include found interleaved

theorem peak_interleaved (readSize : Nat) :
    let plain := ReplayReport.ofGulps readSize (Tape.gulps {} (plan.arranged stream))
    (plan.overlap < plan.chunkSize →
        plain.peakSegments = max 1 (plan.pieces stream.length ⌈/⌉ 2 - 1)) ∧
      (plan.chunkSize ≤ plan.overlap → plain.peakSegments = 1) := by
  intro plain
  have length := List.length_pos_iff.2 found
  have some : 0 < plan.pieces stream.length := (lt_pieces_iff cuts).2 (by omega)
  have half : plan.pieces stream.length ⌈/⌉ 2 = (plan.pieces stream.length + 1) / 2 :=
    Nat.ceilDiv_eq_add_pred_div _ _
  have start : (plan.chunk stream 0).offset = 0 := by
    show 0 * plan.chunkSize - plan.overlap = 0
    omega
  have stop : (plan.chunk stream 0).offset + (plan.chunk stream 0).data.length =
    (plan.span stream.length 0).2 := stop_chunk cuts some
  have news := nonempty_span cuts some
  -- The first piece is read at once, and the rest decides.
  obtain ⟨first, after⟩ := Tape.Holds.fresh.gulped_meeting (Nat.le_of_eq start)
  rw [stop, Nat.zero_max] at after
  rw [stop, if_pos (by omega)] at first
  have peak : plain.peakSegments = max 1 (ReplayReport.ofGulps readSize
      ((Tape.gulped {} (plan.chunk stream 0)).gulps (plan.afterFirst stream))).peakSegments := by
    show (ReplayReport.ofGulps readSize (Tape.gulps {} (plan.arranged stream))).peakSegments = _
    rw [arranged_interleaved interleaved some, ← first]
    rfl
  rw [peak, half]
  constructor
  · intro short
    have begun : (Tape.gulped {} (plan.chunk stream 0)).Lays (plan.span stream.length 0).2
        (plan.teeth stream.length 1 0) := after.lays
    refine peak_teeth cuts short readSize rfl ?_ (by omega) begun
    have counted : 2 * (0 + plan.pieces stream.length / 2) ≤ plan.pieces stream.length := by omega
    intro tape lays gulp member
    exact segments_between cuts short rfl counted lays member
  · intro long
    refine Nat.max_eq_left (peak_le_iff.2 fun gulp member => ?_)
    refine segments_reaching cuts long (by omega) rfl after ?_ member
    intro chunk later
    obtain ⟨place, within, rfl⟩ := List.mem_map.1 later
    exact start_odd_le cuts long (by simpa using within)

end Interleaved

/-- **The segments that a stream needs when every other piece is late.**  Without a limit on bytes,
what a plan needs is room for all pieces at even places but the first, one segment for each.  When
the pieces reach back over at least one other, a single segment is enough. -/
theorem replay_interleaved (plan : DeliveryPlan) (stream : Bytes) (segments : Option Nat)
    {readSize : Nat} (cuts : 0 < plan.chunkSize) (positive : 0 < readSize)
    (room : readSize ≤ longestRequest) (found : stream ≠ []) (fits : stream.length ≤ maxOffset)
    (usable : ∀ bound ∈ segments, 0 < bound) :
    let count := stream.length ⌈/⌉ plan.chunkSize
    let most := max 1 (count ⌈/⌉ 2 - 1)
    let result := ((Buffer.fresh { segments }).replay
      ({ plan with order := .interleaved }.chunks stream) readSize).result
    (plan.overlap < plan.chunkSize →
        ((∃ report, result = .ok report) ↔ Limits.Within most segments) ∧
          ∀ report, result = .ok report → report.peakSegments = most) ∧
      (plan.chunkSize ≤ plan.overlap →
        ∃ report, result = .ok report ∧ report.peakSegments = 1) := by
  intro count most result
  let sent : DeliveryPlan := { plan with order := .interleaved }
  have sliced : 0 < sent.chunkSize := cuts
  obtain ⟨apart, reaching⟩ := peak_interleaved sliced found rfl readSize
  obtain ⟨goes, reports⟩ := sent.replay_ok stream { segments } cuts positive room fits
  have unbounded (report : ReplayReport) :
      Limits.Allows { segments } report ↔ Limits.Within report.peakSegments segments :=
    ⟨fun allows => allows.segments, fun within => ⟨nofun, within⟩⟩
  rw [unbounded] at goes
  constructor
  · intro short
    have peak := apart short
    rw [sent.pieces_eq] at peak
    rw [peak] at goes
    exact ⟨goes, fun report ended => (reports report ended).peakSegments.trans peak⟩
  · intro long
    have peak := reaching long
    obtain ⟨report, ended⟩ := goes.2 (peak ▸ usable)
    exact ⟨report, ended, (reports report ended).peakSegments.trans peak⟩

/-- Five pieces of nine bytes, with every second chunk sent twice.  Where each reaches back by one
byte, two segments are needed and one is too few; where it reaches back by a whole piece, one is
enough. -/
theorem replay_interleaved_tight :
    let plan : DeliveryPlan := { chunkSize := 2, overlap := 1, duplicateEvery := some 2 }
    let stream : Bytes := [1, 2, 3, 4, 5, 6, 7, 8, 9]
    let result := fun (plan : DeliveryPlan) (segments : Nat) =>
      ((Buffer.fresh { segments := some segments }).replay
        ({ plan with order := .interleaved }.chunks stream) 4).result
    (0 < plan.chunkSize ∧ 0 < 4 ∧ 4 ≤ longestRequest ∧ stream ≠ [] ∧ stream.length ≤ maxOffset ∧
        ∀ bound ∈ some 1, 0 < bound) ∧
      (∃ report, result plan 2 = .ok report ∧ report.peakSegments = 2) ∧
      (¬∃ report, result plan 1 = .ok report) ∧
      ∃ report, result { plan with overlap := 2 } 1 = .ok report ∧ report.peakSegments = 1 := by
  intro plan stream result
  have cuts : 0 < plan.chunkSize := by decide
  have positive : 0 < 4 := by decide
  have room : 4 ≤ longestRequest := by decide
  have found : stream ≠ [] := by decide
  have fits : stream.length ≤ maxOffset := by decide
  have usableOne : ∀ bound ∈ some 1, 0 < bound := by simp
  have usableTwo : ∀ bound ∈ some 2, 0 < bound := by simp
  obtain ⟨two, -⟩ := replay_interleaved plan stream (some 2) cuts positive room found fits usableTwo
  obtain ⟨one, -⟩ := replay_interleaved plan stream (some 1) cuts positive room found fits usableOne
  obtain ⟨-, back⟩ := replay_interleaved { plan with overlap := 2 } stream (some 1) cuts positive
    room found fits usableOne
  obtain ⟨goes, peaks⟩ := two (by decide)
  obtain ⟨stops, -⟩ := one (by decide)
  have most : max 1 (stream.length ⌈/⌉ plan.chunkSize ⌈/⌉ 2 - 1) = 2 := by decide
  rw [most] at goes peaks stops
  refine ⟨⟨cuts, positive, room, found, fits, usableOne⟩, ?_, ?_, back (by decide)⟩
  · obtain ⟨report, ended⟩ := goes.2 (by simp [Limits.Within])
    exact ⟨report, ended, peaks report ended⟩
  · intro done
    exact absurd (stops.1 done) (by simp [Limits.Within])

/-- Two bytes that are sent in one chunk or, reaching back, in two do not come out: no memory can
be asked for the reads. -/
theorem replay_interleaved_oversized :
    let plan : DeliveryPlan := { chunkSize := 4096 }
    let stream : Bytes := [97, 98]
    let readSize := 9223372036854775808
    let result := fun plan : DeliveryPlan =>
      ((Buffer.fresh {}).replay ({ plan with order := .interleaved }.chunks stream) readSize).result
    let back : DeliveryPlan := { chunkSize := 1, overlap := 1 }
    (0 < plan.chunkSize ∧ 0 < back.chunkSize ∧ 0 < readSize ∧ stream ≠ [] ∧
        stream.length ≤ maxOffset) ∧
      (plan.overlap < plan.chunkSize ∧ Limits.Within 1 none ∧
        ¬∃ report, result plan = .ok report) ∧
      back.chunkSize ≤ back.overlap ∧ ¬∃ report, result back = .ok report := by
  intro plan stream readSize result back
  have ended (plan : DeliveryPlan) : result plan = .error .oversized :=
    congrArg Step.result (Buffer.replay_of_oversized _ _ (by decide))
  rw [ended, ended]
  exact ⟨by decide, ⟨by decide, nofun, by simp⟩, by decide, by simp⟩

end DeliveryPlan

end Gapless
