/-
# Gapless.Proofs.Gulps -- how many bytes a replay reads at a time does not matter

A reader who drains a buffer with small reads and one who takes all that can be read at once
leave the same tape.  So a replay is told by a tape alone: which chunks are refused and why
(`Tape.verdict`), what is held after each of the others and what can be read then (`Gulp`), up to
the first refusal (`Tape.deliver`).  Nothing in this speaks of the size of a read.

That size shows in the report in one place only, the number of reads, which each gulp says for
itself (`ReplayReport.ofGulps`).  `Buffer.Sound.replays` is the equation of a replay and what its
tape tells of it.

A replay that fails has stopped at a chunk, having done what a replay of the chunks before it does
(`Buffer.StopsAt`).
-/
import Gapless.Proofs.Draining
import Gapless.Proofs.Replaying
import Mathlib.Algebra.Order.Floor.Div

namespace Gapless

set_option autoImplicit false

/-- What a delivery comes to when all that can be read after it is read at once. -/
structure Gulp where
  segments : Nat
  held : Nat
  data : Bytes
  deriving DecidableEq

/-! ## Deliveries to a tape -/

namespace Tape

/-- What limits have to say to a chunk. -/
def verdict (tape : Tape) (limits : Limits) (chunk : Chunk) : Except Refusal Unit :=
  let written := tape.write chunk.offset chunk.data
  if chunk.data = [] then .ok ()
  else if maxOffset < chunk.offset + chunk.data.length then
    .error (.invalidArgument (.rangeOverflow chunk.offset chunk.data.length))
  else limits.check written.bytes.offsets.card (runStarts written.bytes.offsets).card

def gulp (tape : Tape) (chunk : Chunk) : Gulp :=
  let written := tape.write chunk.offset chunk.data
  { segments := (runStarts written.bytes.offsets).card
    held := written.bytes.offsets.card
    data := written.front written.readable }

/-- Write a chunk, then read all that can be read. -/
def gulped (tape : Tape) (chunk : Chunk) : Tape :=
  let written := tape.write chunk.offset chunk.data
  written.read written.readable

/-- Write chunk after chunk and read all that can be read after each, until one is refused. -/
def deliver (limits : Limits) (tape : Tape) : List Chunk → Step Tape (Except Refusal (List Gulp))
  | [] => ⟨tape, .ok [], []⟩
  | chunk :: rest =>
      match tape.verdict limits chunk with
      | .error refusal => ⟨tape, .error refusal, []⟩
      | .ok () =>
          ((tape.gulped chunk).deliver limits rest).map (·.map (tape.gulp chunk :: ·))

section Deliver

variable {limits : Limits} {tape : Tape} {chunk : Chunk} (rest : List Chunk)

theorem deliver_of_refused {refusal : Refusal}
    (refused : tape.verdict limits chunk = .error refusal) :
    tape.deliver limits (chunk :: rest) = ⟨tape, .error refusal, []⟩ := by
  rw [deliver, refused]

theorem deliver_of_accepted (accepted : tape.verdict limits chunk = .ok ()) :
    tape.deliver limits (chunk :: rest) =
      ((tape.gulped chunk).deliver limits rest).map (·.map (tape.gulp chunk :: ·)) := by
  rw [deliver, accepted]

/-- A gulp takes all, so it moves the cursor by its length and leaves a gap there. -/
theorem cursor_gulped (tape : Tape) (chunk : Chunk) :
    (tape.gulped chunk).cursor = tape.cursor + (tape.gulp chunk).data.length ∧
      (tape.gulped chunk).readable = 0 := by
  constructor
  · exact congrArg (tape.cursor + ·) (Tape.length_front _ _).symm
  · rw [gulped, readable_read, Nat.sub_self]

/-- The cursor has moved past what the gulps hold, and all was read. -/
theorem cursor_deliver {chunks : List Chunk} {gulps : List Gulp}
    (done : (tape.deliver limits chunks).result = .ok gulps) :
    (tape.deliver limits chunks).state.cursor =
        tape.cursor + (gulps.flatMap (·.data)).length ∧
      (chunks ≠ [] → (tape.deliver limits chunks).state.readable = 0) := by
  induction chunks generalizing tape gulps with
  | nil =>
      cases done
      exact ⟨rfl, fun some => absurd rfl some⟩
  | cons chunk rest ih =>
      cases verdict : tape.verdict limits chunk with
      | error refusal =>
          rw [deliver_of_refused rest verdict] at done
          cases done
      | ok _ =>
          rw [deliver_of_accepted rest verdict] at done ⊢
          obtain ⟨later, ended, rfl⟩ := ok_of_map done
          obtain ⟨cursor, gap⟩ := ih ended
          obtain ⟨first, empty⟩ := tape.cursor_gulped chunk
          refine ⟨?_, fun _ => ?_⟩
          · rw [List.flatMap_cons, List.length_append, ← Nat.add_assoc, ← first]
            exact cursor
          · cases rest with
            | nil => exact empty
            | cons next rest => exact gap (List.cons_ne_nil _ _)

end Deliver

end Tape

/-! ## Reports -/

/-- A visit that came to a gulp, with reads of so many bytes. -/
structure Visit.Took (readSize : Nat) (visit : Visit) (gulp : Gulp) : Prop where
  segments : visit.segments = gulp.segments
  held : visit.held = gulp.held
  whole : visit.pieces.flatten = gulp.data
  portioned : Buffer.Portioned readSize visit.pieces

namespace ReplayReport

/-- The report on deliveries that came to these gulps, with reads of so many bytes. -/
def ofGulps (readSize : Nat) (gulps : List Gulp) : ReplayReport where
  chunks := gulps.length
  reads := (gulps.map fun gulp : Gulp => gulp.data.length ⌈/⌉ readSize).sum
  stalledPolls := gulps.countP (·.data.isEmpty)
  peakSegments := gulps.foldr (max ·.segments) 0
  peakHeld := gulps.foldr (max ·.held) 0
  output := gulps.flatMap (·.data)

/-- A report without what it says of the number of reads. -/
def apartFromReads (report : ReplayReport) : ReplayReport := { report with reads := 0 }

theorem ofGulps_cons {readSize : Nat} (positive : 0 < readSize) {visit : Visit} {gulp : Gulp}
    (took : visit.Took readSize gulp) (gulps : List Gulp) :
    ofGulps readSize (gulp :: gulps) = (ofGulps readSize gulps).preceded visit := by
  obtain ⟨segments, held, whole, portioned⟩ := took
  have number := portioned.length_eq positive
  have stalled : visit.pieces.isEmpty = gulp.data.isEmpty := by
    rw [← whole]
    cases pieces : visit.pieces with
    | nil => rfl
    | cons piece rest =>
        have found := portioned.found piece (by simp [pieces])
        cases piece with
        | nil => exact absurd rfl found
        | cons byte piece => rfl
  rw [whole, ← Nat.ceilDiv_eq_add_pred_div] at number
  simp only [ofGulps, preceded, segments, held, whole, number, stalled, List.length_cons,
    List.map_cons, List.sum_cons, List.countP_cons, List.foldr_cons, List.flatMap_cons,
    Nat.add_comm]

/-- Reports that agree still do when a visit and the gulp that it came to are put in front. -/
theorem map_ofGulps_cons {readSize : Nat} (positive : 0 < readSize) {visit : Visit} {gulp : Gulp}
    (took : visit.Took readSize gulp) {visits : Except Refusal (List Visit)}
    {gulps : Except Refusal (List Gulp)}
    (agree : visits.map ofVisits = gulps.map (ofGulps readSize)) :
    (visits.map (visit :: ·)).map ofVisits = (gulps.map (gulp :: ·)).map (ofGulps readSize) := by
  cases gulps with
  | error refusal =>
      rw [error_of_map agree]
      rfl
  | ok gulps =>
      obtain ⟨visits, rfl, same⟩ := ok_of_map agree
      show Except.ok ((ofVisits visits).preceded visit) = _
      rw [same, ← ofGulps_cons positive took]
      rfl

end ReplayReport

/-! ## Deliveries to a buffer -/

namespace Buffer

variable {buffer : Buffer} {readSize : Nat}

theorem Sound.result_ingestChunk (sound : buffer.Sound) (chunk : Chunk) :
    (buffer.ingestChunk chunk).result = buffer.tape.verdict buffer.limits chunk := by
  rw [ingestChunk_eq, Tape.verdict]
  by_cases nothing : chunk.data = []
  · rw [if_pos nothing, nothing]
    rfl
  · rw [if_neg nothing]
    exact sound.result_ingest chunk.offset nothing

/-- An accepted chunk is written, and that is all. -/
theorem Sound.follows_accepted (sound : buffer.Sound) {chunk : Chunk}
    (accepted : (buffer.ingestChunk chunk).result = .ok ()) :
    Follows buffer (buffer.tape.write chunk.offset chunk.data)
      (buffer.ingestChunk chunk).state := by
  rw [ingestChunk_eq] at accepted ⊢
  have follows := sound.follows_ingest chunk.offset chunk.data
  rwa [accepted] at follows

/-- Whoever hands out as much as there is, or asks for more, hands out all. -/
theorem HandsOut.whole {count : Nat} {after : Buffer} {data : Bytes}
    (hands : HandsOut buffer count after data) (enough : buffer.tape.readable ≤ count) :
    data = buffer.tape.front buffer.tape.readable ∧
      Follows buffer (buffer.tape.read buffer.tape.readable) after := by
  have all : min count buffer.tape.readable = min buffer.tape.readable buffer.tape.readable := by
    omega
  constructor
  · rw [hands.data, ← Tape.front_min, all, Tape.front_min]
  · refine ⟨hands.sound, hands.limits, ?_⟩
    rw [hands.tape, Tape.read, all]
    rfl

/-- The visit that a delivery is when the chunk is accepted. -/
def visit (buffer : Buffer) (readSize : Nat) (chunk : Chunk) : Visit :=
  let taken := (buffer.ingestChunk chunk).state
  { segments := taken.store.count
    held := taken.store.held
    pieces := (taken.drain readSize).result }

/-- The buffer after it. -/
def visited (buffer : Buffer) (readSize : Nat) (chunk : Chunk) : Buffer :=
  ((buffer.ingestChunk chunk).state.drain readSize).state

/-- Deliveries go on from there. -/
theorem deliverChunks_next (readSize : Nat) {chunk : Chunk} (rest : List Chunk)
    (accepted : (buffer.ingestChunk chunk).result = .ok ()) :
    let further := (buffer.visited readSize chunk).deliverChunks readSize rest
    (buffer.deliverChunks readSize (chunk :: rest)).result =
        further.result.map (buffer.visit readSize chunk :: ·) ∧
      (buffer.deliverChunks readSize (chunk :: rest)).state = further.state := by
  rw [deliverChunks_of_accepted rest accepted]
  exact ⟨rfl, rfl⟩

/-- What is drained after a chunk was accepted is a gulp, in pieces. -/
theorem Sound.took (sound : buffer.Sound) (positive : 0 < readSize) {chunk : Chunk}
    (accepted : (buffer.ingestChunk chunk).result = .ok ()) :
    (buffer.visit readSize chunk).Took readSize (buffer.tape.gulp chunk) ∧
      Follows buffer (buffer.tape.gulped chunk) (buffer.visited readSize chunk) := by
  have written := sound.follows_accepted accepted
  have takenSound := written.sound
  have enough := Nat.le_mul_of_pos_right (buffer.ingestChunk chunk).state.tape.readable positive
  obtain ⟨whole, follows⟩ := (takenSound.drain readSize).whole enough
  unfold Tape.gulp Tape.gulped
  rw [← written.tape]
  constructor
  · exact
      { segments := takenSound.count_eq
        held := takenSound.held_eq
        whole := whole
        portioned := (takenSound.drains readSize).portioned takenSound }
  · exact ⟨follows.sound, follows.limits.trans written.limits, follows.tape⟩

/-- **A replay is what its tape tells of it.** -/
theorem Sound.replays (sound : buffer.Sound) (positive : 0 < readSize) (chunks : List Chunk) :
    let done := buffer.deliverChunks readSize chunks
    let told := buffer.tape.deliver buffer.limits chunks
    done.result.map ReplayReport.ofVisits = told.result.map (ReplayReport.ofGulps readSize) ∧
      Follows buffer told.state done.state := by
  induction chunks generalizing buffer with
  | nil => exact ⟨rfl, sound.unchanged⟩
  | cons chunk rest ih =>
      have verdict := sound.result_ingestChunk chunk
      cases fared : (buffer.ingestChunk chunk).result with
      | error refusal =>
          have stays : (buffer.ingestChunk chunk).state = buffer := by
            rw [ingestChunk_eq] at fared ⊢
            exact sound.state_of_refused fared
          rw [fared] at verdict
          rw [deliverChunks_of_refused rest fared, Tape.deliver_of_refused rest verdict.symm]
          refine ⟨rfl, ?_⟩
          show Follows buffer buffer.tape (buffer.ingestChunk chunk).state
          rw [stays]
          exact sound.unchanged
      | ok _ =>
          rw [fared] at verdict
          obtain ⟨took, follows⟩ := sound.took positive fared
          obtain ⟨reports, further⟩ := ih follows.sound
          rw [follows.limits, follows.tape] at reports further
          obtain ⟨result, state⟩ := deliverChunks_next readSize rest fared
          rw [Tape.deliver_of_accepted rest verdict.symm]
          constructor
          · rw [result]
            exact ReplayReport.map_ofGulps_cons positive took reports
          · rw [state]
            exact ⟨further.sound, further.limits.trans follows.limits, further.tape⟩

section Replay

variable (sound : buffer.Sound) (positive : 0 < readSize) (room : readSize ≤ longestRequest)
  (chunks : List Chunk)

include sound positive room

theorem Sound.result_replay :
    (buffer.replay chunks readSize).result =
      ((buffer.tape.deliver buffer.limits chunks).result.map
        (ReplayReport.ofGulps readSize)).mapError .refused := by
  rw [(replay_eq buffer chunks room).2]
  exact congrArg (Except.mapError _) (sound.replays positive chunks).1

theorem Sound.follows_replay :
    Follows buffer (buffer.tape.deliver buffer.limits chunks).state
      (buffer.replay chunks readSize).state := by
  rw [(replay_eq buffer chunks room).1]
  exact (sound.replays positive chunks).2

end Replay

/-! ## One read after each delivery -/

/-- What a reader gets who reads all that is readable once after each delivery. -/
def gulps (buffer : Buffer) : List Chunk → List Bytes
  | [] => []
  | chunk :: rest =>
      let taken := (buffer.ingestChunk chunk).state
      let whole := taken.read taken.readable
      whole.result :: whole.state.gulps rest

/-- Such a reader gets what the tape tells. -/
theorem Sound.gulps_eq (sound : buffer.Sound) {chunks : List Chunk} {gulps : List Gulp}
    (done : (buffer.tape.deliver buffer.limits chunks).result = .ok gulps) :
    buffer.gulps chunks = gulps.map (·.data) := by
  induction chunks generalizing buffer gulps with
  | nil =>
      cases done
      rfl
  | cons chunk rest ih =>
      have verdict := sound.result_ingestChunk chunk
      cases fared : (buffer.ingestChunk chunk).result with
      | error refusal =>
          rw [fared] at verdict
          rw [Tape.deliver_of_refused rest verdict.symm] at done
          cases done
      | ok _ =>
          rw [fared] at verdict
          rw [Tape.deliver_of_accepted rest verdict.symm] at done
          obtain ⟨later, ended, rfl⟩ := ok_of_map done
          have written := sound.follows_accepted fared
          have enough := Nat.le_of_eq written.sound.readable_eq.symm
          obtain ⟨first, follows⟩ := (written.sound.read _).whole enough
          have further := @ih _ follows.sound later
          rw [follows.limits, follows.tape, written.limits, written.tape] at further
          rw [written.tape] at first
          rw [Buffer.gulps, List.map_cons]
          exact congrArg₂ List.cons first (further ended)

/-! ## Where a replay stops -/

/-- Some chunks can be delivered, and the next one is refused then. -/
structure StopsAt (buffer : Buffer) (readSize : Nat) (before : List Chunk) (chunk : Chunk)
    (refusal : Refusal) : Prop where
  delivered : ∃ report, (buffer.replay before readSize).result = .ok report
  refused : ((buffer.replay before readSize).state.ingestChunk chunk).result = .error refusal

section Stops

variable (room : readSize ≤ longestRequest)

include room

theorem stopsAt_iff {before : List Chunk} {chunk : Chunk} {refusal : Refusal} :
    buffer.StopsAt readSize before chunk refusal ↔
      (∃ visits, (buffer.deliverChunks readSize before).result = .ok visits) ∧
        ((buffer.deliverChunks readSize before).state.ingestChunk chunk).result =
          .error refusal := by
  obtain ⟨state, result⟩ := replay_eq buffer before room
  constructor
  · rintro ⟨⟨report, delivered⟩, refused⟩
    obtain ⟨visits, ended, -⟩ := ok_of_map (ok_of_mapError (result.symm.trans delivered))
    exact ⟨⟨visits, ended⟩, state ▸ refused⟩
  · rintro ⟨⟨visits, ended⟩, refused⟩
    refine ⟨⟨.ofVisits visits, ?_⟩, state.symm ▸ refused⟩
    rw [result, ended]
    rfl

/-- Stopping behind an accepted chunk is stopping in what comes after it. -/
theorem stopsAt_cons_iff {first chunk : Chunk} {before : List Chunk} {refusal : Refusal}
    (accepted : (buffer.ingestChunk first).result = .ok ()) :
    buffer.StopsAt readSize (first :: before) chunk refusal ↔
      (buffer.visited readSize first).StopsAt readSize before chunk refusal := by
  obtain ⟨result, state⟩ := deliverChunks_next readSize before accepted
  rw [stopsAt_iff room, stopsAt_iff room, result, state]
  refine and_congr_left fun _ => ⟨?_, ?_⟩
  · rintro ⟨visits, delivered⟩
    obtain ⟨later, ended, -⟩ := ok_of_map delivered
    exact ⟨later, ended⟩
  · rintro ⟨visits, delivered⟩
    rw [delivered]
    exact ⟨_, rfl⟩

/-- Deliveries end with a chunk that is refused after those before it were accepted. -/
theorem deliverChunks_stopped {before : List Chunk} {chunk : Chunk} (rest : List Chunk)
    {refusal : Refusal} (stops : buffer.StopsAt readSize before chunk refusal) :
    (buffer.deliverChunks readSize (before ++ chunk :: rest)).result = .error refusal ∧
      (buffer.deliverChunks readSize (before ++ chunk :: rest)).state =
        ((buffer.deliverChunks readSize before).state.ingestChunk chunk).state := by
  induction before generalizing buffer with
  | nil =>
      have first : (buffer.ingestChunk chunk).result = .error refusal :=
        ((stopsAt_iff room).1 stops).2
      rw [List.nil_append, deliverChunks_of_refused rest first]
      exact ⟨rfl, rfl⟩
  | cons first before ih =>
      cases fared : (buffer.ingestChunk first).result with
      | error other =>
          obtain ⟨⟨visits, delivered⟩, -⟩ := (stopsAt_iff room).1 stops
          rw [deliverChunks_of_refused before fared] at delivered
          cases delivered
      | ok _ =>
          obtain ⟨result, state⟩ := ih ((stopsAt_cons_iff room fared).1 stops)
          obtain ⟨-, stateBefore⟩ := deliverChunks_next readSize before fared
          obtain ⟨resultAll, stateAll⟩ :=
            deliverChunks_next readSize (before ++ chunk :: rest) fared
          rw [List.cons_append, resultAll, stateAll, stateBefore, result]
          exact ⟨rfl, state⟩

/-- Deliveries that fail have ended with such a chunk. -/
theorem exists_stopsAt {chunks : List Chunk} {refusal : Refusal}
    (failed : (buffer.deliverChunks readSize chunks).result = .error refusal) :
    ∃ before chunk rest, chunks = before ++ chunk :: rest ∧
      buffer.StopsAt readSize before chunk refusal := by
  induction chunks generalizing buffer with
  | nil => cases failed
  | cons first rest ih =>
      cases fared : (buffer.ingestChunk first).result with
      | error other =>
          rw [deliverChunks_of_refused rest fared] at failed
          cases failed
          exact ⟨[], first, rest, rfl, (stopsAt_iff room).2 ⟨⟨[], rfl⟩, fared⟩⟩
      | ok _ =>
          rw [(deliverChunks_next readSize rest fared).1] at failed
          obtain ⟨before, chunk, behind, rfl, stops⟩ := ih (error_of_map failed)
          exact ⟨first :: before, chunk, behind, rfl, (stopsAt_cons_iff room fared).2 stops⟩

/-- **A failed replay has stopped at a chunk, and left it at that.** -/
theorem Sound.replay_stopped (sound : buffer.Sound) (positive : 0 < readSize)
    {before : List Chunk} {chunk : Chunk} (rest : List Chunk) {refusal : Refusal}
    (stops : buffer.StopsAt readSize before chunk refusal) :
    (buffer.replay (before ++ chunk :: rest) readSize).result = .error (.refused refusal) ∧
      (buffer.replay (before ++ chunk :: rest) readSize).state =
        (buffer.replay before readSize).state := by
  obtain ⟨-, refused⟩ := (stopsAt_iff room).1 stops
  obtain ⟨result, state⟩ := deliverChunks_stopped room rest stops
  obtain ⟨stateOf, resultOf⟩ := replay_eq buffer (before ++ chunk :: rest) room
  have after := (sound.replays positive before).2.sound
  constructor
  · rw [resultOf, result]
    rfl
  · rw [ingestChunk_eq] at refused state
    rw [stateOf, state, after.state_of_refused refused, (replay_eq buffer before room).1]

end Stops

/-- **The size of the reads shows in their number and nowhere else.** -/
theorem replay_any_reads (limits : Limits) (calls : List Call) (chunks : List Chunk)
    {one other : Nat} (positive : 0 < one) (positiveToo : 0 < other)
    (room : one ≤ longestRequest) (roomToo : other ≤ longestRequest) :
    let buffer := ((fresh limits).run calls).state
    let done := buffer.replay chunks one
    let doneToo := buffer.replay chunks other
    done.result.map ReplayReport.apartFromReads =
        doneToo.result.map ReplayReport.apartFromReads ∧
      done.state.Alike doneToo.state ∧
      (∀ report, done.result = .ok report →
        report.output = (buffer.gulps chunks).flatten ∧
          done.state.cursor = buffer.cursor + report.output.length ∧
          report.reads = ((buffer.gulps chunks).map fun data : Bytes => data.length ⌈/⌉ one).sum ∧
          (chunks ≠ [] → done.state.readable = 0)) ∧
      (∀ fault, done.result = .error fault →
        ∃ before chunk rest refusal, chunks = before ++ chunk :: rest ∧
          fault = .refused refusal ∧ buffer.StopsAt one before chunk refusal) ∧
      ∀ before chunk rest refusal, chunks = before ++ chunk :: rest →
        buffer.StopsAt one before chunk refusal →
          done.result = .error (.refused refusal) ∧
            done.state = (buffer.replay before one).state := by
  intro buffer done doneToo
  have follows : Follows (fresh limits) _ buffer := follows_fresh limits calls
  have sound : buffer.Sound := follows.sound
  have result := sound.result_replay positive room chunks
  have resultToo := sound.result_replay positiveToo roomToo chunks
  have after := sound.follows_replay positive room chunks
  have afterToo := sound.follows_replay positiveToo roomToo chunks
  refine ⟨?_, ?_, ?_, ?_, ?_⟩
  · show (buffer.replay chunks one).result.map _ = (buffer.replay chunks other).result.map _
    rw [result, resultToo]
    cases (buffer.tape.deliver buffer.limits chunks).result <;> rfl
  · exact after.sound.alike afterToo.sound (after.tape.trans afterToo.tape.symm)
      (after.limits.trans afterToo.limits.symm)
  · intro report ended
    obtain ⟨gulps, told, rfl⟩ := ok_of_map (ok_of_mapError (result.symm.trans ended))
    obtain ⟨cursor, gap⟩ := Tape.cursor_deliver told
    have whole := sound.gulps_eq told
    refine ⟨?_, ?_, ?_, ?_⟩
    · rw [whole, ← List.flatMap_def]
      rfl
    · exact (congrArg Tape.cursor after.tape).trans cursor
    · rw [whole, List.map_map]
      rfl
    · intro some
      rw [after.sound.readable_eq, after.tape]
      exact gap some
  · intro fault failed
    have mapped := (replay_eq buffer chunks room).2.symm.trans failed
    obtain ⟨refusal, refused, rfl⟩ := error_of_mapError mapped
    obtain ⟨before, chunk, rest, split, stops⟩ := exists_stopsAt room (error_of_map refused)
    exact ⟨before, chunk, rest, refusal, split, rfl, stops⟩
  · rintro before chunk rest refusal rfl stops
    exact sound.replay_stopped room positive rest stops

/-- What was stored before is drained after an empty chunk, one chunk comes late, and the last one
closes a gap. -/
theorem replay_any_reads_pairwise :
    let calls : List Call := [.request (.ingest 0 [1, 2, 3]), .request (.ingest 5 [6, 7])]
    let buffer := ((fresh { segments := some 2 }).run calls).state
    let chunks : List Chunk := [.ofData 9 [], .ofData 3 [4], .ofData 2 [3, 4], .ofData 4 [5]]
    (0 < 2 ∧ 0 < 5 ∧ 2 ≤ longestRequest ∧ 5 ≤ longestRequest) ∧
      buffer.gulps chunks = [[1, 2, 3], [4], [], [5, 6, 7]] ∧
      (∃ report, (buffer.replay chunks 2).result = .ok report ∧
        report.output = [1, 2, 3, 4, 5, 6, 7] ∧ report.reads = 5) ∧
      (buffer.replay chunks 2).state.Alike (buffer.replay chunks 5).state := by
  intro calls buffer chunks
  have two : 0 < 2 := by decide
  have five : 0 < 5 := by decide
  have room : 2 ≤ longestRequest := by decide
  have roomToo : 5 ≤ longestRequest := by decide
  have gulps : buffer.gulps chunks = [[1, 2, 3], [4], [], [5, 6, 7]] := by decide
  obtain ⟨-, alike, succeeds, -, -⟩ :=
    replay_any_reads { segments := some 2 } calls chunks two five room roomToo
  cases ended : (buffer.replay chunks 2).result with
  | error fault =>
      have accepted : (buffer.replay chunks 2).result.isOk = true := by decide
      rw [ended] at accepted
      cases accepted
  | ok report =>
      obtain ⟨output, -, reads, -⟩ := succeeds report ended
      refine ⟨⟨two, five, room, roomToo⟩, gulps, ⟨report, rfl, ?_, ?_⟩, alike⟩
      · rw [output]
        exact congrArg List.flatten gulps
      · rw [reads]
        exact congrArg (fun gulps => (gulps.map fun data : Bytes => data.length ⌈/⌉ 2).sum) gulps

/-- Reads of a single byte bring back what is sent, and no memory can be asked for those that are
longer than any piece of it. -/
theorem replay_any_reads_oversized :
    let buffer := ((fresh {}).run []).state
    let chunks : List Chunk := [.ofData 0 [97, 98]]
    let one := 1
    let other := 9223372036854775808
    let done := buffer.replay chunks one
    let doneToo := buffer.replay chunks other
    (0 < one ∧ 0 < other) ∧ (∃ report, done.result = .ok report ∧ report.output = [97, 98]) ∧
      done.result.map ReplayReport.apartFromReads ≠
        doneToo.result.map ReplayReport.apartFromReads := by
  intro buffer chunks one other done doneToo
  have failed : doneToo.result = .error .oversized :=
    congrArg Step.result (replay_of_oversized _ _ (by decide))
  have accepted : done.result = .ok
      { chunks := 1, reads := 2, peakSegments := 1, peakHeld := 2, output := [97, 98] } := by
    decide
  rw [failed, accepted]
  exact ⟨by decide, ⟨_, rfl, rfl⟩, nofun⟩

end Buffer

end Gapless
