/-
# Gapless.Proofs.Replaying -- a replayed stream comes out as it went in

A replay is one loop inside another: chunk after chunk, and after each one reads until
a read returns nothing.  Neither loop has a bound of its own; `Delivers` is what they
do, and `Sound.delivers` says that they end.

A replay plays the tape of its buffer.  Its chunks cover the stream and nothing else, so
that at the end the cursor stands at the end of the stream, and all bytes handed out are
those of the stream before it (`Tape.Played.finished`).

All of this is about reads for which memory can be asked (`longestRequest`).  A replay with
longer ones ends before its first chunk (`Buffer.replay_of_oversized`).
-/
import Gapless.CommandLine.Command
import Gapless.Proofs.Admission
import Gapless.Proofs.Planning

namespace Gapless

set_option autoImplicit false

/-! ## The end of a stream -/

/-- Chunks that cover a stream, and from which all has been read, have been read to the end
of it. -/
theorem Tape.Played.finished {chunks : List Chunk} {handed source : Bytes} {tape : Tape}
    (played : Tape.Played chunks handed tape) (cut : ∀ chunk ∈ chunks, chunk.CutFrom source)
    (covered : ∀ offset, Covered chunks offset ↔ offset < source.length)
    (gap : tape.readable = 0) :
    handed = source ∧ tape.cursor = source.length ∧ tape.bytes.offsets = ∅ := by
  -- The cursor stands at the first offset that no chunk covers: the end of the stream.
  have of := played.ofSource cut
  have least := played.isLeast
  rw [gap, Nat.add_zero] at least
  have cursor : tape.cursor = source.length := by
    refine Nat.le_antisymm of.cursor_le ?_
    by_contra short
    exact least.1 ((covered _).2 (Nat.not_le.1 short))
  refine ⟨?_, cursor, ?_⟩
  · rw [of.handed_eq, cursor, List.take_length]
  · refine Finset.eq_empty_of_forall_notMem fun offset waits => ?_
    have inside := (covered offset).1 ((played.covered_iff offset).1 (Or.inr waits))
    have reached := played.ahead offset waits
    omega

namespace Buffer

open CommandLine

variable {readSize : Nat} {buffer : Buffer}

/-- Reading until a read returns nothing takes all that can be read. -/
theorem Drains.handsOut {count : Nat} (positive : 0 < count) {step : Step Buffer (List Bytes)}
    (drains : Drains count buffer step) (sound : buffer.Sound) :
    ∃ total, HandsOut buffer total step.state step.result.flatten ∧
      step.state.tape.readable = 0 := by
  induction drains with
  | @done buffer nothing =>
      have first := sound.read count
      rw [nothing] at first
      refine ⟨count, first, ?_⟩
      show (buffer.read count).state.tape.readable = 0
      have least := sound.min_of_nothing nothing
      rw [first.tape, Tape.readable_read]
      omega
  | @more buffer rest found further ih =>
      have first := sound.read count
      obtain ⟨total, handsOut, gap⟩ := ih first.sound
      exact ⟨count + total, first.trans handsOut, gap⟩

/-! ## Deliveries -/

/-- Chunk after chunk is taken in, and after each one all is read, until one is refused. -/
inductive Delivers (readSize : Nat) :
    Buffer → List Chunk → Step Buffer (Except Refusal (List Visit)) → Prop
  | done (buffer : Buffer) : Delivers readSize buffer [] ⟨buffer, .ok [], []⟩
  | refused {buffer : Buffer} {chunk : Chunk} {refusal : Refusal} (rest : List Chunk)
      (refused : (buffer.ingestChunk chunk).result = .error refusal) :
      Delivers readSize buffer (chunk :: rest)
        ((buffer.ingestChunk chunk).map fun _ => .error refusal)
  | next {buffer : Buffer} {chunk : Chunk} {rest : List Chunk} {drained : Step Buffer (List Bytes)}
      {further : Step Buffer (Except Refusal (List Visit))}
      (accepted : (buffer.ingestChunk chunk).result = .ok ())
      (drains : Drains readSize (buffer.ingestChunk chunk).state drained)
      (delivers : Delivers readSize drained.state rest further) :
      Delivers readSize buffer (chunk :: rest)
        ((buffer.ingestChunk chunk).andThen fun taken _ =>
          drained.andThen fun _ pieces =>
            further.map (·.map
              ({ segments := taken.store.count, held := taken.store.held, pieces } :: ·)))

theorem Sound.ingestChunk (sound : buffer.Sound) (chunk : Chunk) :
    (buffer.ingestChunk chunk).state.Sound := by
  rw [ingestChunk_eq]
  exact sound.ingest chunk.offset chunk.data

section Equations

variable {chunk : Chunk} (rest : List Chunk)

theorem deliverChunks_of_refused {refusal : Refusal}
    (refused : (buffer.ingestChunk chunk).result = .error refusal) :
    buffer.deliverChunks readSize (chunk :: rest) =
      (buffer.ingestChunk chunk).map fun _ => .error refusal := by
  simp [deliverChunks, deliverChunk, Step.andThen, Step.map, refused]

theorem deliverChunks_of_accepted (accepted : (buffer.ingestChunk chunk).result = .ok ()) :
    buffer.deliverChunks readSize (chunk :: rest) =
      (buffer.ingestChunk chunk).andThen fun taken _ =>
        (taken.drain readSize).andThen fun after pieces =>
          (after.deliverChunks readSize rest).map (·.map
            ({ segments := taken.store.count, held := taken.store.held, pieces } :: ·)) := by
  simp [deliverChunks, deliverChunk, Step.andThen, Step.map, accepted]

end Equations

/-- An accepted chunk is written on the tape that is played. -/
theorem Sound.played_ingestChunk (sound : buffer.Sound) {chunk : Chunk}
    (accepted : (buffer.ingestChunk chunk).result = .ok ()) {earlier : List Chunk} {handed : Bytes}
    (played : Tape.Played earlier handed buffer.tape) :
    Tape.Played (earlier ++ [chunk]) handed (buffer.ingestChunk chunk).state.tape := by
  rw [ingestChunk_eq] at accepted ⊢
  rw [sound.tape_ingest accepted]
  exact played.write chunk

/-- **The loops of a replay end**, and `Buffer.deliverChunks` is what they do. -/
theorem Sound.delivers (sound : buffer.Sound) (readSize : Nat) (chunks : List Chunk) :
    Delivers readSize buffer chunks (buffer.deliverChunks readSize chunks) := by
  induction chunks generalizing buffer with
  | nil => exact .done buffer
  | cons chunk rest ih =>
      cases result : (buffer.ingestChunk chunk).result with
      | error refusal =>
          rw [deliverChunks_of_refused rest result]
          exact .refused rest result
      | ok _ =>
          have taken := sound.ingestChunk chunk
          rw [deliverChunks_of_accepted rest result]
          exact .next result (taken.drains readSize) (ih (taken.drain readSize).sound)

/-- Deliveries are stopped by a limit, if at all. -/
theorem Delivers.refuses {chunks : List Chunk} {step : Step Buffer (Except Refusal (List Visit))}
    (delivers : Delivers readSize buffer chunks step) (positive : 0 < readSize)
    (sound : buffer.Sound)
    (ranged : ∀ chunk ∈ chunks, chunk.data = [] ∨ chunk.offset + chunk.data.length ≤ maxOffset)
    {refusal : Refusal} (refused : step.result = .error refusal) :
    buffer.limits.Refuses refusal := by
  induction delivers with
  | done buffer => cases refused
  | @refused buffer chunk other rest stopped =>
      cases refused
      rw [ingestChunk_eq] at stopped
      exact sound.refuses (ranged chunk List.mem_cons_self) stopped
  | @next buffer chunk rest drained further accepted drains delivers ih =>
      obtain ⟨total, handsOut, -⟩ := drains.handsOut positive (sound.ingestChunk chunk)
      have limits : drained.state.limits = buffer.limits := by
        rw [handsOut.limits, ingestChunk_eq, sound.limits_ingest]
      rw [← limits]
      exact ih handsOut.sound (fun other member => ranged other (.tail _ member))
        (error_of_map refused)

/-- What is known when all chunks were accepted. -/
structure Delivered (earlier : List Chunk) (handed : Bytes) (chunks : List Chunk)
    (visits : List Visit) (after : Buffer) : Prop where
  sound : after.Sound
  played : Tape.Played (earlier ++ chunks) (handed ++ visits.flatMap (·.pieces.flatten)) after.tape
  gap : after.tape.readable = 0
  length : visits.length = chunks.length

theorem Delivers.delivered {chunks : List Chunk}
    {step : Step Buffer (Except Refusal (List Visit))}
    (delivers : Delivers readSize buffer chunks step) (positive : 0 < readSize)
    (sound : buffer.Sound) {earlier : List Chunk} {handed : Bytes}
    (played : Tape.Played earlier handed buffer.tape) (gap : buffer.tape.readable = 0)
    {visits : List Visit} (done : step.result = .ok visits) :
    Delivered earlier handed chunks visits step.state := by
  induction delivers generalizing earlier handed visits with
  | done buffer =>
      cases done
      exact
        { sound := sound
          played := by
            rw [List.append_nil]
            show Tape.Played earlier (handed ++ []) buffer.tape
            rw [List.append_nil]
            exact played
          gap := gap
          length := rfl }
  | refused rest stopped => cases done
  | @next buffer chunk rest drained further accepted drains delivers ih =>
      obtain ⟨total, handsOut, empty⟩ := drains.handsOut positive (sound.ingestChunk chunk)
      obtain ⟨later, result, rfl⟩ := ok_of_map done
      have taken := handsOut.played (sound.played_ingestChunk accepted played)
      have rest := ih handsOut.sound taken empty result
      have whole := rest.played
      rw [List.append_assoc, List.append_assoc] at whole
      exact
        { sound := rest.sound
          played := whole
          gap := rest.gap
          length := congrArg Nat.succ rest.length }

/-! ## Reports -/

theorem chunks_ofVisits (visits : List Visit) :
    (ReplayReport.ofVisits visits).chunks = visits.length := by
  induction visits with
  | nil => rfl
  | cons visit visits ih => exact congrArg Nat.succ ih

theorem output_ofVisits (visits : List Visit) :
    (ReplayReport.ofVisits visits).output = visits.flatMap (·.pieces.flatten) := by
  induction visits with
  | nil => rfl
  | cons visit visits ih => exact congrArg (visit.pieces.flatten ++ ·) ih

/-! ## Replays -/

/-- A replay is a report on its deliveries. -/
theorem replay_eq (buffer : Buffer) (chunks : List Chunk) (room : readSize ≤ longestRequest) :
    (buffer.replay chunks readSize).state = (buffer.deliverChunks readSize chunks).state ∧
      (buffer.replay chunks readSize).result =
        ((buffer.deliverChunks readSize chunks).result.map ReplayReport.ofVisits).mapError
          .refused := by
  unfold replay Step.andThen
  rw [if_neg (Nat.not_lt.2 room)]
  cases (buffer.deliverChunks readSize chunks).result <;> exact ⟨rfl, rfl⟩

theorem replay_of_oversized (buffer : Buffer) (chunks : List Chunk)
    (large : longestRequest < readSize) :
    buffer.replay chunks readSize = ⟨buffer, .error .oversized, []⟩ :=
  if_pos large

theorem readable_fresh (limits : Limits) : (fresh limits).tape.readable = 0 := by
  rw [tape_fresh]
  exact ByteMap.reach_eq_zero_iff.2 (Finset.notMem_empty _)

/-- A plan that was delivered to the end has brought the whole stream. -/
theorem Delivered.finished {plan : DeliveryPlan} {stream : Bytes} {visits : List Visit}
    (delivered : Delivered [] [] (plan.chunks stream) visits buffer) (cuts : 0 < plan.chunkSize) :
    visits.flatMap (·.pieces.flatten) = stream ∧ buffer.cursor = stream.length ∧
      buffer.store.segments = [] ∧ buffer.store.held = 0 ∧ buffer.store.count = 0 := by
  have cut : ∀ chunk ∈ plan.chunks stream, chunk.CutFrom stream :=
    fun chunk member => DeliveryPlan.cutFrom_of_mem member
  obtain ⟨output, cursor, nothing⟩ := delivered.played.finished cut
    (fun offset => DeliveryPlan.covered_chunks_iff cuts) delivered.gap
  have sound := delivered.sound
  refine ⟨output, cursor, sound.segments_eq_nil_iff.2 nothing, ?_, ?_⟩
  · rw [sound.held_eq, nothing, Finset.card_empty]
  · rw [sound.count_eq, nothing]
    rfl

theorem concluded_of_intact {input : Bytes} {report : ReplayReport}
    (intact : report.output = input) :
    (Command.concluded input report (.ok ())).code = some 0 ∧
      (Command.concluded input report (.ok ())).output =
        [Command.summary input.length report true] := by
  subst intact
  simp [Command.concluded, Command.finished]

section Planned

variable {plan : DeliveryPlan} {limits : Limits} {stream : Bytes}

theorem replay_refuses (reads : 0 < readSize) (room : readSize ≤ longestRequest)
    (fits : stream.length ≤ maxOffset) {fault : ReplayFault}
    (failed : ((fresh limits).replay (plan.chunks stream) readSize).result = .error fault) :
    ∃ refusal, fault = .refused refusal ∧ limits.Refuses refusal := by
  have sound := sound_fresh limits
  have delivers := sound.delivers readSize (plan.chunks stream)
  rw [(replay_eq _ _ room).2] at failed
  obtain ⟨refusal, refused, rfl⟩ := error_of_mapError failed
  refine ⟨refusal, rfl, delivers.refuses reads sound (fun chunk member => ?_)
    (error_of_map refused)⟩
  exact DeliveryPlan.ranged_of_mem fits member

theorem replay_whole (cuts : 0 < plan.chunkSize) (reads : 0 < readSize)
    (room : readSize ≤ longestRequest) {report : ReplayReport}
    (done : ((fresh limits).replay (plan.chunks stream) readSize).result = .ok report) :
    let after := ((fresh limits).replay (plan.chunks stream) readSize).state
    report.output = stream ∧ report.chunks = (plan.chunks stream).length ∧
      after.cursor = stream.length ∧ after.store.segments = [] ∧
      after.store.held = 0 ∧ after.store.count = 0 := by
  intro after
  obtain ⟨state, result⟩ := replay_eq (fresh limits) (plan.chunks stream) room
  have sound := sound_fresh limits
  have delivers := sound.delivers readSize (plan.chunks stream)
  obtain ⟨visits, accepted, rfl⟩ := ok_of_map (ok_of_mapError (result.symm.trans done))
  have delivered :=
    delivers.delivered reads sound (played_fresh limits) (readable_fresh limits) accepted
  have count := delivered.length
  rw [← state] at delivered
  obtain ⟨output, cursor, empty, held, segments⟩ := delivered.finished cuts
  rw [← output_ofVisits] at output
  rw [← chunks_ofVisits] at count
  exact ⟨output, count, cursor, empty, held, segments⟩

/-- What the command does with a replay that brought the stream back. -/
theorem replayAndWrite_whole {options : Options} {report : ReplayReport}
    (done : Command.replay options stream = .ok report) (whole : report.output = stream)
    {m : Type → Type} [Monad m] (machine : Machine m) :
    Command.replayAndWrite machine options stream = do
      return Command.concluded stream report
        (← Command.writeOutput machine options stream) := by
  subst whole
  unfold Command.replayAndWrite
  rw [done]

end Planned

/-- **A replay never corrupts a stream.**  Its loops end.  It fails only when a limit would be
passed, so never without limits; otherwise all of the stream comes out, and the command writes it
and finds it intact.  Memory can be asked for the reads, and a stream that is held in memory has
an offset for each of its bytes. -/
theorem replay_intact (plan : DeliveryPlan) (limits : Limits) (readSize : Nat) (stream : Bytes)
    (cuts : 0 < plan.chunkSize) (reads : 0 < readSize) (room : readSize ≤ longestRequest)
    (fits : stream.length ≤ maxOffset) :
    let chunks := plan.chunks stream
    let outcome := (fresh limits).replay chunks readSize
    Delivers readSize (fresh limits) chunks ((fresh limits).deliverChunks readSize chunks) ∧
      (∀ fault, outcome.result = .error fault →
        ∃ refusal, fault = .refused refusal ∧ limits.Refuses refusal) ∧
      (limits = .unbounded → ∃ report, outcome.result = .ok report) ∧
      (∀ report, outcome.result = .ok report →
        report.output = stream ∧ report.chunks = chunks.length ∧
          outcome.state.cursor = stream.length ∧ outcome.state.store.segments = [] ∧
          outcome.state.store.held = 0 ∧ outcome.state.store.count = 0) ∧
      ∀ options : Options,
        options.plan = plan → options.limits = limits → options.readSize = readSize →
          ∀ {m : Type → Type} [Monad m] (machine : Machine m),
            (∀ refusal, outcome.result = .error (.refused refusal) →
              Command.replayAndWrite machine options stream =
                pure (Command.failed (.replay refusal))) ∧
            ∀ report, outcome.result = .ok report →
              (Command.replayAndWrite machine options stream = do
                  return Command.concluded stream report
                    (← Command.writeOutput machine options stream)) ∧
                (Command.concluded stream report (.ok ())).code = some 0 ∧
                (Command.concluded stream report (.ok ())).output =
                  [Command.summary stream.length report true] := by
  intro chunks outcome
  have refuses : ∀ fault, outcome.result = .error fault →
      ∃ refusal, fault = .refused refusal ∧ limits.Refuses refusal :=
    fun fault failed => replay_refuses reads room fits failed
  refine ⟨(sound_fresh limits).delivers readSize chunks, refuses, ?_, ?_, ?_⟩
  · rintro rfl
    cases ended : outcome.result with
    | ok report => exact ⟨report, rfl⟩
    | error fault =>
        obtain ⟨refusal, -, passed⟩ := refuses fault ended
        exact absurd passed (Limits.not_refuses_unbounded refusal)
  · intro report done
    exact replay_whole cuts reads room done
  · rintro options rfl rfl rfl m _ machine
    constructor
    · intro refusal refused
      have refused : Command.replay options stream = .error (.refused refusal) := refused
      unfold Command.replayAndWrite
      rw [refused]
    · intro report done
      have whole := (replay_whole cuts reads room done).1
      exact ⟨replayAndWrite_whole done whole machine, concluded_of_intact whole⟩

/-- Seven bytes in three chunks, the last one first and the second one twice. -/
theorem replay_intact_reverse :
    let plan : DeliveryPlan :=
      { chunkSize := 3, overlap := 1, order := .reverse, duplicateEvery := some 2 }
    let stream : Bytes := [1, 2, 3, 4, 5, 6, 7]
    (0 < plan.chunkSize ∧ 0 < 2 ∧ 2 ≤ longestRequest ∧ stream.length ≤ maxOffset) ∧
      ∃ report, ((fresh .unbounded).replay (plan.chunks stream) 2).result = .ok report ∧
        report.output = stream ∧ report.chunks = 4 := by
  intro plan stream
  have room : 2 ≤ longestRequest := by decide
  have fits : stream.length ≤ maxOffset := by decide
  obtain ⟨-, -, succeeds, intact, -⟩ :=
    replay_intact plan .unbounded 2 stream (by decide) (by decide) room fits
  obtain ⟨report, done⟩ := succeeds rfl
  obtain ⟨output, chunks, -⟩ := intact report done
  refine ⟨⟨by decide, by decide, room, fits⟩, report, done, output, ?_⟩
  rw [chunks]
  decide

/-- No memory can be asked for a read that is longer by one byte, and two bytes in a single chunk
do not come out. -/
theorem replay_intact_oversized :
    let plan : DeliveryPlan := { chunkSize := 4096 }
    let stream : Bytes := [97, 98]
    let readSize := 9223372036854775808
    let outcome := (fresh .unbounded).replay (plan.chunks stream) readSize
    (0 < plan.chunkSize ∧ 0 < readSize ∧ stream.length ≤ maxOffset) ∧
      (¬∃ report, outcome.result = .ok report) ∧
      ∀ refusal, outcome.result ≠ .error (.refused refusal) := by
  intro plan stream readSize outcome
  have ended : outcome.result = .error .oversized :=
    congrArg Step.result (replay_of_oversized _ _ (by decide))
  rw [ended]
  exact ⟨by decide, by simp, by simp⟩

end Buffer

end Gapless
