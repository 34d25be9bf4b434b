/-
# Gapless.Proofs.History -- what went in and what came out

The history of a tape is the chunks that were written on it and the bytes that were
handed out (`Tape.Played`).  Two things follow from it alone:

* the cursor has passed or the tape holds exactly the offsets that the chunks cover
  (`Played.covered_iff`), so that reading stops at the first offset that none covers;
* when all chunks were cut from one source, the bytes handed out are its beginning and
  the bytes that wait are its bytes (`Played.ofSource`).

Every run of calls plays a tape, with the chunks that it accepted and the bytes that it
handed out (`Sound.played_run`).
-/
import Gapless.Proofs.Calls
import Mathlib.Order.Bounds.Basic

namespace Gapless

set_option autoImplicit false

/-! ## Chunks of a history -/

/-- Some of the chunks has a byte for the offset. -/
def Covered (chunks : List Chunk) (offset : Nat) : Prop :=
  ∃ chunk ∈ chunks, chunk.offset ≤ offset ∧ offset < chunk.stop

/-- A chunk is a piece of a stream, at its own place. -/
def Chunk.CutFrom (source : Bytes) (chunk : Chunk) : Prop :=
  chunk.data <+: source.drop chunk.offset

instance (source : Bytes) : DecidablePred (Chunk.CutFrom source) := fun chunk =>
  inferInstanceAs (Decidable (chunk.data <+: source.drop chunk.offset))

theorem covered_append {chunks more : List Chunk} {offset : Nat} :
    Covered (chunks ++ more) offset ↔ Covered chunks offset ∨ Covered more offset := by
  unfold Covered
  simp only [List.mem_append, or_and_right, exists_or]

theorem covered_singleton {chunk : Chunk} {offset : Nat} :
    Covered [chunk] offset ↔ chunk.offset ≤ offset ∧ offset < chunk.stop := by
  unfold Covered
  simp

theorem Chunk.CutFrom.getElem? {source : Bytes} {chunk : Chunk} (cut : chunk.CutFrom source)
    {index : Nat} (inside : index < chunk.data.length) :
    chunk.data[index]? = source[chunk.offset + index]? := by
  rw [List.prefix_iff_eq_take.1 cut, List.getElem?_take, if_pos inside, List.getElem?_drop]

namespace Tape

/-! ## Histories -/

/-- A tape on which these chunks were written and from which these bytes were read. -/
inductive Played : List Chunk → Bytes → Tape → Prop
  | fresh : Played [] [] {}
  | write {chunks : List Chunk} {handed : Bytes} {tape : Tape}
      (earlier : Played chunks handed tape) (chunk : Chunk) :
      Played (chunks ++ [chunk]) handed (tape.write chunk.offset chunk.data)
  | read {chunks : List Chunk} {handed : Bytes} {tape : Tape}
      (earlier : Played chunks handed tape) (count : Nat) :
      Played chunks (handed ++ tape.front count) (tape.read count)

variable {tape : Tape} {chunks : List Chunk} {handed : Bytes}

theorem mem_skip {count offset : Nat} :
    offset ∈ (tape.skip count).bytes.offsets ↔
      offset ∈ tape.bytes.offsets ∧ tape.cursor + count ≤ offset :=
  Finset.mem_filter

theorem Played.ahead (played : Played chunks handed tape) : tape.Ahead := by
  induction played with
  | fresh => exact fun offset known => absurd known (Finset.notMem_empty offset)
  | write earlier chunk ih =>
      intro offset known
      rcases mem_write.1 known with waits | ⟨-, reached⟩
      · exact ih offset waits
      · exact reached
  | read earlier count ih => exact fun offset known => (mem_skip.1 known).2

/-- What was passed or waits is what the chunks cover. -/
theorem Played.covered_iff (played : Played chunks handed tape) (offset : Nat) :
    offset < tape.cursor ∨ offset ∈ tape.bytes.offsets ↔ Covered chunks offset := by
  induction played with
  | fresh =>
      show offset < 0 ∨ offset ∈ ∅ ↔ _
      simp [Covered]
  | @write chunks handed tape earlier chunk ih =>
      rw [covered_append, ← ih, covered_singleton, mem_write, chunk.length_data]
      show offset < tape.cursor ∨ _ ↔
        _ ∨ chunk.offset ≤ offset ∧ offset < chunk.offset + chunk.length
      by_cases passed : offset < tape.cursor
      · simp [passed]
      · simp [passed, Nat.not_lt.1 passed]
  | @read chunks handed tape earlier count ih =>
      rw [← ih, Tape.read, mem_skip, cursor_skip]
      -- What a read passes was there: it lies before the first gap.
      have known : tape.cursor ≤ offset → offset < tape.cursor + tape.readable →
          offset ∈ tape.bytes.offsets := mem_of_lt_readable
      constructor
      · rintro (passed | ⟨waits, -⟩)
        · by_cases before : offset < tape.cursor
          · exact Or.inl before
          · exact Or.inr (known (Nat.not_lt.1 before) (by omega))
        · exact Or.inr waits
      · rintro (before | waits)
        · exact Or.inl (by omega)
        · by_cases passed : offset < tape.cursor + min count tape.readable
          · exact Or.inl passed
          · exact Or.inr ⟨waits, Nat.not_lt.1 passed⟩

/-- Reading stops at the first offset that no chunk covers. -/
theorem Played.isLeast (played : Played chunks handed tape) :
    IsLeast {offset | ¬Covered chunks offset} (tape.cursor + tape.readable) := by
  constructor
  · intro covered
    rcases (played.covered_iff _).2 covered with passed | waits
    · omega
    · exact tape.bytes.add_reach_notMem tape.cursor waits
  · intro offset missing
    by_contra less
    refine missing ((played.covered_iff offset).1 ?_)
    by_cases passed : offset < tape.cursor
    · exact Or.inl passed
    · exact Or.inr (mem_of_lt_readable (Nat.not_lt.1 passed) (Nat.not_le.1 less))

/-! ## One source -/

/-- Everything that went through a tape is of one source. -/
structure OfSource (source handed : Bytes) (tape : Tape) : Prop where
  handed_eq : handed = source.take tape.cursor
  cursor_le : tape.cursor ≤ source.length
  byteAt? : ∀ offset ∈ tape.bytes.offsets, tape.bytes.byteAt? offset = source[offset]?

theorem OfSource.lt_length {source : Bytes} (of : OfSource source handed tape) {offset : Nat}
    (known : offset ∈ tape.bytes.offsets) : offset < source.length := by
  by_contra beyond
  have missing := of.byteAt? offset known
  rw [List.getElem?_eq_none (Nat.not_lt.1 beyond), ← ByteMap.notMem_offsets] at missing
  exact missing known

theorem OfSource.front_eq {source : Bytes} (of : OfSource source handed tape) (count : Nat) :
    tape.front count = (source.drop tape.cursor).take (min count tape.readable) := by
  refine List.ext_getElem? fun index => ?_
  rw [getElem?_front, List.getElem?_take, List.getElem?_drop]
  by_cases short : index < min count tape.readable
  · rw [if_pos short, if_pos short]
    exact of.byteAt? _ (mem_of_lt_readable (Nat.le_add_right _ _) (by omega))
  · rw [if_neg short, if_neg short]

theorem OfSource.read {source : Bytes} (of : OfSource source handed tape) (count : Nat) :
    OfSource source (handed ++ tape.front count) (tape.read count) where
  handed_eq := by
    rw [of.front_eq, of.handed_eq, Tape.read, cursor_skip, List.take_add]
  cursor_le := by
    have reached := of.cursor_le
    rw [Tape.read, cursor_skip]
    by_cases nothing : min count tape.readable = 0
    · rwa [nothing, Nat.add_zero]
    · have last : tape.cursor + (min count tape.readable - 1) ∈ tape.bytes.offsets :=
        mem_of_lt_readable (by omega) (by omega)
      have := of.lt_length last
      omega
  byteAt? offset known := by
    obtain ⟨known, passed⟩ := mem_skip.1 known
    rw [Tape.read, byteAt?_skip, if_pos passed]
    exact of.byteAt? offset known

theorem OfSource.write {source : Bytes} (of : OfSource source handed tape) {chunk : Chunk}
    (cut : chunk.CutFrom source) :
    OfSource source handed (tape.write chunk.offset chunk.data) where
  handed_eq := of.handed_eq
  cursor_le := of.cursor_le
  byteAt? offset known := by
    show (if _ then _ else _) = _
    split
    · next within =>
        rw [cut.getElem? (by omega), Nat.add_sub_cancel' within.2.1]
    · next outside =>
        refine of.byteAt? offset ((mem_write.1 known).resolve_right fun inside => outside ?_)
        exact ⟨inside.2, inside.1⟩

/-- **Chunks of one source give back its beginning.** -/
theorem Played.ofSource {source : Bytes} (played : Played chunks handed tape)
    (cut : ∀ chunk ∈ chunks, chunk.CutFrom source) : OfSource source handed tape := by
  induction played with
  | fresh =>
      exact
        { handed_eq := rfl
          cursor_le := Nat.zero_le _
          byteAt? := fun offset known => absurd known (Finset.notMem_empty offset) }
  | write earlier chunk ih =>
      refine (ih fun other member => cut other ?_).write (cut chunk ?_)
      · exact List.mem_append_left _ member
      · exact List.mem_append_right _ (List.mem_singleton_self chunk)
  | read earlier count ih => exact (ih cut).read count

/-! ## Calls -/

theorem cursor_le_read (tape : Tape) (count : Nat) : tape.cursor ≤ (tape.read count).cursor :=
  Nat.le_add_right _ _

/-- No call moves the cursor back. -/
theorem cursor_le_follow (tape : Tape) (call : Buffer.Call) (answer : Answer) :
    tape.cursor ≤ (tape.follow call answer).cursor := by
  cases call with
  | request request =>
      cases request with
      | ingest offset data => cases answer <;> exact Nat.le_refl _
      | read count => exact tape.cursor_le_read count
      | take count => exact tape.cursor_le_read count
      | stats => exact Nat.le_refl _
  | ingestSigned offset data => cases answer <;> exact Nat.le_refl _
  | drain count => exact tape.cursor_le_read _
  | limits => exact Nat.le_refl _
  | covers offset => exact Nat.le_refl _

theorem cursor_le_after (tape : Tape) (calls : List Buffer.Call) (answers : List Answer) :
    tape.cursor ≤ (tape.after calls answers).cursor := by
  induction calls generalizing tape answers with
  | nil => exact Nat.le_refl _
  | cons call calls ih =>
      cases answers with
      | nil => exact Nat.le_refl _
      | cons answer answers => exact Nat.le_trans (tape.cursor_le_follow call answer) (ih _ _)

end Tape

/-- The chunk that a call brings. -/
def Buffer.Call.chunk? : Buffer.Call → Option Chunk
  | .request (.ingest offset data) => some (.ofData offset data)
  | .ingestSigned offset data => some (.ofData offset.toNat data)
  | _ => none

/-- The chunk that a call brought in, if it was accepted. -/
def Buffer.Call.accepted? (call : Buffer.Call) : Answer → Option Chunk
  | .ok _ => call.chunk?
  | .error _ => none

/-- The chunks that a run of calls brought in. -/
def acceptedChunks : List Buffer.Call → List Answer → List Chunk
  | call :: calls, answer :: answers =>
      (call.accepted? answer).toList ++ acceptedChunks calls answers
  | _, _ => []

/-- The bytes that an answer hands out. -/
def handedBy : Answer → Bytes
  | .ok (.filled data) => data
  | .ok (.taken data) => data
  | .ok (.drained pieces) => pieces.flatten
  | _ => []

/-- The bytes that a run of calls handed out. -/
def handedOut (answers : List Answer) : Bytes := answers.flatMap handedBy

theorem Buffer.Call.accepted?_of_none {call : Buffer.Call} (brings : call.chunk? = none)
    (answer : Answer) : call.accepted? answer = none := by
  cases answer with
  | ok _ => exact brings
  | error _ => rfl

namespace Buffer

variable {buffer : Buffer} {chunks : List Chunk} {handed : Bytes}

/-- A chunk that was offered has been written if it was accepted. -/
theorem played_offered {tape : Tape} (earlier : Tape.Played chunks handed tape) {call : Call}
    {offset : Nat} {data : Bytes} (brings : call.chunk? = some (.ofData offset data))
    (result : Except Refusal Unit) :
    let answer : Answer := result.map fun _ => .done
    Tape.Played (chunks ++ (call.accepted? answer).toList) (handed ++ handedBy answer)
      (tape.offered offset data answer) := by
  cases result with
  | ok _ =>
      have accepted : call.accepted? (.ok .done) = some (.ofData offset data) := brings
      have played := earlier.write (.ofData offset data)
      rw [Chunk.data_ofData] at played
      show Tape.Played (chunks ++ (call.accepted? (.ok .done)).toList) (handed ++ []) _
      rw [accepted, List.append_nil]
      exact played
  | error refusal =>
      show Tape.Played (chunks ++ []) (handed ++ []) tape
      rw [List.append_nil, List.append_nil]
      exact earlier

theorem HandsOut.played {count : Nat} {after : Buffer} {data : Bytes}
    (handsOut : HandsOut buffer count after data)
    (earlier : Tape.Played chunks handed buffer.tape) :
    Tape.Played chunks (handed ++ data) after.tape := by
  rw [handsOut.tape, handsOut.data]
  exact earlier.read count

/-- A call that brings no chunk hands out the front of the tape, or nothing. -/
theorem HandsOut.played_call {count : Nat} {after : Buffer} {answer : Answer}
    (handsOut : HandsOut buffer count after (handedBy answer))
    (earlier : Tape.Played chunks handed buffer.tape) {call : Call}
    (brings : call.chunk? = none) :
    Tape.Played (chunks ++ (call.accepted? answer).toList) (handed ++ handedBy answer)
      after.tape := by
  rw [call.accepted?_of_none brings]
  show Tape.Played (chunks ++ []) _ _
  rw [List.append_nil]
  exact handsOut.played earlier

/-- **A call plays the tape**, with the chunk it brings in and the bytes it hands out. -/
theorem Sound.played_perform (sound : buffer.Sound)
    (earlier : Tape.Played chunks handed buffer.tape) (call : Call) :
    Tape.Played (chunks ++ (call.accepted? (buffer.perform call).result).toList)
      (handed ++ handedBy (buffer.perform call).result) (buffer.perform call).state.tape := by
  have idle := sound.handsOut_nothing (Nat.zero_min _)
  cases call with
  | request request =>
      cases request with
      | ingest offset data =>
          rw [(sound.perform _).tape]
          exact played_offered earlier rfl (buffer.ingest offset data).result
      | read count => exact (sound.read count).played_call earlier rfl
      | take count => exact (sound.take count).played_call earlier rfl
      | stats => exact idle.played_call earlier rfl
  | ingestSigned offset data =>
      rw [(sound.perform _).tape]
      exact played_offered earlier rfl (buffer.ingestSigned offset data).result
  | drain count => exact (sound.drain count).played_call earlier rfl
  | limits => exact idle.played_call earlier rfl
  | covers offset => exact idle.played_call earlier rfl

/-- **A run of calls plays the tape.** -/
theorem Sound.played_run (sound : buffer.Sound)
    (earlier : Tape.Played chunks handed buffer.tape) (calls : List Call) :
    Tape.Played (chunks ++ acceptedChunks calls (buffer.run calls).result)
      (handed ++ handedOut (buffer.run calls).result) (buffer.run calls).state.tape := by
  induction calls generalizing buffer chunks handed with
  | nil =>
      show Tape.Played (chunks ++ []) (handed ++ []) buffer.tape
      rw [List.append_nil, List.append_nil]
      exact earlier
  | cons call calls ih =>
      have first := sound.played_perform earlier call
      have rest := ih (sound.perform call).sound first
      rw [List.append_assoc, List.append_assoc] at rest
      exact rest

theorem played_fresh (limits : Limits) : Tape.Played [] [] (fresh limits).tape := by
  rw [tape_fresh]
  exact .fresh

/-- The bytes that wait in a buffer are those of the source that its tape is of. -/
theorem Sound.segments_ofSource (sound : buffer.Sound) {source : Bytes}
    (of : Tape.OfSource source handed buffer.tape) {segment : Segment}
    (member : segment ∈ buffer.store.segments) : segment.data <+: source.drop segment.start := by
  refine List.prefix_iff_getElem?.2 fun index inside => ?_
  have stop := segment.stop_eq
  have inStore := Store.byteAt?_of_mem sound.store.separated member
    (Nat.le_add_right segment.start index) (by omega)
  have inSource := of.byteAt? (segment.start + index)
    (Store.mem_bytes.2 ⟨segment, member, Nat.le_add_right _ _, by omega⟩)
  have inSegment : segment.byteAt? (segment.start + index) = segment.data[index]? := by
    unfold Segment.byteAt?
    rw [if_pos (Nat.le_add_right _ _), Nat.add_sub_cancel_left]
  rw [List.getElem?_drop, ← inSource]
  refine inStore.trans ?_
  rw [inSegment, List.getElem?_eq_getElem inside]

/-- **Nothing is lost, handed out twice or handed out past a gap**, however chunks and
reads are interleaved. -/
theorem run_history (limits : Limits) (calls more : List Call) :
    let done := (fresh limits).run calls
    let chunks := acceptedChunks calls done.result
    (∀ offset,
        offset < done.state.cursor ∨ offset ∈ Store.offsetsOf done.state.store.segments ↔
          Covered chunks offset) ∧
      IsLeast {offset | ¬Covered chunks offset} (done.state.cursor + done.state.readable) ∧
      done.state.cursor ≤ ((fresh limits).run (calls ++ more)).state.cursor ∧
      ∀ source : Bytes, (∀ chunk ∈ chunks, chunk.CutFrom source) →
        handedOut done.result = source.take done.state.cursor ∧
          done.state.cursor ≤ source.length ∧
          ∀ segment ∈ done.state.store.segments, segment.data <+: source.drop segment.start := by
  intro done chunks
  have sound : done.state.Sound := (follows_fresh limits calls).sound
  have played := (sound_fresh limits).played_run (played_fresh limits) calls
  rw [List.nil_append, List.nil_append] at played
  refine ⟨played.covered_iff, ?_, ?_, fun source cut => ?_⟩
  · rw [sound.readable_eq]
    exact played.isLeast
  · have further := (sound.run more).tape
    rw [run_append]
    show done.state.tape.cursor ≤ (done.state.run more).state.tape.cursor
    rw [further]
    exact Tape.cursor_le_after _ _ _
  · have of := played.ofSource cut
    exact ⟨of.handed_eq, of.cursor_le, fun segment member => sound.segments_ofSource of member⟩

/-- A chunk that overlaps both its neighbours, one that comes late and one that there is no
room for: what can be read is the source up to the gap. -/
theorem run_history_overlapping :
    let limits : Limits := { bytes := some 4 }
    let calls : List Call :=
      [.request (.ingest 3 [4, 5]), .request (.ingest 0 [1, 2]), .request (.ingest 6 [7]),
        .request (.read 1), .ingestSigned 1 [2, 3, 4], .ingestSigned 0 [1], .drain 3]
    let done := (fresh limits).run calls
    (∀ chunk ∈ acceptedChunks calls done.result, chunk.CutFrom [1, 2, 3, 4, 5, 6, 7]) ∧
      done.state.cursor = 5 ∧ handedOut done.result = [1, 2, 3, 4, 5] ∧
      ¬Covered (acceptedChunks calls done.result) 5 := by
  intro limits calls done
  have cut : ∀ chunk ∈ acceptedChunks calls done.result,
      chunk.CutFrom [1, 2, 3, 4, 5, 6, 7] := by decide
  have cursor : done.state.cursor = 5 := by decide
  have readable : done.state.readable = 0 := by decide
  obtain ⟨-, least, -, source⟩ := run_history limits calls []
  obtain ⟨handed, -, -⟩ := source _ cut
  have missing := least.1
  refine ⟨cut, cursor, ?_, ?_⟩
  · rw [handed]
    show List.take done.state.cursor _ = _
    rw [cursor]
    rfl
  · have gap : done.state.cursor + done.state.readable = 5 := by rw [cursor, readable]
    exact gap ▸ missing

end Buffer

end Gapless
