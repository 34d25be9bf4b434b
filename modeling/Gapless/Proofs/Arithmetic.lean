/-
# Gapless.Proofs.Arithmetic -- no number of a buffer goes out of range

The operations in `Gapless.Checked` go on here with what is done to a buffer: chunks are taken in,
bytes are read and the counters are asked for.  Because a buffer in use is sound, each comes to
what it comes to without checks (`Checked.ingest_eq`, `Checked.read_eq`, `Checked.take_eq`), and so
does every call (`Checked.perform_eq`).  It is the cursor and the segments together that keep a
position within the offsets, and the plan and the total that keep the counts of an insertion
from going below zero.

So no run of calls on a fresh buffer meets a fault (`Checked.run_exact`), wherever its chunks lie:
one may end right at the last offset.  Only that no stored segment is longer than what fits into
memory in one piece has to be known (`Checked.Roomy`).
-/
import Gapless.Proofs.Calls
import Gapless.Proofs.Checking

namespace Gapless

set_option autoImplicit false

namespace Checked

/-! ## Chunks -/

/-- Merge a segment that lies at or above the cursor, as far as the limits allow. -/
def accept (buffer : Buffer) (incoming : Segment) :
    Option (Step Buffer (Except Refusal MergeOutcome)) := do
  let (merge, absorbedBytes) ← planMerge buffer.store incoming
  let length ← sub merge.stop merge.start
  let others ← sub buffer.store.held absorbedBytes
  let bytes ← add others length
  let apart ← sub buffer.store.count merge.absorbed.length
  let segments ← add apart 1
  match buffer.limits.check bytes segments with
  | .error refusal => some ⟨buffer, .error refusal, []⟩
  | .ok () => do
      let step ← apply buffer.store merge absorbedBytes incoming
      some ((step.map .ok).lift ({ buffer with store := · }))

/-- Count the bytes that were clipped as overlap. -/
def clipped (count : Nat) : Except Refusal MergeOutcome → Option (Except Refusal MergeOutcome)
  | .error refusal => some (.error refusal)
  | .ok outcome => do
      let overlap ← add outcome.overlap count
      some (.ok { outcome with overlap })

def place (buffer : Buffer) (offset : Nat) (data : Bytes) :
    Option (Step Buffer (Except Refusal MergeOutcome)) :=
  match Segment.at? offset data with
  | .error fault => some ⟨buffer, .error (.invalidArgument fault), []⟩
  | .ok segment => do
      match ← clipBelow segment buffer.cursor with
      | none => some ⟨buffer, .ok { absorbed := 0, overlap := segment.data.length, added := 0 }, []⟩
      | some incoming => do
          let count ← sub segment.data.length incoming.data.length
          let step ← accept buffer incoming
          let result ← clipped count step.result
          some ⟨step.state, result, step.events⟩

def ingest (buffer : Buffer) (offset : Nat) (data : Bytes) :
    Option (Step Buffer (Except Refusal Unit)) :=
  if data.length = 0 then some ⟨buffer, .ok (), []⟩
  else do
    let placed ← place buffer offset data
    some ((placed.map (·.map fun _ => ())).reporting
      (Buffer.placementEvents offset data.length placed.result))

def ingestSigned (buffer : Buffer) (offset : Int) (data : Bytes) :
    Option (Step Buffer (Except Refusal Unit)) :=
  match Offset.ofInt? offset with
  | .error fault => some ⟨buffer, .error (.invalidArgument fault), []⟩
  | .ok offset => ingest buffer offset data

/-- No segment that is stored needs more room than there is in one piece. -/
def Roomy (buffer : Buffer) : Prop :=
  ∀ segment ∈ buffer.store.segments, segment.data.length ≤ maxLength

instance (buffer : Buffer) : Decidable (Roomy buffer) :=
  inferInstanceAs (Decidable (∀ segment ∈ buffer.store.segments, _))

section Ingest

variable {buffer : Buffer} (sound : buffer.Sound)

include sound

/-- **A segment is merged without a fault**, or refused without one. -/
theorem accept_eq {incoming : Segment} (bounded : incoming.stop ≤ maxOffset)
    (nonempty : incoming.start < incoming.stop) (roomy : Roomy (buffer.accept incoming).state) :
    accept buffer incoming = some (buffer.accept incoming) := by
  have separated := sound.store.separated
  have spans := Store.planMerge_spans separated incoming
  have foretold := Store.foretells_planMerge separated incoming sound.store.counted
  have inserted := sound.store.insert bounded
  have room := held_le inserted
  have few := count_le_held inserted (Store.full_insert separated sound.full nonempty)
  have span : (buffer.store.planMerge incoming).length =
    (buffer.store.planMerge incoming).stop - (buffer.store.planMerge incoming).start := rfl
  obtain ⟨part, held⟩ := foretold.held
  obtain ⟨among, count⟩ := foretold.count
  have bytes : buffer.store.held - (buffer.store.planMerge incoming).absorbedBytes +
      ((buffer.store.planMerge incoming).stop - (buffer.store.planMerge incoming).start) ≤
      maxOffset := by omega
  have segments : buffer.store.count - (buffer.store.planMerge incoming).absorbed.length + 1 ≤
      maxOffset := by omega
  simp only [accept, planMerge_eq sound.store bounded, sub_eq spans.ordered, sub_eq part,
    add_eq bytes, sub_eq among, add_eq segments, Option.bind_eq_bind, Option.bind_some]
  rw [← span, ← held, ← count]
  have plain := Buffer.accept_eq separated incoming
  cases verdict : buffer.limits.check (buffer.store.insert incoming).state.held
      (buffer.store.insert incoming).state.count with
  | error refusal =>
      rw [verdict] at plain
      rw [plain]
  | ok _ =>
      rw [verdict] at plain
      rw [plain] at roomy ⊢
      obtain ⟨merged, member, -, -, length⟩ := foretold.merged
      have small : (buffer.store.planMerge incoming).length ≤ maxLength :=
        length ▸ roomy merged member
      dsimp only
      rw [apply_eq sound.store bounded small]
      rfl

/-- What is told as overlap of a segment is part of it. -/
theorem overlap_le {incoming : Segment} {outcome : MergeOutcome}
    (accepted : (buffer.accept incoming).result = .ok outcome) :
    outcome.overlap ≤ incoming.length := by
  have foretold := Store.foretells_planMerge sound.store.separated incoming sound.store.counted
  have whole := foretold.whole
  rw [Buffer.accept_eq sound.store.separated] at accepted
  cases verdict : buffer.limits.check (buffer.store.insert incoming).state.held
      (buffer.store.insert incoming).state.count with
  | error refusal =>
      rw [verdict] at accepted
      cases accepted
  | ok _ =>
      rw [verdict] at accepted
      cases accepted
      omega

theorem clipped_eq {incoming : Segment} {count : Nat} (fits : incoming.length + count ≤ maxOffset) :
    clipped count (buffer.accept incoming).result =
      some ((buffer.accept incoming).result.map fun outcome =>
        { outcome with overlap := outcome.overlap + count }) := by
  cases accepted : (buffer.accept incoming).result with
  | error refusal => rfl
  | ok outcome =>
      have within := overlap_le sound accepted
      have word : outcome.overlap + count ≤ maxOffset := by omega
      simp [clipped, add_eq word, Except.map]

variable {offset : Nat} {data : Bytes}

theorem place_eq (nonempty : data ≠ []) (roomy : Roomy (buffer.place (.ofData offset data)).state) :
    place buffer offset data = some (buffer.place (.ofData offset data)) := by
  rcases Nat.lt_or_ge maxOffset (offset + data.length) with beyond | fits
  · have nowhere : Segment.at? offset data = .error (.rangeOverflow offset data.length) := by
      simp [Segment.at?, Offset.advance?, Nat.not_le.2 beyond]
    rw [place, nowhere, Buffer.place_overflow beyond]
  · have known : Segment.at? offset data = .ok { start := offset, data } :=
      Segment.at?_eq_ok_iff.2 ⟨rfl, fits⟩
    have stays : ({ start := offset, data } : Segment).stop ≤ maxOffset := fits
    have clips := clipBelow_eq stays buffer.cursor
    simp only [place, known, clips, Option.bind_eq_bind, Option.bind_some]
    rcases Nat.lt_or_ge buffer.cursor (offset + data.length) with news | passed
    · have start : (buffer.arriving offset data).start = max offset buffer.cursor := rfl
      have stop := Buffer.stop_arriving news
      have length := (buffer.arriving offset data).length_eq
      have positive := List.length_pos_iff.2 nonempty
      have brings : (buffer.arriving offset data).start < (buffer.arriving offset data).stop := by
        omega
      have part : (buffer.arriving offset data).data.length = data.length - (buffer.cursor - offset)
        := List.length_drop
      have count : data.length - (buffer.arriving offset data).data.length =
        buffer.cursor - offset := by omega
      have within : (buffer.arriving offset data).data.length ≤ data.length := by omega
      have room : (buffer.arriving offset data).length + (buffer.cursor - offset) ≤ maxOffset := by
        omega
      rw [Buffer.place_news fits news] at roomy ⊢
      have accepted := accept_eq sound (stop ▸ fits) brings roomy
      simp only [Buffer.clipBelow_arriving news, sub_eq within, count, accepted,
        clipped_eq sound room, Option.bind_some]
      rfl
    · have gone : ({ start := offset, data } : Segment).clipBelow buffer.cursor = none :=
        dif_pos passed
      rw [gone, Buffer.place_late fits passed]

/-- **A chunk is taken in without a fault**, or refused without one. -/
theorem ingest_eq (roomy : Roomy (buffer.ingest offset data).state) :
    ingest buffer offset data = some (buffer.ingest offset data) := by
  have length : (Chunk.ofData offset data).length = data.length := rfl
  rw [Buffer.ingest, Buffer.ingestChunk, length] at roomy ⊢
  rw [ingest]
  split
  · rfl
  · next full =>
      have nonempty : data ≠ [] := by
        rintro rfl
        exact full rfl
      rw [if_neg full] at roomy
      rw [place_eq sound nonempty roomy]
      rfl

theorem ingestSigned_eq {offset : Int} (roomy : Roomy (buffer.ingestSigned offset data).state) :
    ingestSigned buffer offset data = some (buffer.ingestSigned offset data) := by
  rw [Buffer.ingestSigned] at roomy ⊢
  rw [ingestSigned]
  cases known : Offset.ofInt? offset with
  | error fault => rfl
  | ok offset =>
      rw [known] at roomy
      exact ingest_eq sound roomy

end Ingest

/-! ## Reads -/

/-- Add the bytes from the cursor on, over the segments of a run. -/
def total (cursor readable : Nat) : List Segment → Option Nat
  | [] => some readable
  | segment :: rest => do
      let bytes ← bytesFrom segment (max cursor segment.start)
      let readable ← add readable bytes.length
      total cursor readable rest

def readable (buffer : Buffer) : Option Nat := do
  let run ← scanFrom buffer.store buffer.cursor
  total buffer.cursor 0 run

def stats (buffer : Buffer) : Option Stats := do
  let readable ← readable buffer
  let store := buffer.store
  some { cursor := buffer.cursor, held := store.held, segments := store.count, readable }

/-- Put bytes behind the first ones of a destination, which must have room for them. -/
def fill (count : Nat) (filled bytes : Bytes) : Option Bytes := do
  let copied ← add filled.length bytes.length
  if copied ≤ count then some (filled ++ bytes) else none

/-- Fill a destination of `count` bytes, segment by segment, until it is full.  The values are
the position that the stream is read to by then and the bytes in the destination. -/
def gather (count position : Nat) (filled : Bytes) : List Segment → Option (Nat × Bytes)
  | [] => some (position, filled)
  | segment :: rest => do
      let source ← bytesFrom segment (max position segment.start)
      let room ← sub count filled.length
      let bytes ← cut source 0 (min source.length room)
      let filled ← fill count filled bytes
      let position ← add position bytes.length
      if filled.length = count then some (position, filled) else gather count position filled rest

/-- Move the cursor to the position behind the bytes that are handed out. -/
def deliver (buffer : Buffer) (position : Nat) (data : Bytes) : Option (Step Buffer Bytes) :=
  if data.length = 0 then some ⟨buffer, data, []⟩
  else do
    let store ← trimBelow buffer.store position
    some ⟨{ buffer with store, cursor := position }, data, [.delivered data.length]⟩

def read (buffer : Buffer) (count : Nat) : Option (Step Buffer Bytes) :=
  if count = 0 then some ⟨buffer, [], []⟩
  else do
    let run ← scanFrom buffer.store buffer.cursor
    let (position, data) ← gather count buffer.cursor [] run
    deliver buffer position data

/-- The bytes cut out of the segment at the cursor. -/
def shared (buffer : Buffer) (count : Nat) : Option (Option Bytes) := do
  match ← covering buffer.store buffer.cursor with
  | none => some none
  | some segment => slice segment buffer.cursor count

def take (buffer : Buffer) (count : Nat) : Option (Step Buffer Bytes) := do
  let readable ← readable buffer
  let wanted := min count readable
  if wanted = 0 then some ⟨buffer, [], []⟩
  else do
    match ← shared buffer wanted with
    | none => read buffer wanted
    | some data => do
        let position ← add buffer.cursor wanted
        deliver buffer position data

theorem cut_front (bytes : Bytes) (count : Nat) :
    cut bytes 0 (min bytes.length count) = some (bytes.take count) := by
  rw [cut_eq (Nat.zero_le _) (Nat.min_le_left _ _)]
  simp [Nat.min_comm, ← List.take_eq_take_min]

theorem fill_nil {count : Nat} {bytes : Bytes} (room : bytes.length ≤ count)
    (word : bytes.length ≤ maxOffset) : fill count [] bytes = some bytes := by
  simp [fill, add, room, word]

theorem length_bytesFrom {segment : Segment} {offset : Nat} (reached : segment.start ≤ offset) :
    (segment.bytesFrom offset).length = segment.stop - offset := by
  have whole := segment.stop_eq
  rw [Segment.bytesFrom, List.length_drop]
  omega

section Reads

variable {buffer : Buffer} (sound : buffer.Sound)

include sound

/-- A run is at most one segment, which ends at an offset. -/
theorem covering_cases : buffer.store.covering? buffer.cursor = none ∨
    ∃ segment, buffer.store.covering? buffer.cursor = some segment ∧
      segment.stop ≤ maxOffset ∧ segment.start ≤ buffer.cursor ∧ buffer.cursor ≤ segment.stop := by
  cases found : buffer.store.covering? buffer.cursor with
  | none => exact Or.inl rfl
  | some segment =>
      obtain ⟨member, reached, short⟩ :=
        (Store.covering?_eq_some_iff sound.store.separated).1 found
      exact Or.inr ⟨segment, rfl, sound.store.bounded segment member, reached, Nat.le_of_lt short⟩

theorem readable_eq : readable buffer = some buffer.readable := by
  rw [readable, scanFrom_eq sound.store, Buffer.readable, Store.runFrom_eq sound.store.separated]
  rcases covering_cases sound with nothing | ⟨segment, found, bounded, reached, within⟩
  · rw [nothing]
    rfl
  · have length := length_bytesFrom reached
    have top : max buffer.cursor segment.start = buffer.cursor := Nat.max_eq_left reached
    have word : add 0 (segment.stop - buffer.cursor) = some (0 + (segment.stop - buffer.cursor)) :=
      add_eq (by omega)
    simp [found, total, top, bytesFrom_eq bounded reached within, length, word, totalOf]

theorem stats_eq : stats buffer = some buffer.stats := by
  rw [stats, readable_eq sound]
  rfl

/-- **The position of a read is that of the byte behind those it found.** -/
theorem gather_eq (count : Nat) :
    gather count buffer.cursor [] (buffer.store.covering? buffer.cursor).toList =
      let data := Buffer.gather buffer.cursor count (buffer.store.runFrom buffer.cursor)
      some (buffer.cursor + data.length, data) := by
  rw [Store.runFrom_eq sound.store.separated]
  rcases covering_cases sound with nothing | ⟨segment, found, bounded, reached, within⟩
  · rw [nothing]
    rfl
  · have length := length_bytesFrom reached
    have top : max buffer.cursor segment.start = buffer.cursor := Nat.max_eq_left reached
    have few : ((segment.bytesFrom buffer.cursor).take count).length ≤ count :=
      List.length_take_le _ _
    have short : ((segment.bytesFrom buffer.cursor).take count).length ≤
        segment.stop - buffer.cursor := by
      rw [List.length_take]
      omega
    have position : buffer.cursor + ((segment.bytesFrom buffer.cursor).take count).length ≤
        maxOffset := by omega
    simp only [found, Option.toList_some, gather, top, bytesFrom_eq bounded reached within,
      List.length_nil, sub_eq (Nat.zero_le count), Nat.sub_zero, cut_front,
      fill_nil few (by omega), add_eq position, Option.bind_eq_bind, Option.bind_some, ite_self,
      Buffer.gather, List.append_nil]

theorem deliver_eq (data : Bytes) :
    deliver buffer (buffer.cursor + data.length) data = some (buffer.deliver data) := by
  rw [deliver, Buffer.deliver, Buffer.advance]
  split
  · rfl
  · rw [trimBelow_eq sound.store]
    rfl

theorem read_eq (count : Nat) : read buffer count = some (buffer.read count) := by
  rw [read, Buffer.read]
  split
  · rfl
  · simp only [scanFrom_eq sound.store, gather_eq sound, deliver_eq sound, Option.bind_eq_bind,
      Option.bind_some]

theorem shared_eq {count : Nat} : shared buffer count = some (buffer.slice? count) := by
  simp only [shared, covering_eq sound.store, Buffer.slice?, Option.bind_eq_bind, Option.bind_some]
  rcases covering_cases sound with nothing | ⟨segment, found, bounded, reached, within⟩
  · simp [nothing]
  · simp [found, slice_eq bounded reached within]

/-- **Both ways to read go without a fault**, with the cursor at the last offset too. -/
theorem take_eq (count : Nat) : take buffer count = some (buffer.take count) := by
  simp only [take, Buffer.take, readable_eq sound, shared_eq sound, Option.bind_eq_bind,
    Option.bind_some]
  split
  · rfl
  · next wanted =>
      have delivered := deliver_eq sound (buffer.tape.front count)
      have length := buffer.tape.length_front count
      rw [sound.readable_eq] at wanted ⊢
      rw [sound.slice?_eq (by omega) count]
      rw [← length] at wanted ⊢
      have word : buffer.cursor + (buffer.tape.front count).length ≤ maxOffset := by
        have after := (sound.handsOut_deliver count).sound.cursor_le
        rwa [Buffer.deliver, Buffer.advance, if_neg wanted] at after
      simp only [add_eq word, Option.bind_some, delivered]

end Reads

/-! ## Calls -/

/-- Go on from where a step ended. -/
def andThen {α β : Type} (first : Option (Step Buffer α))
    (next : Buffer → α → Option (Step Buffer β)) : Option (Step Buffer β) := do
  let first ← first
  let second ← next first.state first.result
  some ⟨second.state, second.result, first.events ++ second.events⟩

def drainRounds (count : Nat) : Nat → Buffer → Option (Step Buffer (List Bytes))
  | 0, buffer => some ⟨buffer, [], []⟩
  | rounds + 1, buffer =>
      andThen (read buffer count) fun buffer data =>
        if data.isEmpty then some ⟨buffer, [], []⟩
        else (drainRounds count rounds buffer).map (·.map (data :: ·))

def drain (buffer : Buffer) (count : Nat) : Option (Step Buffer (List Bytes)) := do
  let rounds ← readable buffer
  drainRounds count rounds buffer

def covers (segment : Segment) (offset : Nat) : Option Bool := do
  let stop ← stop segment
  some (segment.start ≤ offset ∧ offset < stop)

def answer (buffer : Buffer) : Request → Option (Step Buffer Answer)
  | .ingest offset data => (ingest buffer offset data).map (·.map (·.map fun _ => .done))
  | .read count => (read buffer count).map (·.map (.ok ∘ .filled))
  | .take count => (take buffer count).map (·.map (.ok ∘ .taken))
  | .stats => (stats buffer).map fun stats => ⟨buffer, .ok (.stats stats), []⟩

def perform (buffer : Buffer) : Buffer.Call → Option (Step Buffer Answer)
  | .request request => answer buffer request
  | .ingestSigned offset data =>
      (ingestSigned buffer offset data).map (·.map (·.map fun _ => .done))
  | .drain count => (drain buffer count).map (·.map (.ok ∘ .drained))
  | .limits => some ⟨buffer, .ok (.limits buffer.limits), []⟩
  | .covers offset =>
      (buffer.store.segments.mapM (covers · offset)).map fun flags =>
        ⟨buffer, .ok (.covered flags), []⟩

def run (buffer : Buffer) : List Buffer.Call → Option (Step Buffer (List Answer))
  | [] => some ⟨buffer, [], []⟩
  | call :: calls =>
      andThen (perform buffer call) fun buffer answer =>
        (run buffer calls).map (·.map (answer :: ·))

theorem andThen_eq {α β : Type} {checked : Option (Step Buffer α)} {first : Step Buffer α}
    {next : Buffer → α → Option (Step Buffer β)} {plain : Buffer → α → Step Buffer β}
    (start : checked = some first)
    (further : next first.state first.result = some (plain first.state first.result)) :
    andThen checked next = some (first.andThen plain) := by
  rw [andThen, start]
  show (do
    let second ← next first.state first.result
    some (⟨second.state, second.result, first.events ++ second.events⟩ : Step Buffer β)) = _
  rw [further]
  rfl

theorem drainRounds_eq {buffer : Buffer} (sound : buffer.Sound) (count rounds : Nat) :
    drainRounds count rounds buffer = some (buffer.drainRounds count rounds) := by
  induction rounds generalizing buffer with
  | zero => rfl
  | succ rounds ih =>
      rw [drainRounds, Buffer.drainRounds]
      apply andThen_eq (read_eq sound count)
      split
      · rfl
      · rw [ih (sound.read count).sound]
        rfl

section Calls

variable {buffer : Buffer} (sound : buffer.Sound)

include sound

theorem drain_eq (count : Nat) : drain buffer count = some (buffer.drain count) := by
  rw [drain, readable_eq sound]
  exact drainRounds_eq sound count _

theorem covers_eq (offset : Nat) : buffer.store.segments.mapM (covers · offset) =
    some (buffer.store.segments.map (·.covers offset)) := by
  have bounded := sound.store.bounded
  generalize buffer.store.segments = segments at bounded
  induction segments with
  | nil => rfl
  | cons segment rest ih =>
      obtain ⟨first, others⟩ := List.forall_mem_cons.1 bounded
      have one : covers segment offset = some (segment.covers offset) := by
        rw [covers, stop_eq first]
        rfl
      rw [List.mapM_cons, one, ih others]
      rfl

/-- **A call is answered without a fault.** -/
theorem perform_eq (call : Buffer.Call) (roomy : Roomy (buffer.perform call).state) :
    perform buffer call = some (buffer.perform call) := by
  cases call with
  | request request =>
      cases request with
      | ingest offset data =>
          have taken := ingest_eq sound roomy
          rw [perform, answer, taken]
          rfl
      | read count => simp [perform, answer, read_eq sound, Buffer.perform, Buffer.answer]
      | take count => simp [perform, answer, take_eq sound, Buffer.perform, Buffer.answer]
      | stats => simp [perform, answer, stats_eq sound, Buffer.perform, Buffer.answer]
  | ingestSigned offset data =>
      have taken := ingestSigned_eq sound roomy
      rw [perform, taken]
      rfl
  | drain count => simp [perform, drain_eq sound, Buffer.perform]
  | limits => rfl
  | covers offset => simp [perform, covers_eq sound, Buffer.perform]

theorem run_eq (calls : List Buffer.Call)
    (roomy : ∀ before ∈ calls.inits, Roomy (buffer.run before).state) :
    run buffer calls = some (buffer.run calls) := by
  induction calls generalizing buffer with
  | nil => rfl
  | cons call calls ih =>
      have first : Roomy (buffer.perform call).state := roomy [call] (by simp)
      have rest := ih (sound.perform call).sound fun before known =>
        roomy (call :: before) (by simpa using known)
      rw [run, Buffer.run_cons]
      apply andThen_eq (perform_eq sound call first)
      rw [rest]
      rfl

end Calls

/-- What a buffer holds and counts is told in words. -/
structure InWords (buffer : Buffer) : Prop where
  segments : ∀ segment ∈ buffer.store.segments, segment.start + segment.data.length ≤ maxOffset
  cursor : buffer.cursor ≤ maxOffset
  held : buffer.store.held ≤ maxOffset
  count : buffer.store.count ≤ maxOffset
  readable : buffer.cursor + buffer.readable ≤ maxOffset

theorem inWords {buffer : Buffer} (sound : buffer.Sound) : InWords buffer where
  segments segment member := by
    have bounded := sound.store.bounded segment member
    rwa [segment.stop_eq] at bounded
  cursor := sound.cursor_le
  held := held_le sound.store
  count := Nat.le_trans (count_le_held sound.store sound.full) (held_le sound.store)
  readable := by
    have cursor := sound.cursor_le
    rw [Buffer.readable, Store.runFrom_eq sound.store.separated]
    rcases covering_cases sound with nothing | ⟨segment, found, bounded, reached, within⟩
    · simpa [nothing, totalOf] using cursor
    · simp [found, totalOf, Nat.max_eq_left reached]
      omega

/-- **No number goes out of range.**  A run of calls on a fresh buffer, with a check at each sum,
each difference and each part of some bytes, meets no fault and comes to what it comes to without
the checks, provided that no segment on the way needs more room than there is in one piece. -/
theorem run_exact (limits : Limits) (calls : List Buffer.Call)
    (roomy : ∀ before ∈ calls.inits, Roomy ((Buffer.fresh limits).run before).state) :
    run (Buffer.fresh limits) calls = some ((Buffer.fresh limits).run calls) ∧
      InWords ((Buffer.fresh limits).run calls).state := by
  have sound := Buffer.sound_fresh limits
  exact ⟨run_eq sound calls roomy, inWords (sound.run calls).sound⟩

/-- Chunks at the last offset: one without bytes, one too long, one that fits and one between two
others. -/
theorem run_exact_edge :
    let calls : List Buffer.Call :=
      [.request (.ingest 18446744073709551615 []),
        .request (.ingest 18446744073709551614 [1, 2, 3]),
        .request (.ingest 18446744073709551611 [1, 2, 3, 4]),
        .request (.ingest 18446744073709551605 [5, 6, 7]),
        .request (.ingest 18446744073709551607 [8, 9, 10, 11, 12]),
        .request (.ingest 0 [13, 14]), .request (.read 1), .request (.take 3), .request .stats]
    (∀ before ∈ calls.inits, Roomy ((Buffer.fresh {}).run before).state) ∧
    run (Buffer.fresh {}) calls = some ((Buffer.fresh {}).run calls) ∧
      InWords ((Buffer.fresh {}).run calls).state := by
  intro calls
  have roomy : ∀ before ∈ calls.inits, Roomy ((Buffer.fresh {}).run before).state := by decide
  exact ⟨roomy, run_exact {} calls roomy⟩

end Checked

end Gapless
