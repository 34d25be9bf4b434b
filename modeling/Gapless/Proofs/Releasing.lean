/-
# Gapless.Proofs.Releasing -- a read lets go of what it returns and of nothing else

Nothing waits below the cursor and segments have gaps between them.  So only the first segment
can be readable, and it begins right at the cursor (`Buffer.Sound.segments_of_readable`).
A read returns the front of it, and afterwards the segment is gone or begins at the new cursor.
All others stay as they are (`Buffer.Released`).

Both ways to read do this.  `Buffer.take` always finds its bytes in the one segment, so it
never gathers.
-/
import Gapless.Metrics
import Gapless.Proofs.Calls

namespace Gapless

set_option autoImplicit false

namespace Store

/-- A trim that goes past the first start and no further than the first end cuts that segment
and leaves the others. -/
theorem segments_trimBelow_cons {store : Store} (separated : Separated store.segments)
    {first : Segment} {rest : List Segment} (listed : store.segments = first :: rest)
    {offset : Nat} (past : first.start < offset) (within : offset ≤ first.stop) :
    (store.trimBelow offset).segments = (first.clipBelow offset).toList ++ rest := by
  have others : rest.filterMap (trimSegment offset) = rest := by
    rw [listed] at separated
    refine Eq.trans (filterMap_eq_of_agree fun segment member => ?_) List.filterMap_some
    have := (List.pairwise_cons.1 separated).1 segment member
    rw [trimSegment, if_neg (by omega)]
  rw [segments_trimBelow separated.sorted, listed, List.filterMap_cons, others, trimSegment,
    if_pos past]
  cases first.clipBelow offset <;> rfl

end Store

namespace Buffer

/-- What a read of up to `count` bytes returns and what it leaves. -/
structure Released (buffer : Buffer) (count : Nat) (step : Step Buffer Bytes) : Prop where
  length : step.result.length = min count buffer.readable
  bytes : ∀ index, index < step.result.length →
    step.result[index]? = buffer.store.byteAt? (buffer.cursor + index)
  cursor : step.state.cursor = buffer.cursor + step.result.length
  limits : step.state.limits = buffer.limits
  /-- The bytes that go are those below the new cursor. -/
  kept : ∀ offset, step.state.store.byteAt? offset =
    if step.state.cursor ≤ offset then buffer.store.byteAt? offset else none
  /-- There are as many of them as were returned. -/
  held : step.state.store.held + step.result.length = buffer.store.held
  readable : step.state.readable + step.result.length = buffer.readable
  nothing : step.result = [] → step.state = buffer
  front : step.result ≠ [] → ∃ first rest,
    buffer.store.segments = first :: rest ∧ first.start = buffer.cursor ∧
      buffer.store.runFrom buffer.cursor = [first] ∧ step.result = first.data.take count ∧
      step.state.store.segments = (first.clipBelow step.state.cursor).toList ++ rest
  events : step.events = if step.result = [] then [] else [.delivered step.result.length]
  metrics : ∀ metrics : Metrics, metrics.after step.events =
    { metrics with delivered := metrics.delivered + step.result.length }.shift
      (-step.result.length)

/-- Bytes that are handed out are reported, if there are any. -/
theorem events_deliver (buffer : Buffer) (data : Bytes) :
    (buffer.deliver data).events = if data = [] then [] else [.delivered data.length] := by
  cases data with
  | nil => rfl
  | cons byte data => rfl

/-- Their number is added to the bytes delivered, and leaves the level. -/
theorem metrics_deliver (buffer : Buffer) (data : Bytes) (metrics : Metrics) :
    metrics.after (buffer.deliver data).events =
      { metrics with delivered := metrics.delivered + data.length }.shift (-data.length) := by
  cases data with
  | nil => rfl
  | cons byte data => rfl

section Deliver

variable {buffer : Buffer} (sound : buffer.Sound)

include sound

/-- Handing out the front of the first segment cuts it or takes it away. -/
theorem Sound.front_deliver {count : Nat} (found : buffer.tape.front count ≠ []) :
    ∃ first rest, buffer.store.segments = first :: rest ∧ first.start = buffer.cursor ∧
      buffer.store.runFrom buffer.cursor = [first] ∧
      buffer.tape.front count = first.data.take count ∧
      (buffer.deliver (buffer.tape.front count)).state.store.segments =
        (first.clipBelow (buffer.cursor + (buffer.tape.front count).length)).toList ++ rest := by
  have separated := sound.store.separated
  have length := buffer.tape.length_front count
  have positive : 0 < (buffer.tape.front count).length := List.length_pos_iff.2 found
  obtain ⟨first, rest, listed, covering, start, whole⟩ :=
    sound.segments_of_readable (by omega)
  have stop := first.stop_eq
  rw [Segment.length_eq] at whole
  have run : buffer.store.runFrom buffer.cursor = [first] := by
    rw [Store.runFrom_eq separated, covering]
    rfl
  refine ⟨first, rest, listed, start, run, ?_, ?_⟩
  · -- What a read gathers comes from this segment alone, and from its start on.
    rw [← sound.gather_eq, run]
    show (first.bytesFrom (max buffer.cursor first.start)).take count ++ [] = _
    rw [List.append_nil, start, Nat.max_self, Segment.bytesFrom, start, Nat.sub_self,
      List.drop_zero]
  · unfold Buffer.deliver advance
    rw [if_neg (by omega)]
    exact Store.segments_trimBelow_cons separated listed (by omega) (by omega)

/-- **A read lets go of just what it returns.** -/
theorem Sound.released (count : Nat) : buffer.Released count (buffer.read count) := by
  have hands := sound.handsOut_deliver count
  have tape := hands.tape
  have length := buffer.tape.length_front count
  have cursor : (buffer.deliver (buffer.tape.front count)).state.cursor =
      buffer.cursor + (buffer.tape.front count).length := by
    rw [length]
    exact congrArg Tape.cursor tape
  have before := sound.readable_eq
  rw [sound.read_eq]
  refine
    { length := by rw [before]; exact length
      bytes := ?_
      cursor := cursor
      limits := hands.limits
      kept := ?_
      held := ?_
      readable := ?_
      nothing := ?_
      front := ?_
      events := events_deliver _ _
      metrics := metrics_deliver _ _ }
  · intro index short
    have inFront : index < min count buffer.tape.readable := length ▸ short
    exact (buffer.tape.getElem?_front count index).trans (if_pos inFront)
  · intro offset
    rw [cursor, length]
    exact congrArg (·.bytes.byteAt? offset) tape
  · rw [hands.sound.held_eq, tape, sound.held_eq]
    show _ + (buffer.tape.front count).length = _
    rw [length]
    exact Tape.card_read sound.tape_ahead count
  · rw [hands.sound.readable_eq, tape, Tape.readable_read, before]
    show _ + (buffer.tape.front count).length = _
    omega
  · intro nothing
    have empty : buffer.tape.front count = [] := nothing
    rw [empty, deliver_nil]
  · intro found
    rw [cursor]
    exact sound.front_deliver found

theorem Sound.released_take (count : Nat) : buffer.Released count (buffer.take count) := by
  rw [sound.take_eq_read]
  exact sound.released count

end Deliver

/-- **Both ways to read are the same.**  They return the front of the first segment and let go
of it, and it is cut out of this segment whenever there is anything to return. -/
theorem run_reads_alike (limits : Limits) (calls : List Call) (count : Nat) :
    let buffer := ((fresh limits).run calls).state
    buffer.take count = buffer.read count ∧
      buffer.Released count (buffer.read count) ∧
      (0 < buffer.readable → 0 < count →
        (buffer.take count).result ≠ [] ∧
          buffer.slice? (min count buffer.readable) = some (buffer.take count).result) := by
  intro buffer
  have sound : buffer.Sound := (follows_fresh limits calls).sound
  refine ⟨sound.take_eq_read count, sound.released count, ?_⟩
  intro found wanted
  constructor
  · intro nothing
    have length := (sound.released_take count).length
    rw [nothing, List.length_nil] at length
    omega
  · rw [sound.readable_eq] at found ⊢
    rw [(sound.take count).data]
    exact sound.slice?_eq found count

/-- The cursor stands inside a chunk, and another one waits behind a gap. -/
theorem run_reads_alike_halfway :
    let calls : List Call :=
      [.request (.ingest 0 [1, 2, 3]), .request (.ingest 5 [6]), .request (.read 1)]
    let buffer := ((fresh {}).run calls).state
    0 < buffer.readable ∧ (buffer.take 4).result = [2, 3] ∧
      buffer.slice? (min 4 buffer.readable) = some (buffer.take 4).result := by
  intro calls buffer
  have found : 0 < buffer.readable := by decide
  obtain ⟨-, -, cut⟩ := run_reads_alike {} calls 4
  exact ⟨found, by decide, (cut found (by decide)).2⟩

end Buffer

end Gapless
