/-
# Gapless.Proofs.Reading -- what the ways to read do to a tape

Both ways to read hand out the front of the tape and move its cursor past it
(`Sound.read_eq`, `Sound.take_eq`).  So many reads of so many bytes are one read of the
product (`Sound.drainRounds_spec`), and draining is one read of everything.

`Buffer.drain` stops after as many reads as there are bytes to read.  A reader that
goes on until a read returns nothing needs no such bound: `Drains` is that loop, and
`Sound.drains` says that it ends and does what `Buffer.drain` does.
-/
import Gapless.Buffer.Read
import Gapless.Proofs.Sound

namespace Gapless

set_option autoImplicit false

namespace Buffer

/-! ## Reading -/

section Read

variable {buffer : Buffer} (sound : buffer.Sound)

include sound

theorem Sound.tape_deliver (data : Bytes) :
    (buffer.deliver data).state.tape = buffer.tape.skip data.length := by
  cases data with
  | nil => exact (Tape.skip_zero sound.tape_ahead).symm
  | cons byte data =>
      show Tape.mk (buffer.cursor + (byte :: data).length)
        (buffer.store.trimBelow (buffer.cursor + (byte :: data).length)).bytes = _
      rw [Store.bytes_trimBelow sound.store.separated]
      rfl

/-- A buffer stays sound when it hands out no more than is readable. -/
theorem Sound.deliver {data : Bytes} (short : data.length ≤ buffer.tape.readable) :
    (buffer.deliver data).state.Sound := by
  cases data with
  | nil => exact sound
  | cons byte data =>
      -- The last byte handed out was stored, and no segment ends beyond the last offset.
      have known : buffer.cursor + data.length ∈ buffer.store.bytes.offsets :=
        ByteMap.mem_of_lt_reach short
      obtain ⟨last, inStore, -, reaches⟩ := Store.mem_bytes.1 known
      have bound := sound.store.bounded last inStore
      have separated := sound.store.separated
      have trimmed := sound.store.trimBelow (buffer.cursor + (byte :: data).length)
      refine
        { store := trimmed
          full := Store.full_trimBelow separated sound.full _
          ahead := Store.le_start_trimBelow separated _
          cursor_le := ?_
          heldWithin := ?_
          countWithin := ?_ }
      · show buffer.cursor + (data.length + 1) ≤ maxOffset
        omega
      · intro limit given
        exact Nat.le_trans (Nat.sub_le _ _) (sound.heldWithin limit given)
      · intro limit given
        have fewer : (buffer.store.trimBelow (buffer.cursor + (byte :: data).length)).count ≤
            buffer.store.count := by
          rw [trimmed.counted.1, sound.store.counted.1,
            Store.segments_trimBelow separated.sorted]
          exact List.length_filterMap_le _ _
        exact Nat.le_trans fewer (sound.countWithin limit given)

/-- The run at the cursor holds the front of the tape. -/
theorem Sound.gather_eq (count : Nat) :
    gather buffer.cursor count (buffer.store.runFrom buffer.cursor) = buffer.tape.front count := by
  have separated := sound.store.separated
  rw [Store.runFrom_eq separated]
  cases found : buffer.store.covering? buffer.cursor with
  | none =>
      have gap := (Store.covering?_eq_none_iff separated).1 found
      have nothing : buffer.tape.readable = 0 := ByteMap.reach_eq_zero_iff.2 gap
      refine (List.eq_nil_of_length_eq_zero ?_).symm
      rw [Tape.length_front, nothing, Nat.min_zero]
  | some segment =>
      obtain ⟨member, reached, short⟩ := (Store.covering?_eq_some_iff separated).1 found
      have run := Store.isRun_of_mem separated member (sound.full segment member)
      show (segment.bytesFrom (max buffer.cursor segment.start)).take count ++ [] = _
      rw [List.append_nil, Nat.max_eq_left reached]
      exact (run.bytesFrom reached short count).symm

/-- **Reading delivers the front of the tape.** -/
theorem Sound.read_eq (count : Nat) :
    buffer.read count = buffer.deliver (buffer.tape.front count) := by
  unfold read
  split
  · next zero =>
      rw [zero]
      rfl
  · rw [sound.gather_eq]

/-- What is readable is the first segment of all, and it begins right at the cursor. -/
theorem Sound.segments_of_readable (found : 0 < buffer.tape.readable) :
    ∃ first rest, buffer.store.segments = first :: rest ∧
      buffer.store.covering? buffer.cursor = some first ∧
      first.start = buffer.cursor ∧ first.length = buffer.tape.readable := by
  have separated := sound.store.separated
  have known : buffer.cursor + 0 ∈ buffer.store.bytes.offsets := ByteMap.mem_of_lt_reach found
  obtain ⟨segment, member, reached, short⟩ := Store.mem_bytes.1 known
  have covering := (Store.covering?_eq_some_iff separated).2 ⟨member, reached, short⟩
  have ahead := sound.ahead segment member
  have run := Store.isRun_of_mem separated member (sound.full segment member)
  have reach : buffer.tape.readable = segment.stop - buffer.cursor := run.reach reached short
  cases listed : buffer.store.segments with
  | nil =>
      rw [listed] at member
      cases member
  | cons first rest =>
      -- Whatever lies in front of it would begin below the cursor.
      have same : segment = first := by
        rw [listed] at member separated
        rcases List.mem_cons.1 member with same | behind
        · exact same
        · have apart := (List.pairwise_cons.1 separated).1 segment behind
          have notPassed : buffer.cursor ≤ first.start := by
            apply sound.ahead
            rw [listed]
            exact List.mem_cons_self
          have := first.start_le_stop
          omega
      subst same
      refine ⟨segment, rest, rfl, covering, by omega, ?_⟩
      unfold Segment.length
      omega

/-- The bytes that a read finds can be cut out of a single segment. -/
theorem Sound.slice?_eq (found : 0 < buffer.tape.readable) (count : Nat) :
    buffer.slice? (min count buffer.tape.readable) = some (buffer.tape.front count) := by
  have separated := sound.store.separated
  obtain ⟨first, -, -, covering, start, length⟩ := sound.segments_of_readable found
  obtain ⟨member, reached, short⟩ := (Store.covering?_eq_some_iff separated).1 covering
  have run := Store.isRun_of_mem separated member (sound.full first member)
  unfold slice?
  rw [covering, Option.bind_some, Segment.slice?, if_pos (by omega),
    ← run.bytesFrom reached short]
  exact congrArg some (buffer.tape.front_min count)

/-- **Cutting bytes out of a single segment delivers the front of the tape as well.** -/
theorem Sound.take_eq (count : Nat) :
    buffer.take count = buffer.deliver (buffer.tape.front count) := by
  unfold take
  rw [sound.readable_eq]
  dsimp only
  split
  · next zero =>
      have nothing : buffer.tape.front count = [] :=
        List.eq_nil_of_length_eq_zero (by rw [Tape.length_front, zero])
      rw [nothing]
      rfl
  · next wanted =>
      rw [sound.slice?_eq (by omega) count]

theorem Sound.take_eq_read (count : Nat) : buffer.take count = buffer.read count :=
  (sound.take_eq count).trans (sound.read_eq count).symm

end Read

/-! ## What reads hand out -/

/-- The outcome of reading `count` bytes: they are gone from the tape. -/
structure HandsOut (buffer : Buffer) (count : Nat) (after : Buffer) (data : Bytes) : Prop where
  sound : after.Sound
  limits : after.limits = buffer.limits
  tape : after.tape = buffer.tape.read count
  data : data = buffer.tape.front count

theorem limits_deliver (buffer : Buffer) (data : Bytes) :
    (buffer.deliver data).state.limits = buffer.limits := by
  cases data with
  | nil => rfl
  | cons byte data => rfl

theorem deliver_nil (buffer : Buffer) : buffer.deliver [] = ⟨buffer, [], []⟩ := rfl

section HandsOut

variable {buffer : Buffer} (sound : buffer.Sound)

include sound

theorem Sound.handsOut_nothing {count : Nat} (nothing : min count buffer.tape.readable = 0) :
    HandsOut buffer count buffer [] where
  sound := sound
  limits := rfl
  tape := by rw [Tape.read, nothing, Tape.skip_zero sound.tape_ahead]
  data := (List.eq_nil_of_length_eq_zero (by rw [Tape.length_front, nothing])).symm

theorem Sound.handsOut_deliver (count : Nat) :
    HandsOut buffer count (buffer.deliver (buffer.tape.front count)).state
      (buffer.deliver (buffer.tape.front count)).result where
  sound := sound.deliver (by rw [Tape.length_front]; exact Nat.min_le_right _ _)
  limits := limits_deliver _ _
  tape := by rw [sound.tape_deliver, Tape.length_front, Tape.read]
  data := rfl

theorem Sound.read (count : Nat) :
    HandsOut buffer count (buffer.read count).state (buffer.read count).result := by
  rw [sound.read_eq]
  exact sound.handsOut_deliver count

theorem Sound.take (count : Nat) :
    HandsOut buffer count (buffer.take count).state (buffer.take count).result := by
  rw [sound.take_eq]
  exact sound.handsOut_deliver count

end HandsOut

/-- What one read hands out and then another, one read of as much does. -/
theorem HandsOut.trans {buffer middle after : Buffer} {count more : Nat} {data rest : Bytes}
    (first : HandsOut buffer count middle data) (second : HandsOut middle more after rest) :
    HandsOut buffer (count + more) after (data ++ rest) where
  sound := second.sound
  limits := second.limits.trans first.limits
  tape := by rw [second.tape, first.tape, Tape.read_read]
  data := by rw [second.data, first.tape, first.data, Tape.front_add]

section Nothing

variable {buffer : Buffer} (sound : buffer.Sound) {count : Nat}
  (nothing : (buffer.read count).result = [])

include sound nothing

/-- A read that returns nothing leaves the buffer as it was. -/
theorem Sound.read_of_nothing : buffer.read count = ⟨buffer, [], []⟩ := by
  rw [sound.read_eq] at nothing ⊢
  have front : buffer.tape.front count = [] := nothing
  rw [front, deliver_nil]

theorem Sound.min_of_nothing : min count buffer.tape.readable = 0 := by
  have length := congrArg List.length (sound.read count).data
  rw [nothing, Tape.length_front] at length
  exact length.symm

end Nothing

/-! ## Draining -/

section Rounds

variable {buffer : Buffer} {count : Nat}

theorem drainRounds_of_nothing (sound : buffer.Sound) (nothing : (buffer.read count).result = [])
    (rounds : Nat) : drainRounds count rounds buffer = ⟨buffer, [], []⟩ := by
  cases rounds with
  | zero => rfl
  | succ rounds =>
      unfold drainRounds
      rw [sound.read_of_nothing nothing]
      rfl

theorem drainRounds_of_some (found : (buffer.read count).result ≠ []) (rounds : Nat) :
    drainRounds count (rounds + 1) buffer =
      (buffer.read count).andThen fun after data =>
        (drainRounds count rounds after).map (data :: ·) := by
  rw [drainRounds]
  unfold Step.andThen
  dsimp only
  rw [if_neg (by simpa using found)]

end Rounds

/-- So many reads of `count` bytes are one read of all of them. -/
theorem Sound.drainRounds {buffer : Buffer} (sound : buffer.Sound) (count rounds : Nat) :
    HandsOut buffer (rounds * count) (Buffer.drainRounds count rounds buffer).state
      (Buffer.drainRounds count rounds buffer).result.flatten := by
  induction rounds generalizing buffer with
  | zero =>
      rw [Nat.zero_mul]
      exact sound.handsOut_nothing (Nat.zero_min _)
  | succ rounds ih =>
      by_cases nothing : (buffer.read count).result = []
      · rw [drainRounds_of_nothing sound nothing]
        refine sound.handsOut_nothing ?_
        rcases Nat.min_eq_zero_iff.1 (sound.min_of_nothing nothing) with zero | gap
        · rw [zero, Nat.mul_zero, Nat.zero_min]
        · rw [gap, Nat.min_zero]
      · have first := sound.read count
        rw [drainRounds_of_some nothing, Nat.succ_mul, Nat.add_comm]
        exact first.trans (ih first.sound)

/-- **Draining is one read of everything**, unless it reads nothing at a time. -/
theorem Sound.drain {buffer : Buffer} (sound : buffer.Sound) (count : Nat) :
    HandsOut buffer (buffer.tape.readable * count) (buffer.drain count).state
      (buffer.drain count).result.flatten := by
  unfold Buffer.drain
  rw [sound.readable_eq]
  exact sound.drainRounds count _

/-- The loop that reads until a read returns nothing. -/
inductive Drains (count : Nat) : Buffer → Step Buffer (List Bytes) → Prop
  | done {buffer : Buffer} (nothing : (buffer.read count).result = []) :
      Drains count buffer ((buffer.read count).map fun _ => [])
  | more {buffer : Buffer} {rest : Step Buffer (List Bytes)}
      (found : (buffer.read count).result ≠ [])
      (further : Drains count (buffer.read count).state rest) :
      Drains count buffer ((buffer.read count).andThen fun _ data => rest.map (data :: ·))

/-- As many rounds as there are bytes to read are enough: every round but the last
takes one. -/
theorem Sound.drains_rounds {buffer : Buffer} (sound : buffer.Sound) (count : Nat) {rounds : Nat}
    (enough : buffer.tape.readable ≤ rounds) :
    Drains count buffer (Buffer.drainRounds count rounds buffer) := by
  induction rounds generalizing buffer with
  | zero =>
      have gap : buffer.tape.readable = 0 := by omega
      have nothing : (buffer.read count).result = [] := by
        rw [(sound.read count).data, ← Tape.front_min, gap, Nat.min_zero]
        rfl
      have done := Drains.done nothing
      rw [sound.read_of_nothing nothing] at done
      exact done
  | succ rounds ih =>
      by_cases nothing : (buffer.read count).result = []
      · have done := Drains.done nothing
        rw [sound.read_of_nothing nothing] at done
        rw [drainRounds_of_nothing sound nothing]
        exact done
      · have first := sound.read count
        have taken : 0 < (buffer.read count).result.length := List.length_pos_iff.2 nothing
        rw [first.data, Tape.length_front] at taken
        have left : (buffer.read count).state.tape.readable ≤ rounds := by
          rw [first.tape, Tape.readable_read]
          omega
        rw [drainRounds_of_some nothing]
        exact .more nothing (ih first.sound left)

/-- **The loop ends**, and `Buffer.drain` is what it does. -/
theorem Sound.drains {buffer : Buffer} (sound : buffer.Sound) (count : Nat) :
    Drains count buffer (buffer.drain count) := by
  unfold Buffer.drain
  rw [sound.readable_eq]
  exact sound.drains_rounds count (Nat.le_refl _)

end Buffer

end Gapless
