/-
# Gapless.Proofs.Reordering -- chunks that share no offset may come in any order

Writing chunks that share no offset comes to the same in every order
(`Tape.writeAll_perm`), and what a tape holds only grows.  So when the bytes are the only
limit, all of several chunks are accepted just when their range is proper and everything
written together is within the limit (`Sound.acceptsAll_iff`), which does not speak of
their order.  So the buffers come to have one tape, and hence are alike (`Sound.alike`).
-/
import Gapless.Proofs.Accounting
import Gapless.Proofs.Alike
import Gapless.Sharing
import Mathlib.Data.List.Pairwise

namespace Gapless

set_option autoImplicit false

theorem totalOf_perm {α : Type} (size : α → Nat) {items others : List α}
    (reordered : items.Perm others) : totalOf size items = totalOf size others := by
  induction reordered with
  | nil => rfl
  | cons item _ ih => rw [totalOf, totalOf, ih]
  | swap item other rest => simp only [totalOf]; omega
  | trans _ _ ih ihToo => exact ih.trans ihToo

/-! ## Tapes -/

namespace Tape

/-- No offset is one of both chunks. -/
def Apart (one other : Nat × Bytes) : Prop :=
  Disjoint (Finset.Ico one.1 (one.1 + one.2.length)) (Finset.Ico other.1 (other.1 + other.2.length))

instance : DecidableRel Apart := fun _ _ => inferInstanceAs (Decidable (Disjoint _ _))

instance : Std.Symm Apart where
  symm _ _ apart := Disjoint.symm apart

/-- Write chunks one after another. -/
def writeAll (tape : Tape) (chunks : List (Nat × Bytes)) : Tape :=
  chunks.foldl (fun tape chunk => tape.write chunk.1 chunk.2) tape

/-- Of two chunks that share no offset either may be written first. -/
theorem write_write {one other : Nat × Bytes} (apart : Apart one other) (tape : Tape) :
    (tape.write one.1 one.2).write other.1 other.2 =
      (tape.write other.1 other.2).write one.1 one.2 := by
  refine eq_of_byteAt? rfl fun offset => ?_
  have unshared : ¬((one.1 ≤ offset ∧ offset < one.1 + one.2.length) ∧
      other.1 ≤ offset ∧ offset < other.1 + other.2.length) := by
    rintro ⟨inOne, inOther⟩
    exact Finset.disjoint_left.1 apart (Finset.mem_Ico.2 inOne) (Finset.mem_Ico.2 inOther)
  have cursor (chunk : Nat × Bytes) : (tape.write chunk.1 chunk.2).cursor = tape.cursor := rfl
  rw [byteAt?_write, byteAt?_write, byteAt?_write, byteAt?_write, cursor, cursor]
  by_cases inOne : tape.cursor ≤ offset ∧ one.1 ≤ offset ∧ offset < one.1 + one.2.length
  · rw [if_pos inOne, if_pos inOne, if_neg (by omega)]
  · rw [if_neg inOne, if_neg inOne]

/-- **The order of chunks that share no offset does not matter.** -/
theorem writeAll_perm (tape : Tape) {chunks others : List (Nat × Bytes)}
    (reordered : chunks.Perm others) (apart : chunks.Pairwise Apart) :
    tape.writeAll chunks = tape.writeAll others := by
  refine reordered.foldl_eq' (fun one inOne other inOther tape => ?_) tape
  by_cases same : one = other
  · rw [same]
  · exact write_write (apart.forall inOne inOther same) tape

/-- What waits on a tape goes on waiting when more is written. -/
theorem offsets_writeAll (tape : Tape) (chunks : List (Nat × Bytes)) :
    tape.bytes.offsets ⊆ (tape.writeAll chunks).bytes.offsets := by
  induction chunks generalizing tape with
  | nil => exact Finset.Subset.refl _
  | cons chunk chunks ih =>
      have first : tape.bytes.offsets ⊆ (tape.write chunk.1 chunk.2).bytes.offsets :=
        Finset.subset_union_left
      exact first.trans (ih (tape.write chunk.1 chunk.2))

end Tape

namespace Buffer

/-! ## Offering chunks -/

/-- Offer chunks one after another. -/
def offers (chunks : List (Nat × Bytes)) : List Call :=
  chunks.map fun chunk => .request (.ingest chunk.1 chunk.2)

/-- There are offsets for all bytes of a chunk. -/
def Ranged (chunk : Nat × Bytes) : Prop :=
  chunk.2 = [] ∨ chunk.1 + chunk.2.length ≤ maxOffset

/-- All chunks that were offered have been accepted. -/
def AllDone (answers : List Answer) : Prop := ∀ answer ∈ answers, answer = .ok .done

theorem run_offers_cons (buffer : Buffer) (chunk : Nat × Bytes) (chunks : List (Nat × Bytes)) :
    buffer.run (offers (chunk :: chunks)) =
      (buffer.perform (.request (.ingest chunk.1 chunk.2))).andThen fun after answer =>
        (after.run (offers chunks)).map (answer :: ·) := rfl

theorem allDone_cons {answer : Answer} {answers : List Answer} :
    AllDone (answer :: answers) ↔ answer = .ok .done ∧ AllDone answers :=
  List.forall_mem_cons

theorem done_iff {result : Except Refusal Unit} :
    (result.map fun _ => Reply.done) = .ok .done ↔ result = .ok () := by
  cases result with
  | ok _ => exact iff_of_true rfl rfl
  | error refusal => exact iff_of_false (fun h => nomatch h) (fun h => nomatch h)

section Offers

variable {buffer : Buffer}

/-- With no limit on segments a chunk is accepted when the bytes held with it are within
the limit on bytes. -/
theorem Sound.accepts_iff (sound : buffer.Sound) (uncounted : buffer.limits.segments = none)
    (chunk : Nat × Bytes) :
    (buffer.ingest chunk.1 chunk.2).result = .ok () ↔
      Ranged chunk ∧
        Limits.Within (buffer.tape.write chunk.1 chunk.2).bytes.offsets.card
          buffer.limits.bytes := by
  have uncounted (count : Nat) : Limits.Within count buffer.limits.segments := by
    rw [uncounted]
    rintro bound ⟨⟩
  by_cases nothing : chunk.2 = []
  · rw [nothing, Tape.write_nil, ← sound.held_eq]
    exact iff_of_true rfl ⟨Or.inl nothing, sound.heldWithin⟩
  · rw [sound.result_ingest_iff chunk.1 nothing (.ok ()) (by simp), Limits.check_eq_ok_iff,
      and_iff_left (uncounted _), Ranged, or_iff_right nothing]

/-- **All of several chunks are accepted** when their ranges are proper and what they
make together is within the limit. -/
theorem Sound.acceptsAll_iff (sound : buffer.Sound) (uncounted : buffer.limits.segments = none)
    (chunks : List (Nat × Bytes)) :
    AllDone (buffer.run (offers chunks)).result ↔
      (∀ chunk ∈ chunks, Ranged chunk) ∧
        Limits.Within (buffer.tape.writeAll chunks).bytes.offsets.card buffer.limits.bytes := by
  induction chunks generalizing buffer with
  | nil =>
      refine iff_of_true (List.forall_mem_nil _) ⟨List.forall_mem_nil _, ?_⟩
      have within := sound.heldWithin
      rwa [sound.held_eq] at within
  | cons chunk chunks ih =>
      have head : (buffer.perform (.request (.ingest chunk.1 chunk.2))).result = .ok .done ↔
          (buffer.ingest chunk.1 chunk.2).result = .ok () := done_iff
      have follows := sound.follows_ingest chunk.1 chunk.2
      have tail := ih follows.sound (by rw [follows.limits, uncounted])
      rw [run_offers_cons, Step.andThen, Step.map, allDone_cons, head, List.forall_mem_cons]
      rw [follows.limits] at tail
      constructor
      · rintro ⟨accepted, rest⟩
        obtain ⟨ranged, within⟩ := tail.1 rest
        rw [sound.tape_ingest accepted] at within
        exact ⟨⟨((sound.accepts_iff uncounted chunk).1 accepted).1, ranged⟩, within⟩
      · rintro ⟨⟨ranged, others⟩, within⟩
        -- What is held after the first chunk is held at the end as well.
        have accepted : (buffer.ingest chunk.1 chunk.2).result = .ok () := by
          refine (sound.accepts_iff uncounted chunk).2 ⟨ranged, fun bound limit => ?_⟩
          have fewer := Finset.card_le_card
            ((buffer.tape.write chunk.1 chunk.2).offsets_writeAll chunks)
          exact Nat.le_trans fewer (within bound limit)
        refine ⟨accepted, tail.2 ⟨others, ?_⟩⟩
        rw [sound.tape_ingest accepted]
        exact within

/-- Accepted chunks are written on the tape in their order, and what they count for is
seen from how much the buffer has grown. -/
theorem Sound.after_offers (sound : buffer.Sound) {chunks : List (Nat × Bytes)}
    (accepted : AllDone (buffer.run (offers chunks)).result) :
    (buffer.run (offers chunks)).state.tape = buffer.tape.writeAll chunks ∧
      buffer.store.held ≤ (buffer.run (offers chunks)).state.store.held ∧
      (buffer.run (offers chunks)).state.store.held ≤
        buffer.store.held + totalOf (·.2.length) chunks ∧
      ∀ metrics : Metrics, metrics.after (buffer.run (offers chunks)).events =
        metrics.taking (totalOf (·.2.length) chunks)
          ((buffer.run (offers chunks)).state.store.held - buffer.store.held) := by
  induction chunks generalizing buffer with
  | nil =>
      refine ⟨rfl, Nat.le_refl _, Nat.le_refl _, fun metrics => ?_⟩
      show metrics = metrics.taking 0 (buffer.store.held - buffer.store.held)
      rw [Nat.sub_self, Metrics.taking_nothing]
  | cons chunk chunks ih =>
      rw [run_offers_cons, Step.andThen, Step.map, allDone_cons] at accepted
      have first : (buffer.ingest chunk.1 chunk.2).result = .ok () := done_iff.1 accepted.1
      have follows := sound.follows_ingest chunk.1 chunk.2
      obtain ⟨grown, bound, counted⟩ := sound.after_ingest first
      obtain ⟨tape, further, within, rest⟩ := ih follows.sound accepted.2
      rw [sound.tape_ingest first] at tape
      rw [run_offers_cons]
      refine ⟨tape, Nat.le_trans grown further, ?_, fun metrics => ?_⟩
      · show ((buffer.ingest chunk.1 chunk.2).state.run (offers chunks)).state.store.held ≤
          buffer.store.held + (chunk.2.length + totalOf (·.2.length) chunks)
        omega
      · show metrics.after ((buffer.ingest chunk.1 chunk.2).events ++
          ((buffer.ingest chunk.1 chunk.2).state.run (offers chunks)).events) = _
        rw [Metrics.after_append, counted, rest, Metrics.taking_taking _ (by omega) (by omega)]
        refine congrArg (metrics.taking _) ?_
        show _ = ((buffer.ingest chunk.1 chunk.2).state.run (offers chunks)).state.store.held -
          buffer.store.held
        omega

end Offers

end Buffer

/-! ## Several producers -/

namespace Shared

/-- Send chunks through handles in the order in which their producers come to have the
buffer to themselves. -/
def sends (shared : Shared) (sent : List (Nat × Nat × Bytes)) : Step Shared (List Result) :=
  Step.each (fun shared (handle, offset, data) =>
    shared.perform handle (.request (.ingest offset data))) shared sent

/-- What is sent through open handles fares as what is offered to the buffer itself. -/
theorem sends_eq (shared : Shared) {sent : List (Nat × Nat × Bytes)}
    (opened : ∀ send ∈ sent, send.1 < shared.handles) :
    let alone := shared.buffer.run (Buffer.offers (sent.map (·.2)))
    (shared.sends sent).state = { shared with buffer := alone.state } ∧
      (shared.sends sent).result = alone.result.map .answer ∧
      ∀ metrics : Metrics, metrics.after (shared.sends sent).events =
        metrics.after alone.events := by
  induction sent generalizing shared with
  | nil => exact ⟨rfl, rfl, fun _ => rfl⟩
  | cons send sent ih =>
      obtain ⟨handle, offset, data⟩ := send
      rw [List.forall_mem_cons] at opened
      have first : shared.perform handle (.request (.ingest offset data)) =
          ((shared.ingest offset data).map (·.map fun _ => .done)).map .answer := by
        unfold perform
        rw [if_neg (Nat.not_le.2 opened.1)]
        rfl
      obtain ⟨state, result, events⟩ :=
        ih { shared with buffer := (shared.buffer.ingest offset data).state } opened.2
      rw [List.map_cons, Buffer.run_offers_cons]
      unfold sends at state result events ⊢
      rw [Step.each]
      dsimp only
      rw [first, ingest_eq]
      refine ⟨state, congrArg (_ :: ·) result, fun metrics => ?_⟩
      show metrics.after (((shared.buffer.ingest offset data).events ++ _) ++ _) =
        metrics.after ((shared.buffer.ingest offset data).events ++ _)
      -- The front end's own report counts for nothing.
      rw [Metrics.after_append, Metrics.after_append, Metrics.after_append,
        Metrics.after_report]
      exact events _

end Shared

namespace Buffer

/-- **Chunks that share no offset may come in any order**, from one producer or from
several. -/
theorem run_reordered (limits : Limits) (uncounted : limits.segments = none)
    (calls : List Call) {chunks others : List (Nat × Bytes)}
    (apart : chunks.Pairwise Tape.Apart) (reordered : chunks.Perm others)
    (accepted : AllDone (((fresh limits).run calls).state.run (offers chunks)).result) :
    let buffer := ((fresh limits).run calls).state
    let one := buffer.run (offers chunks)
    let other := buffer.run (offers others)
    AllDone other.result ∧ one.state.Alike other.state ∧
      (∀ metrics : Metrics, metrics.after one.events = metrics.after other.events) ∧
      ∀ (handles : Nat) (poisoned : Bool) (sent : List (Nat × Nat × Bytes)),
        (∀ send ∈ sent, send.1 < handles) → sent.map (·.2) = others →
          let shared := Shared.sends ⟨buffer, handles, poisoned⟩ sent
          shared.result = other.result.map .answer ∧ shared.state.buffer = other.state ∧
            ∀ metrics : Metrics, metrics.after shared.events = metrics.after one.events := by
  intro buffer one other
  have follows : Follows (fresh limits) _ buffer := follows_fresh limits calls
  have sound : buffer.Sound := follows.sound
  have unlimited : buffer.limits.segments = none := by rw [follows.limits]; exact uncounted
  have acceptedToo : AllDone other.result := by
    obtain ⟨ranged, within⟩ := (sound.acceptsAll_iff unlimited chunks).1 accepted
    rw [buffer.tape.writeAll_perm reordered apart] at within
    exact (sound.acceptsAll_iff unlimited others).2
      ⟨fun chunk member => ranged chunk (reordered.mem_iff.2 member), within⟩
  obtain ⟨tape, -, -, counts⟩ := sound.after_offers accepted
  obtain ⟨tapeToo, -, -, countsToo⟩ := sound.after_offers acceptedToo
  rw [buffer.tape.writeAll_perm reordered apart, ← tapeToo] at tape
  have alike : one.state.Alike other.state :=
    (sound.run _).sound.alike (sound.run _).sound tape
      ((sound.run _).limits.trans (sound.run _).limits.symm)
  have metrics (metrics : Metrics) : metrics.after one.events = metrics.after other.events := by
    have held : one.state.store.held = other.state.store.held := congrArg Stats.held alike.stats
    show metrics.after (buffer.run (offers chunks)).events = _
    rw [counts, countsToo, totalOf_perm _ reordered]
    exact congrArg (fun held => metrics.taking _ (held - _)) held
  refine ⟨acceptedToo, alike, metrics, fun handles poisoned sent opened same => ?_⟩
  subst same
  obtain ⟨state, result, events⟩ := Shared.sends_eq ⟨buffer, handles, poisoned⟩ opened
  exact ⟨result, congrArg Shared.buffer state, fun started =>
    (events started).trans (metrics started).symm⟩

/-- A late chunk, one that closes a gap and one that lies over stored bytes, the other way
round: they fill the buffer up to its limit either way. -/
theorem run_reordered_filling :
    let limits : Limits := { bytes := some 6 }
    let calls : List Call :=
      [.request (.ingest 0 [1, 2]), .request (.read 2), .request (.ingest 5 [6])]
    let chunks : List (Nat × Bytes) := [(0, [1, 2, 3]), (3, [4, 5]), (5, [7, 8, 9])]
    let buffer := ((fresh limits).run calls).state
    AllDone (buffer.run (offers chunks)).result ∧
      AllDone (buffer.run (offers chunks.reverse)).result ∧
      (buffer.run (offers chunks)).state.Alike (buffer.run (offers chunks.reverse)).state ∧
      (buffer.run (offers chunks)).state.stats = ⟨2, 6, 1, 6⟩ := by
  intro limits calls chunks buffer
  have apart : chunks.Pairwise Tape.Apart := by decide
  have accepted : AllDone (buffer.run (offers chunks)).result := by
    unfold AllDone
    decide
  obtain ⟨acceptedToo, alike, -, -⟩ :=
    run_reordered limits rfl calls apart chunks.reverse_perm.symm accepted
  exact ⟨accepted, acceptedToo, alike, by decide⟩

end Buffer

end Gapless
