/-
# Gapless.Proofs.Handouts -- where the bytes of a stream go

A read that is served for a caller hands out the bytes at the cursor and moves the cursor
behind them (`Buffer.handout?`); nothing else that a service does moves it
(`Sound.handout_served`).  So the handouts lie one behind the other, without a gap and
without an overlap, from where the service began up to where its buffer is now
(`Sound.tiles_handouts`).

`play_conserves` adds what became of them.  A handout went to its caller, or waits for it, or
its caller left after it had been handed out; whoever left earlier got none, and took none
away.
-/
import Gapless.Proofs.History
import Gapless.Proofs.Queueing

namespace Gapless

set_option autoImplicit false

/-! ## Handouts -/

/-- The bytes that the caller of a request was handed, and where in the stream they lie. -/
structure Handout where
  id : Nat
  start : Nat
  data : Bytes
  deriving DecidableEq

namespace Handout

def stop (handout : Handout) : Nat := handout.start + handout.data.length

def Covers (handout : Handout) (offset : Nat) : Prop :=
  handout.start ≤ offset ∧ offset < handout.stop

/-- One handout begins where the last one ends, from `low` up to `high`. -/
def Tiles : Nat → List Handout → Nat → Prop
  | low, [], high => low = high
  | low, handout :: handouts, high => handout.start = low ∧ Tiles handout.stop handouts high

theorem Tiles.le_start {low high : Nat} {handouts : List Handout}
    (tiles : Tiles low handouts high) {handout : Handout} (member : handout ∈ handouts) :
    low ≤ handout.start := by
  induction handouts generalizing low with
  | nil => cases member
  | cons first handouts ih =>
      obtain ⟨rfl, rest⟩ := tiles
      rcases List.mem_cons.1 member with rfl | member
      · exact Nat.le_refl _
      · exact Nat.le_trans (Nat.le_add_right _ _) (ih rest member)

/-- Tiles do not overlap. -/
theorem Tiles.pairwise {low high : Nat} {handouts : List Handout}
    (tiles : Tiles low handouts high) :
    handouts.Pairwise fun left right => left.stop ≤ right.start := by
  induction handouts generalizing low with
  | nil => exact List.Pairwise.nil
  | cons first handouts ih =>
      obtain ⟨-, rest⟩ := tiles
      exact List.pairwise_cons.2 ⟨fun _ member => rest.le_start member, ih rest⟩

/-- Tiles leave no gap. -/
theorem Tiles.existsUnique {low high : Nat} {handouts : List Handout}
    (tiles : Tiles low handouts high) {offset : Nat} (reached : low ≤ offset)
    (short : offset < high) : ∃! handout, handout ∈ handouts ∧ handout.Covers offset := by
  induction handouts generalizing low with
  | nil =>
      have same : low = high := tiles
      omega
  | cons first handouts ih =>
      obtain ⟨rfl, rest⟩ := tiles
      by_cases inside : offset < first.stop
      · refine ⟨first, ⟨List.mem_cons_self, reached, inside⟩, ?_⟩
        rintro other ⟨member, covers⟩
        rcases List.mem_cons.1 member with rfl | member
        · rfl
        · have := rest.le_start member
          have := covers.1
          omega
      · obtain ⟨handout, ⟨member, covers⟩, only⟩ := ih rest (Nat.not_lt.1 inside)
        refine ⟨handout, ⟨List.mem_cons_of_mem _ member, covers⟩, ?_⟩
        rintro other ⟨member, covers⟩
        rcases List.mem_cons.1 member with rfl | member
        · exact absurd covers.2 inside
        · exact only other ⟨member, covers⟩

end Handout

/-! ## What serving hands out -/

namespace Buffer

/-- What serving a request hands out: a read for a caller that is there. -/
def handout? (buffer : Buffer) (one : Service.Serving) : Option Handout :=
  match one.request with
  | .read _ | .take _ =>
      if one.present then some ⟨one.id, buffer.cursor, handedBy (buffer.reply one.request)⟩
      else none
  | .ingest _ _ | .stats => none

def handouts (buffer : Buffer) : List Service.Serving → List Handout
  | [] => []
  | one :: behind => (buffer.handout? one).toList ++ (buffer.served [one]).handouts behind

/-- A handout takes the bytes at the cursor, as they are stored. -/
structure HandsTo (buffer : Buffer) (one : Service.Serving) (handout : Handout) : Prop where
  id : handout.id = one.id
  start : handout.start = buffer.cursor
  present : one.present = true
  data : handout.data = handedBy (buffer.reply one.request)
  stored : ∀ offset, handout.Covers offset →
    buffer.store.byteAt? offset = handout.data[offset - handout.start]?

theorem Sound.served {buffer : Buffer} (sound : buffer.Sound) (servings : List Service.Serving) :
    (buffer.served servings).Sound :=
  (sound.run _).sound

theorem served_of_read_absent (buffer : Buffer) {one : Service.Serving} {count : Nat}
    (reads : one.request = .read count ∨ one.request = .take count)
    (absent : one.present = false) : buffer.served [one] = buffer := by
  have nothing : one.call? = none := by
    unfold Service.Serving.call?
    rcases reads with reads | reads <;> simp [reads, absent]
  unfold Buffer.served
  rw [List.filterMap_cons_none nothing]
  rfl

section Served

variable {buffer : Buffer} (sound : buffer.Sound)

include sound

theorem Sound.cursor_ingest (offset : Nat) (data : Bytes) :
    (buffer.ingest offset data).state.cursor = buffer.cursor := by
  have tape := (sound.follows_ingest offset data).tape
  show (buffer.ingest offset data).state.tape.cursor = _
  rw [tape]
  cases (buffer.ingest offset data).result <;> rfl

/-- Bytes that are taken come from where the cursor was, and it moves behind them. -/
theorem Sound.handsTo_take {one : Service.Serving} {count : Nat} (present : one.present = true)
    (same : handedBy (buffer.reply one.request) = (buffer.take count).result) :
    let handout : Handout := ⟨one.id, buffer.cursor, handedBy (buffer.reply one.request)⟩
    buffer.HandsTo one handout ∧ (buffer.take count).state.cursor = handout.stop := by
  intro handout
  have handsOut := sound.take count
  have data : handout.data = buffer.tape.front count := same.trans handsOut.data
  constructor
  · refine { id := rfl, start := rfl, present, data := rfl, stored := fun offset covers => ?_ }
    have short : offset - buffer.cursor < min count buffer.tape.readable := by
      rw [← Tape.length_front, ← data]
      exact Nat.sub_lt_left_of_lt_add covers.1 covers.2
    rw [data, Tape.getElem?_front, if_pos short]
    exact congrArg buffer.store.byteAt? (Nat.add_sub_cancel' covers.1).symm
  · show (buffer.take count).state.tape.cursor = buffer.cursor + handout.data.length
    rw [handsOut.tape, data, Tape.length_front]
    rfl

/-- The cursor moves behind what is handed out, and else it stays. -/
theorem Sound.handout_served (one : Service.Serving) :
    match buffer.handout? one with
    | none => (buffer.served [one]).cursor = buffer.cursor
    | some handout => buffer.HandsTo one handout ∧ (buffer.served [one]).cursor = handout.stop := by
  obtain ⟨id, request, present⟩ := one
  cases request with
  | ingest offset data => exact sound.cursor_ingest offset data
  | read count =>
      cases present with
      | true => exact sound.handsTo_take rfl rfl
      | false => rfl
  | take count =>
      cases present with
      | true => exact sound.handsTo_take rfl rfl
      | false => rfl
  | stats => rfl

/-- **Handouts lie one behind the other**, from the cursor to the cursor. -/
theorem Sound.tiles_handouts (taken : List Service.Serving) :
    Handout.Tiles buffer.cursor (buffer.handouts taken) (buffer.served taken).cursor := by
  induction taken generalizing buffer with
  | nil => rfl
  | cons one behind ih =>
      have step := sound.handout_served one
      have rest := ih (sound.served [one])
      rw [← served_append] at rest
      unfold handouts
      cases known : buffer.handout? one with
      | none =>
          rw [known] at step
          rw [← show (buffer.served [one]).cursor = buffer.cursor from step]
          exact rest
      | some handout =>
          rw [known] at step
          obtain ⟨handsTo, cursor⟩ := step
          rw [cursor] at rest
          exact ⟨handsTo.start, rest⟩

end Served

theorem mem_handouts_iff {buffer : Buffer} {taken : List Service.Serving} {handout : Handout} :
    handout ∈ buffer.handouts taken ↔
      ∃ before one behind, taken = before ++ one :: behind ∧
        (buffer.served before).handout? one = some handout := by
  induction taken generalizing buffer with
  | nil => simp [handouts]
  | cons first rest ih =>
      unfold handouts
      rw [List.mem_append, Option.mem_toList, ih]
      constructor
      · rintro (here | ⟨before, one, behind, rfl, later⟩)
        · exact ⟨[], first, rest, rfl, here⟩
        · refine ⟨first :: before, one, behind, rfl, ?_⟩
          rw [← served_append] at later
          exact later
      · rintro ⟨before, one, behind, split, found⟩
        cases before with
        | nil =>
            cases split
            exact Or.inl found
        | cons other before =>
            cases split
            refine Or.inr ⟨before, one, behind, rfl, ?_⟩
            rw [← served_append]
            exact found

theorem handout?_of_handed {buffer : Buffer} {one : Service.Serving} (present : one.present = true)
    (handed : handedBy (buffer.reply one.request) ≠ []) :
    buffer.handout? one =
      some ⟨one.id, buffer.cursor, handedBy (buffer.reply one.request)⟩ := by
  obtain ⟨id, request, there⟩ := one
  cases present
  cases request with
  | ingest offset data =>
      refine absurd ?_ handed
      show handedBy ((buffer.ingest offset data).result.map fun _ => .done) = []
      cases (buffer.ingest offset data).result <;> rfl
  | read count => rfl
  | take count => rfl
  | stats => exact absurd rfl handed

/-- Nobody is handed something twice. -/
theorem ids_handouts (buffer : Buffer) (taken : List Service.Serving) :
    ((buffer.handouts taken).map Handout.id).Sublist (taken.map Service.Serving.id) := by
  induction taken generalizing buffer with
  | nil => exact List.Sublist.slnil
  | cons one behind ih =>
      have later := ih (buffer.served [one])
      unfold handouts handout?
      split
      · split
        · exact later.cons_cons _
        · exact later.cons _
      · split
        · exact later.cons_cons _
        · exact later.cons _
      · exact later.cons _
      · exact later.cons _

end Buffer

namespace Service

/-! ## What became of it -/

theorem mem_of_split {taken before behind : List Serving} {one : Serving}
    (split : taken = before ++ one :: behind) : one ∈ taken :=
  split ▸ List.mem_append_right _ List.mem_cons_self

section Ledger

variable {start : Buffer} {history : History} {service : Service}

/-- A request is answered once: by what the buffer said when it was taken. -/
theorem Line.replied_eq (line : Line start history service) {before behind : List Serving}
    {one : Serving} (split : history.taken = before ++ one :: behind) {answer : Answer}
    (replied : Replied start history.taken one.id answer) :
    answer = (start.served before).reply one.request := by
  obtain ⟨before', one', behind', split', own, -, rfl⟩ := replied
  -- Two requests of one number stand at the same place.
  have place {before behind : List Serving} {one : Serving}
      (split : history.taken = before ++ one :: behind) :
      (history.taken.map Serving.id).idxOf one.id = before.length := by
    have once := line.taken_once
    rw [split, List.map_append, List.map_cons] at once ⊢
    have fresh : one.id ∉ before.map Serving.id := fun member =>
      List.disjoint_of_nodup_append once member List.mem_cons_self
    rw [List.idxOf_append_of_notMem fresh, List.idxOf_cons_self, List.length_map, Nat.add_zero]
  have same : before.length = before'.length := by rw [← place split, ← place split', own]
  obtain ⟨rfl, rest⟩ := List.append_inj (split.symm.trans split') same
  cases rest
  rfl

variable (ledger : Ledger start history service)

include ledger

/-- The caller of a handout was answered with it. -/
theorem Ledger.reached_of_handout (sound : start.Sound) {handout : Handout}
    (member : handout ∈ start.handouts history.taken) :
    ∃ before one behind, history.taken = before ++ one :: behind ∧
      (start.served before).HandsTo one handout ∧
      Reached history service handout.id (.answered ((start.served before).reply one.request)) := by
  obtain ⟨before, one, behind, split, known⟩ := Buffer.mem_handouts_iff.1 member
  have step := (sound.served before).handout_served one
  rw [known] at step
  obtain ⟨handsTo, -⟩ := step
  have taken := mem_of_split split
  obtain ⟨answer, reached⟩ := ledger.present one taken handsTo.present
  have replied := (ledger.answer_cases reached).2 (List.mem_map_of_mem taken)
  rw [ledger.replied_eq split replied, ← handsTo.id] at reached
  exact ⟨before, one, behind, split, handsTo, reached⟩

/-- Who is answered with bytes has a handout. -/
theorem Ledger.handout_of_reached {id : Nat} {answer : Answer}
    (reached : Reached history service id (.answered answer)) (handed : handedBy answer ≠ []) :
    ∃ handout ∈ start.handouts history.taken, handout.id = id ∧ handout.data = handedBy answer := by
  rcases ledger.answered reached with replied | ⟨-, -, rfl⟩
  · obtain ⟨before, one, behind, split, rfl, present, rfl⟩ := replied
    have known := Buffer.handout?_of_handed present handed
    exact ⟨_, Buffer.mem_handouts_iff.2 ⟨before, one, behind, split, known⟩, rfl, rfl⟩
  · exact absurd rfl handed

section Early

variable {id : Nat} {stage : Stage} (reached : Reached history service id stage)
  (early : stage = .waiting ∨ stage = .queued)

include reached early

/-- Who was not answered was not there when its request was taken. -/
theorem Ledger.absent_of_early {one : Serving} (member : one ∈ history.taken) (own : one.id = id) :
    one.present = false := by
  rcases early with rfl | rfl
  · have taken := List.mem_map_of_mem (f := Serving.id) member
    exact absurd (ledger.ids_taken.subset (own ▸ taken)) (ledger.waiting reached)
  · exact ledger.queued reached one member own

end Early

end Ledger

/-- **No byte is lost, and none is given out twice.** -/
theorem play_conserves (limits : Limits) (calls : List Buffer.Call) (capacity : Nat)
    (acts : List Act) :
    let start := ((Buffer.fresh limits).run calls).state
    let done := (unstarted start capacity).play acts
    let taken := (historyOf done.result).taken
    let given := start.handouts taken
    -- What was handed out lies one behind the other from the first cursor to the present one.
    Handout.Tiles start.cursor given done.state.buffer.cursor ∧
      given.Pairwise (fun left right => left.stop ≤ right.start) ∧
      (∀ offset, start.cursor ≤ offset → offset < done.state.buffer.cursor →
        ∃! handout, handout ∈ given ∧ handout.Covers offset) ∧
      -- It was read for a caller that was there, and reached it unless the caller left later.
      (∀ handout ∈ given,
        (∃ before one behind, taken = before ++ one :: behind ∧
          (start.served before).HandsTo one handout) ∧
        ∃ answer, handedBy answer = handout.data ∧
          (.received handout.id answer ∈ done.result ∨
            done.state.answer? handout.id = some answer ∨
            .abandoned handout.id (.answered answer) ∈ done.result)) ∧
      -- Every reply with bytes carries those of its own handout.
      (∀ id answer, .received id answer ∈ done.result → handedBy answer ≠ [] →
        ∃! handout, handout ∈ given ∧ handout.id = id ∧ handout.data = handedBy answer) ∧
      -- Who left before it was served was handed nothing, and its read changed nothing.
      ∀ id stage, .abandoned id stage ∈ done.result → stage = .waiting ∨ stage = .queued →
        (∀ handout ∈ given, handout.id ≠ id) ∧
          ∀ before one behind count, taken = before ++ one :: behind → one.id = id →
            one.request = .read count ∨ one.request = .take count →
              start.served (before ++ [one]) = start.served before := by
  intro start done taken given
  have sound : start.Sound := (Buffer.follows_fresh limits calls).sound
  have ledger : Ledger start (historyOf done.result) done.state := ledger_play start capacity acts
  have tiles : Handout.Tiles start.cursor given done.state.buffer.cursor := by
    rw [ledger.buffer]
    exact sound.tiles_handouts taken
  have distinct : (given.map Handout.id).Nodup :=
    ledger.taken_once.sublist (start.ids_handouts taken)
  refine ⟨tiles, tiles.pairwise, fun offset => tiles.existsUnique, fun handout member => ?_,
    fun id answer received handed => ?_, fun id stage abandoned early => ⟨?_, ?_⟩⟩
  · obtain ⟨before, one, behind, split, handsTo, reached⟩ :=
      ledger.reached_of_handout sound member
    refine ⟨⟨before, one, behind, split, handsTo⟩, _, handsTo.data.symm, ?_⟩
    rcases reached with ⟨caller, found, at_⟩ | left
    · exact Or.inr (Or.inl (answer?_eq_some_iff.2 ⟨caller, found, at_⟩))
    · rcases mem_left_iff.1 left with abandoned | ⟨answer, same, received⟩
      · exact Or.inr (Or.inr abandoned)
      · cases same
        exact Or.inl received
  · obtain ⟨handout, member, own, data⟩ :=
      ledger.handout_of_reached (reached_of_received received) handed
    refine ⟨handout, ⟨member, own, data⟩, ?_⟩
    rintro other ⟨also, same, -⟩
    exact List.inj_on_of_nodup_map distinct also member (same.trans own.symm)
  · intro handout member same
    obtain ⟨before, one, behind, split, handsTo, -⟩ := ledger.reached_of_handout sound member
    have absent := ledger.absent_of_early (reached_of_abandoned abandoned) early
      (mem_of_split split) (handsTo.id.symm.trans same)
    exact absurd (handsTo.present.symm.trans absent) nofun
  · intro before one behind count split own reads
    have absent := ledger.absent_of_early (reached_of_abandoned abandoned) early
      (mem_of_split split) own
    rw [Buffer.served_append, Buffer.served_of_read_absent _ reads absent]

/-- One caller has its bytes, one left before its read was served and one after it: the bytes
of the last one are gone, and no others. -/
theorem play_conserves_abandoned :
    let calls : List Buffer.Call := [.request (.ingest 0 [1, 2, 3, 4, 5, 6]), .request (.read 1)]
    let acts : List Act :=
      [.send 0 (.take 2), .enter 0, .send 0 (.read 2), .enter 1, .send 0 (.take 2), .enter 2,
        .start, .abandon 1, .turn, .turn, .turn, .collect 0, .abandon 2]
    let start := ((Buffer.fresh {}).run calls).state
    let done := (unstarted start 4).play acts
    let given := start.handouts (historyOf done.result).taken
    given = [⟨0, 1, [2, 3]⟩, ⟨2, 3, [4, 5]⟩] ∧ done.state.buffer.cursor = 5 ∧
      (∃! handout, handout ∈ given ∧ handout.Covers 4) ∧
      (∃! handout, handout ∈ given ∧ handout.id = 0 ∧ handout.data = [2, 3]) ∧
      (∀ handout ∈ given, handout.id ≠ 1) ∧
      .abandoned 2 (.answered (.ok (.taken [4, 5]))) ∈ done.result := by
  intro calls acts start done given
  obtain ⟨-, -, covered, -, received, early⟩ := play_conserves {} calls 4 acts
  have first : .received 0 (.ok (.taken [2, 3])) ∈ done.result := by decide
  have left : .abandoned 1 .queued ∈ done.result := by decide
  have only : ∃! handout, handout ∈ given ∧ handout.Covers 4 :=
    covered 4 (by decide) (by decide)
  have reader : ∃! handout, handout ∈ given ∧ handout.id = 0 ∧ handout.data = [2, 3] :=
    received 0 _ first nofun
  have nothing : ∀ handout ∈ given, handout.id ≠ 1 := (early 1 _ left (.inr rfl)).1
  exact ⟨by decide, by decide, only, reader, nothing, by decide⟩

end Service

end Gapless
