/-
# Gapless.Proofs.Queueing -- what callers may rely on

However callers, handles, room in the queue, stopping and serving fall out, the buffer of
a service is the first buffer after the requests that were taken, in the order in which
they entered the queue (`play_in_order`).  A request was taken or it was not, and its
caller can tell from the answer: `closed_iff_not_taken` says that an answer is the refusal
of a closed service just when the request was never taken, and `cancel_freezes` that
nothing is taken any more once the service was told to stop.
-/
import Gapless.Proofs.Bookkeeping
import Mathlib.Data.List.Induction

namespace Gapless.Service

set_option autoImplicit false

/-! ## Departures -/

theorem mem_left_iff {outcomes : List Outcome} {id : Nat} {stage : Stage} :
    (id, stage) ∈ (historyOf outcomes).left ↔
      .abandoned id stage ∈ outcomes ∨
        ∃ answer, stage = .answered answer ∧ .received id answer ∈ outcomes := by
  induction outcomes using List.reverseRecOn with
  | nil => simp [historyOf]
  | append_singleton outcomes outcome ih =>
      rw [historyOf_append, List.foldl_cons, List.foldl_nil]
      cases outcome with
      | received other answer =>
          simp only [History.add, List.mem_append, List.mem_singleton, Prod.mk.injEq, ih,
            reduceCtorEq, or_false, Outcome.received.injEq, and_or_left, exists_or, or_assoc]
          refine or_congr_right (or_congr_right ?_)
          constructor
          · rintro ⟨same, at_⟩
            exact ⟨answer, at_, same, rfl⟩
          · rintro ⟨_, at_, same, rfl⟩
            exact ⟨same, at_⟩
      | abandoned other stage => simp [History.add, ih, or_right_comm]
      | silent => simp [History.add, ih]
      | spared reply => simp [History.add, ih]
      | sent other request => simp [History.add, ih]
      | entered other request => simp [History.add, ih]
      | served other request present => simp [History.add, ih]

section Reached

variable {outcomes : List Outcome} {service : Service} {id : Nat}

theorem reached_of_received {answer : Answer} (received : .received id answer ∈ outcomes) :
    Reached (historyOf outcomes) service id (.answered answer) :=
  Or.inr (mem_left_iff.2 (Or.inr ⟨answer, rfl, received⟩))

theorem reached_of_abandoned {stage : Stage} (abandoned : .abandoned id stage ∈ outcomes) :
    Reached (historyOf outcomes) service id stage :=
  Or.inr (mem_left_iff.2 (Or.inl abandoned))

/-- Nobody receives anything while queued. -/
theorem abandoned_of_left_queued (left : (id, Stage.queued) ∈ (historyOf outcomes).left) :
    .abandoned id .queued ∈ outcomes := by
  rcases mem_left_iff.1 left with abandoned | ⟨answer, same, -⟩
  · exact abandoned
  · cases same

end Reached

/-! ## Capacity -/

theorem Acted.capacity_eq {service : Service} {outcome : Outcome} {after : Service}
    (acted : Acted service outcome after) : after.capacity = service.capacity := by
  cases acted <;> rfl

theorem capacity_play (service : Service) (acts : List Act) :
    (service.play acts).state.capacity = service.capacity :=
  play_induction (motive := fun _ after => after.capacity = service.capacity)
    (fun acted same => acted.capacity_eq.trans same) {} rfl acts

/-! ## One request after another -/

/-- **A service is a buffer that serves its queue in order.** -/
theorem play_in_order (buffer : Buffer) (capacity : Nat) (acts : List Act) :
    let done := (unstarted buffer capacity).play acts
    let past := historyOf done.result
    -- What was taken is the beginning of what entered, each request once; the rest is queued.
    past.commands <+: past.entered ∧ (past.entered.map Prod.fst).Nodup ∧
      (∀ command ∈ past.entered, command ∈ past.sent) ∧
      (done.state.closed = false → past.entered = past.commands ++ done.state.queue) ∧
      done.state.queue.length ≤ capacity ∧
      -- The buffer has served what was taken, reads only for callers that were there.
      done.state.buffer = buffer.served past.taken ∧
      (∀ one ∈ past.taken, one.present = false ↔ .abandoned one.id .queued ∈ done.result) ∧
      -- Who received an answer received what the buffer said then, or was never served.
      (∀ id answer, .received id answer ∈ done.result →
        Replied buffer past.taken id answer ∨
          answer = .error .closed ∧ id ∉ past.taken.map Serving.id) ∧
      -- Who left while waiting for room never got into the queue.
      ∀ id, .abandoned id .waiting ∈ done.result → id ∉ past.entered.map Prod.fst := by
  intro done past
  have ledger : Ledger buffer past done.state := ledger_play buffer capacity acts
  have room := ledger.room
  rw [show done.state.capacity = capacity from capacity_play _ acts] at room
  refine ⟨ledger.taken, ledger.once, ledger.known, ledger.opened, room, ledger.buffer, ?_, ?_, ?_⟩
  · intro one member
    constructor
    · exact fun away => abandoned_of_left_queued (ledger.absent one member away)
    · exact fun abandoned => ledger.queued (reached_of_abandoned abandoned) one member rfl
  · intro id answer received
    rcases ledger.answered (reached_of_received received) with replied | ⟨-, notTaken, refused⟩
    · exact Or.inl replied
    · exact Or.inr ⟨refused, notTaken⟩
  · exact fun id abandoned => ledger.waiting (reached_of_abandoned abandoned)

/-- A caller that leaves while its read is queued takes nothing: the next reader gets the
first bytes. -/
theorem play_in_order_abandoned :
    let acts : List Act :=
      [.send 0 (.ingest 0 [1, 2, 3]), .enter 0, .send 0 (.read 2), .enter 1, .send 0 (.take 2),
        .enter 2, .start, .abandon 1, .turn, .enter 2, .turn, .turn, .collect 2]
    let done := (unstarted (.fresh {}) 2).play acts
    let past := historyOf done.result
    past.taken = [⟨0, .ingest 0 [1, 2, 3], true⟩, ⟨1, .read 2, false⟩, ⟨2, .take 2, true⟩] ∧
      done.state.buffer = Buffer.served (.fresh {}) past.taken ∧ done.state.buffer.cursor = 2 ∧
      Replied (.fresh {}) past.taken 2 (.ok (.taken [1, 2])) := by
  intro acts done past
  obtain ⟨-, -, -, -, -, buffer, -, replies, -⟩ := play_in_order (.fresh {}) 2 acts
  have received : .received 2 (.ok (.taken [1, 2])) ∈ done.result := by decide
  refine ⟨rfl, buffer, by decide, (replies 2 _ received).resolve_right ?_⟩
  exact fun ⟨refused, _⟩ => nomatch refused

/-! ## Refused or served -/

section Ledger

variable {start : Buffer} {history : History} {service : Service}
  (ledger : Ledger start history service)

include ledger

/-- An answer tells whether the request was taken. -/
theorem Ledger.answer_cases {id : Nat} {answer : Answer}
    (reached : Reached history service id (.answered answer)) :
    (answer = .error .closed ↔ id ∉ history.taken.map Serving.id) ∧
      (id ∈ history.taken.map Serving.id → Replied start history.taken id answer) := by
  rcases ledger.answered reached with replied | ⟨-, notTaken, rfl⟩
  · refine ⟨⟨fun refused => ?_, fun notTaken => absurd replied.mem notTaken⟩, fun _ => replied⟩
    obtain ⟨before, one, behind, -, -, -, same⟩ := replied
    exact absurd (same.symm.trans refused) (Buffer.reply_ne_closed _ _)
  · exact ⟨⟨fun _ => notTaken, fun _ => rfl⟩, fun taken => absurd taken notTaken⟩

/-- Who comes too late is refused at once. -/
theorem Ledger.answer_of_late (closed : service.closed = true) (request : Request) :
    (service.arrive request).1.answer? service.arrived = some (.error .closed) := by
  refine answer?_eq_some_iff.2 ⟨_, (ledger.caller?_sent request _).trans (if_pos rfl), ?_⟩
  exact if_pos closed

variable {id : Nat} {caller : Pending} (found : service.caller? id = some caller)

include found

theorem Ledger.answer_of_taken (taken : id ∈ history.taken.map Serving.id) :
    ∃ answer, service.answer? id = some answer ∧ Replied start history.taken id answer := by
  obtain ⟨one, member, rfl⟩ := List.mem_map.1 taken
  cases there : one.present with
  | false =>
      have absent := ledger.gone (ledger.absent one member there)
      exact absurd (absent.symm.trans found) nofun
  | true =>
      obtain ⟨answer, reached⟩ := ledger.present one member there
      have at_ := ledger.stage_of_reached found reached
      have has := answer?_eq_some_iff.2 ⟨caller, found, at_⟩
      exact ⟨answer, has, (ledger.answer_cases reached).2 taken⟩

theorem Ledger.answer_of_closed (closed : service.closed = true)
    (notTaken : id ∉ history.taken.map Serving.id) :
    service.answer? id = some (.error .closed) := by
  refine answer?_eq_some_iff.2 ⟨caller, found, ?_⟩
  cases at_ : caller.stage with
  | waiting => exact absurd ((ledger.unanswered found (.inl at_)).symm.trans closed) nofun
  | queued => exact absurd ((ledger.unanswered found (.inr at_)).symm.trans closed) nofun
  | answered answer =>
      rw [(ledger.answer_cases (Or.inl ⟨caller, found, at_⟩)).1.2 notTaken]

end Ledger

/-! ## Stopping -/

/-- A service that was told to stop takes nothing and does not touch its buffer. -/
theorem Acted.still {service : Service} {outcome : Outcome} {after : Service}
    (acted : Acted service outcome after) (told : service.cancelled = true) (history : History) :
    after.cancelled = true ∧ after.buffer = service.buffer ∧
      (history.add outcome).taken = history.taken := by
  cases acted with
  | quiet silent begun lasting handles opened => exact ⟨lasting told, rfl, by rw [silent]⟩
  | sent request => exact ⟨told, rfl, rfl⟩
  | entered found waits room => exact ⟨told, rfl, rfl⟩
  | served running going first => exact absurd (going.symm.trans told) nofun
  | received found answered => exact ⟨told, rfl, rfl⟩
  | abandoned found => exact ⟨told, rfl, rfl⟩
  | closed ends => exact ⟨told, rfl, rfl⟩

/-- Nothing that is done after a service was told to stop changes its buffer. -/
theorem cancel_freezes (service : Service) (acts more : List Act) :
    let done := service.play acts
    let later := service.play (acts ++ .cancel :: more)
    later.state.cancelled = true ∧ later.state.buffer = done.state.buffer ∧
      (historyOf later.result).taken = (historyOf done.result).taken := by
  intro done later
  -- The run goes on from a service that was just told to stop.
  have split : later = done.andThen fun after outcomes =>
      ((after.act .cancel).andThen fun told outcome =>
        (told.play more).map (outcome :: ·)).map (outcomes ++ ·) :=
    service.play_append acts (.cancel :: more)
  have kept := play_induction
    (motive := fun history after => after.cancelled = true ∧
      after.buffer = done.state.buffer ∧ history.taken = (historyOf done.result).taken)
    (fun {history _ _ _} acted ⟨told, buffer, taken⟩ => by
      obtain ⟨still, same, nothing⟩ := acted.still told history
      exact ⟨still, same.trans buffer, nothing.trans taken⟩)
    (historyOf done.result) (⟨rfl, rfl, rfl⟩ : done.state.cancel.cancelled = true ∧ _ ∧ _) more
  rw [split]
  show _ ∧ _ ∧
    (historyOf (done.result ++ .silent :: (done.state.cancel.play more).result)).taken = _
  rw [historyOf_append]
  exact kept

/-- A service that was told to stop stops in its next turn, once it was started. -/
theorem returned?_of_cancelled {service : Service} (told : service.cancelled = true)
    (kept : service.phase ≠ .discarded) :
    (service.play [.start, .turn]).state.returned? = some service.buffer := by
  have closes (started : Service) (running : started.phase = .running)
      (told : started.cancelled = true) : started.turn.state = started.close .ended := by
    unfold turn
    rw [running, told]
    rfl
  show (service.start.turn.state).returned? = _
  cases phase : service.phase with
  | unstarted =>
      have started : service.start = { service with phase := .running } := if_pos phase
      rw [started, closes { service with phase := .running } rfl told]
      rfl
  | running =>
      have started : service.start = service := if_neg (by rw [phase]; exact nofun)
      rw [started, closes service phase told]
      rfl
  | ended =>
      have started : service.start = service := if_neg (by rw [phase]; exact nofun)
      have rests : service.turn.state = service := by
        unfold turn
        rw [phase]
      rw [started, rests]
      exact if_pos phase
  | discarded => exact absurd phase kept

/-- **An answer is the refusal of a closed service just when the request was never taken**,
and a service that was told to stop takes nothing more. -/
theorem closed_iff_not_taken (buffer : Buffer) (capacity : Nat) (acts : List Act) :
    let done := (unstarted buffer capacity).play acts
    let taken := (historyOf done.result).taken
    -- The buffer is what serving makes of it: a request that was not taken did nothing.
    done.state.buffer = buffer.served taken ∧
      (∀ id answer, .received id answer ∈ done.result →
        (answer = .error .closed ↔ id ∉ taken.map Serving.id) ∧
          (id ∈ taken.map Serving.id → Replied buffer taken id answer)) ∧
      -- Who is still there can have its answer, if it was served or the service has closed.
      (∀ id caller, done.state.caller? id = some caller →
        (id ∈ taken.map Serving.id →
          ∃ answer, done.state.answer? id = some answer ∧ Replied buffer taken id answer) ∧
        (done.state.closed = true → id ∉ taken.map Serving.id →
          done.state.answer? id = some (.error .closed))) ∧
      -- Who comes later is refused, but for requests that ask for nothing.
      (∀ handle ∈ done.state.handles,
        (done.state.closed = true → ∀ request, unsent? request = none →
          let late := done.state.act (.send handle request)
          late.result = .sent done.state.arrived request ∧
            late.state.answer? done.state.arrived = some (.error .closed)) ∧
          (∀ offset,
            done.state.act (.send handle (.ingest offset [])) = ⟨done.state, .spared .done, []⟩) ∧
          done.state.act (.send handle (.read 0)) = ⟨done.state, .spared (.filled []), []⟩ ∧
          done.state.act (.send handle (.take 0)) = ⟨done.state, .spared (.taken []), []⟩) ∧
      -- After the service was told to stop everything stays as it is.
      ∀ more : List Act,
        let later := (unstarted buffer capacity).play (acts ++ .cancel :: more)
        (historyOf later.result).taken = taken ∧ later.state.buffer = done.state.buffer ∧
          (done.state.phase = .unstarted → later.state.buffer = buffer) ∧
          (∀ returned, later.state.returned? = some returned → returned = done.state.buffer) ∧
          (later.state.phase ≠ .discarded →
            (later.state.play [.start, .turn]).state.returned? = some done.state.buffer) ∧
          ∀ id caller, later.state.caller? id = some caller → later.state.closed = true →
            id ∉ taken.map Serving.id → later.state.answer? id = some (.error .closed) := by
  intro done taken
  have ledger : Ledger buffer (historyOf done.result) done.state := ledger_play buffer capacity acts
  refine ⟨ledger.buffer, fun id answer received => ?_, fun id caller found => ?_,
    fun handle opened => ⟨fun closed request asks => ?_, fun offset => ?_, ?_, ?_⟩,
    fun more => ?_⟩
  · exact ledger.answer_cases (reached_of_received received)
  · exact ⟨ledger.answer_of_taken found, ledger.answer_of_closed found⟩
  · rw [act_send_asking opened asks]
    exact ⟨rfl, ledger.answer_of_late closed request⟩
  · exact act_send_spared opened rfl
  · exact act_send_spared opened rfl
  · exact act_send_spared opened rfl
  · intro later
    obtain ⟨told, frozen, same⟩ := cancel_freezes (unstarted buffer capacity) acts more
    have last : Ledger buffer (historyOf later.result) later.state := ledger_play buffer capacity _
    have same : (historyOf later.result).taken = taken := same
    refine ⟨same, frozen, fun fresh => ?_, fun returned back => ?_, fun kept => ?_, ?_⟩
    · rw [frozen, ledger.buffer, ledger.idle fresh]
      rfl
    · unfold returned? at back
      split at back
      · cases back
        exact frozen
      · cases back
    · rw [returned?_of_cancelled told kept, frozen]
    · intro id caller found closed notTaken
      exact last.answer_of_closed found closed (same ▸ notTaken)

/-- Told to stop with one request served, one queued and one waiting: the first caller still
has its answer, the others are refused. -/
theorem closed_iff_not_taken_midway :
    let acts : List Act :=
      [.send 0 (.ingest 0 [1, 2]), .enter 0, .start, .turn, .send 0 (.read 2), .enter 1,
        .send 0 .stats, .enter 2]
    let stopped := (unstarted (.fresh {}) 1).play (acts ++ [.cancel, .turn])
    let later := (unstarted (.fresh {}) 1).play
      (acts ++ [.cancel, .turn, .collect 0, .collect 1, .collect 2])
    stopped.state.closed = true ∧ stopped.state.answer? 0 = some (.ok .done) ∧
      stopped.state.answer? 1 = some (.error .closed) ∧
      stopped.state.answer? 2 = some (.error .closed) ∧
      Replied (.fresh {}) (historyOf later.result).taken 0 (.ok .done) ∧
      1 ∉ (historyOf later.result).taken.map Serving.id ∧
      later.state.buffer = ((unstarted (.fresh {}) 1).play acts).state.buffer := by
  intro acts stopped later
  obtain ⟨-, answers, -⟩ := closed_iff_not_taken (.fresh {}) 1
    (acts ++ [.cancel, .turn, .collect 0, .collect 1, .collect 2])
  obtain ⟨-, -, -, -, after⟩ := closed_iff_not_taken (.fresh {}) 1 acts
  obtain ⟨-, -, -, -, -, refused⟩ := after [.turn]
  obtain ⟨-, frozen, -⟩ := after [.turn, .collect 0, .collect 1, .collect 2]
  have first : .received 0 (.ok .done) ∈ later.result := by decide
  have second : .received 1 (.error .closed) ∈ later.result := by decide
  refine ⟨rfl, rfl, refused 1 _ rfl rfl ?_, refused 2 _ rfl rfl ?_, ?_, ?_, frozen⟩
  · decide
  · decide
  · exact (answers 0 _ first).2 (by decide)
  · exact (answers 1 _ second).1.1 rfl

end Gapless.Service
