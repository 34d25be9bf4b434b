/-
# Gapless.Proofs.Ending -- when a service ends, and what is done by then

A service that was started ends when it was told to, or when there is neither a handle nor a
request left; until then it goes on (`Rested.ended_iff`), and it always comes to a rest
(`rested_turns`).

Being deserted comes after everything that is queued.  So whatever entered the queue of a
service that ended in this way was taken (`Course.drained`), and what became of a chunk then
is still true at the end, as bytes that are held or were passed stay so
(`Sound.known_run`).
-/
import Gapless.Proofs.History
import Gapless.Proofs.Queueing
import Gapless.Proofs.Retransmission
import Gapless.Proofs.Turning

namespace Gapless

set_option autoImplicit false

/-! ## Chunks that have arrived -/

namespace Tape

variable {tape : Tape} {offset : Nat}

/-- What was passed or held is so after every call. -/
theorem known_follow (known : offset < tape.cursor ∨ offset ∈ tape.bytes.offsets)
    (call : Buffer.Call) (answer : Answer) :
    offset < (tape.follow call answer).cursor ∨
      offset ∈ (tape.follow call answer).bytes.offsets := by
  have read (count : Nat) : offset < (tape.read count).cursor ∨
      offset ∈ (tape.read count).bytes.offsets := by
    by_cases passed : offset < (tape.read count).cursor
    · exact .inl passed
    · have held : offset ∈ tape.bytes.offsets := by
        apply known.resolve_left
        intro before
        exact passed (Nat.lt_of_lt_of_le before (tape.cursor_le_read count))
      exact .inr (mem_skip.2 ⟨held, Nat.not_lt.1 passed⟩)
  have offered {α : Type} (start : Nat) (data : Bytes) (result : Except Refusal α) :
      offset < (tape.offered start data result).cursor ∨
        offset ∈ (tape.offered start data result).bytes.offsets := by
    cases result with
    | ok _ => exact known.imp id fun held => mem_write.2 (.inl held)
    | error _ => exact known
  cases call with
  | request request =>
      cases request with
      | ingest start data => exact offered start data answer
      | read count => exact read count
      | take count => exact read count
      | stats => exact known
  | ingestSigned start data => exact offered start.toNat data answer
  | drain count => exact read _
  | limits => exact known
  | covers at_ => exact known

end Tape

namespace Buffer

variable {buffer : Buffer} (sound : buffer.Sound)

include sound

/-- The bytes of an accepted chunk are held, or were passed. -/
theorem Sound.known_ingest {offset : Nat} {data : Bytes}
    (accepted : (buffer.ingest offset data).result = .ok ()) :
    (buffer.ingest offset data).state.Known (.ofData offset data) := by
  intro other within
  have tape := sound.tape_ingest accepted
  have cursor : (buffer.ingest offset data).state.cursor = buffer.cursor :=
    congrArg Tape.cursor tape
  rw [cursor]
  by_cases passed : other < buffer.cursor
  · exact .inl passed
  · apply Or.inr
    show other ∈ (buffer.ingest offset data).state.tape.bytes.offsets
    rw [tape]
    exact Tape.mem_write.2 (.inr ⟨Finset.mem_Ico.1 within, Nat.not_lt.1 passed⟩)

theorem Sound.known_perform {chunk : Chunk} (known : buffer.Known chunk) (call : Call) :
    (buffer.perform call).state.Known chunk := by
  intro offset within
  have follows := sound.perform call
  have there : offset < buffer.tape.cursor ∨ offset ∈ buffer.tape.bytes.offsets :=
    known offset within
  have kept := Tape.known_follow there call (buffer.perform call).result
  rw [← follows.tape] at kept
  exact kept

/-- A chunk that has arrived has arrived for good. -/
theorem Sound.known_run {chunk : Chunk} (known : buffer.Known chunk) (calls : List Call) :
    (buffer.run calls).state.Known chunk := by
  induction calls generalizing buffer with
  | nil => exact known
  | cons call calls ih => exact ih (sound.perform call).sound (sound.known_perform known call)

/-- **What became of a chunk that was taken**: it was refused and changed nothing, or its bytes
are held or were passed. -/
theorem Sound.fate_of_taken {taken before behind : List Service.Serving} {one : Service.Serving}
    (split : taken = before ++ one :: behind) {offset : Nat} {data : Bytes}
    (chunk : one.request = .ingest offset data) :
    let answer := (buffer.served before).reply one.request
    (∃ refusal, answer = .error refusal ∧
        buffer.served (before ++ [one]) = buffer.served before) ∨
      answer = .ok .done ∧ (buffer.served taken).Known (.ofData offset data) := by
  obtain ⟨id, request, present⟩ := one
  cases chunk
  have earlier : (buffer.served before).Sound := (sound.run _).sound
  have after : buffer.served (before ++ [⟨id, .ingest offset data, present⟩]) =
      ((buffer.served before).ingest offset data).state :=
    served_append buffer before _
  intro answer
  have answered : answer =
      ((buffer.served before).ingest offset data).result.map fun _ => .done := rfl
  cases fared : ((buffer.served before).ingest offset data).result with
  | error refusal =>
      rw [fared] at answered
      refine .inl ⟨refusal, answered, ?_⟩
      rw [after, earlier.state_of_refused fared]
  | ok _ =>
      rw [fared] at answered
      refine .inr ⟨answered, ?_⟩
      have arrived := earlier.known_ingest fared
      have whole : taken = (before ++ [⟨id, .ingest offset data, present⟩]) ++ behind := by
        rw [split, List.append_assoc]
        rfl
      rw [whole, served_append, after]
      exact (earlier.ingest offset data).known_run arrived _

end Buffer

namespace Service

/-! ## Rest -/

/-- A service that was started has nothing left to do. -/
def Rested (service : Service) : Prop :=
  (service.phase = .running ∨ service.phase = .ended) ∧ service.turn.state = service

section Rest

variable {service : Service}

theorem rested_of_ended (ended : service.phase = .ended) : service.Rested := by
  refine ⟨.inr ended, ?_⟩
  unfold turn
  rw [ended]

/-- Once it has nothing left to do nothing happens. -/
theorem Rested.turns (rested : service.Rested) (count : Nat) :
    (Service.turns count service).state = service := by
  induction count with
  | zero => rfl
  | succ count ih =>
      show (Service.turns count service.turn.state).state = service
      rw [rested.2, ih]

/-- A turn ends the service or serves a request, or else there was nothing left to do. -/
theorem turn_cases (running : service.phase = .running) :
    service.turn.state.phase = .ended ∧
        (service.cancelled = true ∨ service.handles = [] ∧ service.pending = []) ∨
      service.turn.state.phase = .running ∧ service.cancelled = false ∧
        service.turn.state.queue.length + 1 = service.queue.length ∨
      service.turn.state = service ∧ service.cancelled = false ∧
        ¬(service.handles = [] ∧ service.pending = []) := by
  have turned := service.turned
  have same : (service.act .turn).state = service.turn.state := rfl
  rw [← same]
  generalize service.act .turn = step at turned
  cases turned with
  | cancelled running told => exact .inl ⟨rfl, .inl told⟩
  | served running going first =>
      refine .inr (.inl ⟨running, going, ?_⟩)
      rw [first]
      rfl
  | abandoned running going nothing gone =>
      exact .inl ⟨rfl, .inr ((deserted_iff service).1 gone)⟩
  | waits running going nothing there =>
      refine .inr (.inr ⟨rfl, going, fun gone => ?_⟩)
      exact absurd (there.symm.trans ((deserted_iff service).2 gone)) nofun
  | still elsewhere => exact absurd running elsewhere

/-- **A service comes to a rest** after one turn for each queued request and one more. -/
theorem rested_turns (running : service.phase = .running) {count : Nat}
    (short : service.queue.length ≤ count) : (turns (count + 1) service).state.Rested := by
  induction count generalizing service with
  | zero =>
      show service.turn.state.Rested
      rcases turn_cases running with ⟨ended, -⟩ | ⟨-, -, served⟩ | ⟨still, -⟩
      · exact rested_of_ended ended
      · omega
      · rw [still]
        exact ⟨.inl running, still⟩
  | succ count ih =>
      show (turns (count + 1) service.turn.state).state.Rested
      rcases turn_cases running with ⟨ended, -⟩ | ⟨further, -, served⟩ | ⟨still, -⟩
      · have rested := rested_of_ended ended
        rw [rested.turns]
        exact rested
      · exact ih further (by omega)
      · have rested : service.Rested := ⟨.inl running, still⟩
        rw [still, rested.turns]
        exact rested

/-- **At rest a service has ended just when it should have.** -/
theorem Rested.ended_iff (rested : service.Rested)
    (gone : service.phase = .ended →
      service.cancelled = true ∨ service.handles = [] ∧ service.pending = []) :
    service.phase = .ended ↔
      service.cancelled = true ∨ service.handles = [] ∧ service.pending = [] := by
  refine ⟨gone, fun should => ?_⟩
  obtain ⟨running | ended, still⟩ := rested
  · have kept := turn_cases running
    rw [still] at kept
    rcases kept with ⟨ended, -⟩ | ⟨-, -, served⟩ | ⟨-, going, there⟩
    · exact ended
    · omega
    · rcases should with told | gone
      · exact absurd (going.symm.trans told) nofun
      · exact absurd gone there
  · exact ended

end Rest

/-! ## The course of a run -/

section Buffers

variable (buffer : Buffer) (cause : StopCause)

theorem stopped_notMem_ingest (offset : Nat) (data : Bytes) :
    .stopped cause ∉ (buffer.ingest offset data).events := by
  have placed (chunk : Chunk) : .stopped cause ∉ (buffer.place chunk).events := by
    unfold Buffer.place
    cases Offset.advance? chunk.offset chunk.length with
    | none => exact List.not_mem_nil
    | some stop =>
        cases chunk.above? buffer.cursor with
        | none => exact List.not_mem_nil
        | some incoming =>
            show .stopped cause ∉ (buffer.accept incoming).events
            unfold Buffer.accept
            dsimp only
            split
            · exact List.not_mem_nil
            · simp [Step.lift, Step.map, Store.apply]
  have reported (length : Nat) (result : Except Refusal MergeOutcome) :
      .stopped cause ∉ Buffer.placementEvents offset length result := by
    cases result with
    | ok outcome =>
        simp only [Buffer.placementEvents]
        split <;> simp
    | error refusal => simp [Buffer.placementEvents]
  unfold Buffer.ingest Buffer.ingestChunk
  split
  · exact List.not_mem_nil
  · exact List.not_mem_append (placed _) (reported _ _)

theorem stopped_notMem_take (count : Nat) : .stopped cause ∉ (buffer.take count).events := by
  have delivered (data : Bytes) : .stopped cause ∉ (buffer.deliver data).events := by
    unfold Buffer.deliver Buffer.advance
    by_cases nothing : data.length = 0
    · simp [nothing]
    · simp [nothing]
  have read (count : Nat) : .stopped cause ∉ (buffer.read count).events := by
    unfold Buffer.read
    split
    · exact List.not_mem_nil
    · exact delivered _
  unfold Buffer.take
  dsimp only
  split
  · exact List.not_mem_nil
  · split
    · exact delivered _
    · exact read _

end Buffers

/-- Serving a request does not stop the service. -/
theorem stopped_notMem_serve (service : Service) (id : Nat) (request : Request)
    (cause : StopCause) : .stopped cause ∉ (service.serve id request).events := by
  have taken (count : Nat) (reply : Bytes → Reply) :
      .stopped cause ∉ (service.serveBytes id count reply).events := by
    rw [events_serveBytes]
    split
    · exact stopped_notMem_take service.buffer cause count
    · exact List.not_mem_nil
  cases request with
  | ingest offset data =>
      intro stopped
      rcases List.mem_append.1 stopped with inside | outside
      · exact stopped_notMem_ingest service.buffer cause offset data inside
      · cases fared : (service.buffer.ingest offset data).result with
        | ok _ => simp [fared, Desk.report] at outside
        | error refusal => simp [fared, Desk.report] at outside
  | read count => exact taken count .filled
  | take count => exact taken count .taken
  | stats => exact List.not_mem_nil

/-- Without a handle and a caller nobody comes any more. -/
theorem deserted_act {service : Service} (gone : service.handles = [] ∧ service.pending = [])
    {act : Act} (others : act ≠ .turn) (kept : act ≠ .discard) :
    (service.act act).state.handles = [] ∧ (service.act act).state.pending = [] := by
  obtain ⟨nowhere, nobody⟩ := gone
  cases act with
  | turn => exact absurd rfl others
  | discard => exact absurd rfl kept
  | send handle request => simp [act, nowhere, nobody]
  | enter id => simp [act, enter, nowhere, nobody]
  | collect id => simp [act, answer?, nowhere, nobody]
  | abandon id => simp [act, caller?, nowhere, nobody]
  | openHandle handle => simp [act, nowhere, nobody]
  | closeHandle handle => simp [act, closeHandle, nowhere, nobody]
  | start =>
      show service.start.handles = [] ∧ service.start.pending = []
      unfold start
      split
      · exact ⟨nowhere, nobody⟩
      · exact ⟨nowhere, nobody⟩
  | cancel => exact ⟨nowhere, nobody⟩

/-- Nothing enters the queue of a closed service. -/
theorem Acted.entered_of_closed {start : Buffer} {history : History} {service after : Service}
    {outcome : Outcome} (acted : Acted service outcome after)
    (ledger : Ledger start history service) (closed : service.closed = true) :
    (history.add outcome).entered = history.entered := by
  cases acted with
  | quiet silent begun lasting handles opened => rw [silent]
  | entered found waits room =>
      have going := ledger.unanswered found (.inl waits)
      exact absurd (going.symm.trans closed) nofun
  | _ => rfl

theorem closed_of_ended {service : Service} (ended : service.phase = .ended) :
    service.closed = true := by
  rw [closed, ended]

/-- The end of a service as its history and its events show it. -/
structure Course (history : History) (service : Service) (events : List Event) : Prop where
  gone : service.phase = .ended →
    service.cancelled = true ∨ service.handles = [] ∧ service.pending = []
  stopped : service.phase = .ended ↔ ∃ cause, .stopped cause ∈ events
  abandoned : service.phase = .ended → service.cancelled = false → .stopped .abandoned ∈ events
  drained : .stopped .abandoned ∈ events → history.entered = history.commands

section Course

variable {start : Buffer} {history : History} {service : Service} {events : List Event}
  (course : Course history service events)

include course

theorem Course.unstopped (going : service.phase ≠ .ended) (cause : StopCause) :
    .stopped cause ∉ events := fun stopped => going (course.stopped.2 ⟨cause, stopped⟩)

theorem Course.turn (ledger : Ledger start history service) :
    Course (history.add (service.act .turn).result) (service.act .turn).state
      (events ++ (service.act .turn).events) := by
  have turned := service.turned
  generalize service.act .turn = step at turned
  -- A running service has not stopped yet.
  have earlier (running : service.phase = .running) (cause : StopCause) :
      .stopped cause ∉ events :=
    course.unstopped (running.symm ▸ nofun) cause
  cases turned with
  | cancelled running told =>
      refine ⟨fun _ => .inl told, ?_, fun _ going => ?_, fun stopped => ?_⟩
      · exact iff_of_true rfl ⟨_, List.mem_append_right _ (List.mem_singleton_self _)⟩
      · exact absurd (going.symm.trans told) nofun
      · rcases List.mem_append.1 stopped with before | now
        · exact absurd before (earlier running _)
        · cases List.mem_singleton.1 now
  | @served id request rest running going first =>
      have unstopped (cause : StopCause) : .stopped cause ∉
          events ++ (({ service with queue := rest } : Service).serve id request).events :=
        List.not_mem_append (earlier running cause) (stopped_notMem_serve _ _ _ cause)
      have further : ¬service.phase = .ended := by
        rw [running]
        exact nofun
      refine ⟨fun ended => absurd ended further, ?_, fun ended => absurd ended further, ?_⟩
      · exact iff_of_false further fun ⟨cause, stopped⟩ => unstopped cause stopped
      · exact fun stopped => absurd stopped (unstopped _)
  | abandoned running going nothing gone =>
      obtain ⟨nowhere, nobody⟩ := (deserted_iff service).1 gone
      refine ⟨fun _ => .inr ⟨nowhere, ?_⟩, ?_, fun _ _ => ?_, fun _ => ?_⟩
      · show service.pending.map _ = []
        rw [nobody]
        rfl
      · exact iff_of_true rfl ⟨_, List.mem_append_right _ (List.mem_singleton_self _)⟩
      · exact List.mem_append_right _ (List.mem_singleton_self _)
      · -- Nothing is queued, so whatever entered was taken.
        have queued := ledger.opened (by rw [closed, running])
        rw [nothing, List.append_nil] at queued
        exact queued
  | waits running going nothing there =>
      rw [List.append_nil]
      exact course
  | still elsewhere =>
      rw [List.append_nil]
      exact course

theorem Course.discard :
    Course (history.add (service.act .discard).result) (service.act .discard).state
      (events ++ (service.act .discard).events) := by
  by_cases fresh : service.phase = .unstarted
  · have unstopped (cause : StopCause) : .stopped cause ∉ events ++ service.buffer.release := by
      apply List.not_mem_append (course.unstopped (fresh.symm ▸ nofun) cause)
      intro released
      rw [Buffer.release] at released
      split at released
      · cases released
      · cases List.mem_singleton.1 released
    rw [act_discard_of_unstarted fresh]
    refine ⟨nofun, ?_, nofun, fun stopped => absurd stopped (unstopped _)⟩
    exact iff_of_false nofun fun ⟨cause, stopped⟩ => unstopped cause stopped
  · rw [act_discard_of_begun fresh, List.append_nil]
    exact course

theorem Course.quiet (ledger : Ledger start history service) {act : Act} (others : act ≠ .turn)
    (kept : act ≠ .discard) :
    Course (history.add (service.act act).result) (service.act act).state
      (events ++ (service.act act).events) := by
  have quiet := quiet_act service others kept
  have acted := service.acted act
  have ended_iff : (service.act act).state.phase = .ended ↔ service.phase = .ended := by
    rcases quiet.phase with same | ⟨-, fresh, begun⟩
    · rw [same]
    · rw [fresh, begun]
      exact iff_of_false nofun nofun
  have lasting : service.cancelled = true → (service.act act).state.cancelled = true :=
    fun told => (acted.still told history).1
  rw [quiet.events, List.append_nil]
  refine ⟨fun ended => ?_, ended_iff.trans course.stopped, fun ended going => ?_, fun stopped => ?_⟩
  · exact (course.gone (ended_iff.1 ended)).imp lasting fun gone => deserted_act gone others kept
  · apply course.abandoned (ended_iff.1 ended)
    cases told : service.cancelled with
    | false => rfl
    | true => exact absurd (going.symm.trans (lasting told)) nofun
  · have ended := course.stopped.2 ⟨_, stopped⟩
    rw [acted.entered_of_closed ledger (closed_of_ended ended), course.drained stopped,
      History.commands, History.commands, quiet.taken]

end Course

theorem course_play (buffer : Buffer) (capacity : Nat) (acts : List Act) :
    let done := (unstarted buffer capacity).play acts
    Course (historyOf done.result) done.state done.events := by
  induction acts using List.reverseRecOn with
  | nil =>
      have silent : ¬∃ cause, Event.stopped cause ∈ ([] : List Event) :=
        fun ⟨_, stopped⟩ => nomatch stopped
      exact ⟨nofun, iff_of_false nofun silent, nofun, nofun⟩
  | append_singleton acts act ih =>
      have ledger := ledger_play buffer capacity acts
      rw [play_concat]
      show Course (historyOf (_ ++ [_])) _ _
      rw [historyOf_concat]
      by_cases turns : act = .turn
      · rw [turns]
        exact ih.turn ledger
      by_cases discards : act = .discard
      · rw [discards]
        exact ih.discard
      · exact ih.quiet ledger turns discards

/-! ## Thrown away, or never started -/

/-- A service begins and ends once. -/
theorem phase_cases (service : Service) (act : Act) :
    (service.act act).state.phase = service.phase ∨
      act = .start ∧ service.phase = .unstarted ∧ (service.act act).state.phase = .running ∨
      act = .discard ∧ service.phase = .unstarted ∧ (service.act act).state.phase = .discarded ∨
      act = .turn ∧ service.phase = .running ∧ (service.act act).state.phase = .ended := by
  by_cases turns : act = .turn
  · subst turns
    by_cases running : service.phase = .running
    · rcases turn_cases running with ⟨ended, -⟩ | ⟨further, -⟩ | ⟨still, -⟩
      · exact .inr (.inr (.inr ⟨rfl, running, ended⟩))
      · exact .inl (further.trans running.symm)
      · exact .inl (congrArg Service.phase still)
    · apply Or.inl
      have turned := service.turned
      generalize service.act .turn = step at turned
      cases turned with
      | still elsewhere => rfl
      | cancelled at_ => exact absurd at_ running
      | served at_ => exact absurd at_ running
      | abandoned at_ => exact absurd at_ running
      | waits at_ => exact absurd at_ running
  by_cases discards : act = .discard
  · subst discards
    by_cases fresh : service.phase = .unstarted
    · refine .inr (.inr (.inl ⟨rfl, fresh, ?_⟩))
      rw [act_discard_of_unstarted fresh]
      rfl
    · rw [act_discard_of_begun fresh]
      exact .inl rfl
  · rcases (quiet_act service turns discards).phase with same | started
    · exact .inl same
    · exact .inr (.inl started)

theorem discarded_iff (buffer : Buffer) (capacity : Nat) (acts : List Act) :
    ((unstarted buffer capacity).play acts).state.phase = .discarded ↔
      ∃ before after, acts = before ++ .discard :: after ∧
        ((unstarted buffer capacity).play before).state.phase = .unstarted := by
  constructor
  · intro thrown
    induction acts using List.reverseRecOn with
    | nil => cases thrown
    | append_singleton acts act ih =>
        rw [play_concat] at thrown
        rcases phase_cases ((unstarted buffer capacity).play acts).state act with
          same | ⟨-, -, begun⟩ | ⟨rfl, fresh, -⟩ | ⟨-, -, ended⟩
        · obtain ⟨before, after, rfl, fresh⟩ := ih (same.symm.trans thrown)
          exact ⟨before, after ++ [act], by rw [List.append_assoc, List.cons_append], fresh⟩
        · exact absurd (begun.symm.trans thrown) nofun
        · exact ⟨acts, [], rfl, fresh⟩
        · exact absurd (ended.symm.trans thrown) nofun
  · rintro ⟨before, after, rfl, fresh⟩
    induction after using List.reverseRecOn with
    | nil =>
        rw [play_concat, act_discard_of_unstarted fresh]
        rfl
    | append_singleton after act ih =>
        have split : before ++ .discard :: (after ++ [act]) =
            (before ++ .discard :: after) ++ [act] := by
          rw [List.append_assoc, List.cons_append]
        rw [split, play_concat]
        rcases phase_cases
            ((unstarted buffer capacity).play (before ++ .discard :: after)).state act with
          same | ⟨-, begun, -⟩ | ⟨-, begun, -⟩ | ⟨-, running, -⟩
        · exact same.trans ih
        · exact absurd (begun.symm.trans ih) nofun
        · exact absurd (begun.symm.trans ih) nofun
        · exact absurd (running.symm.trans ih) nofun

/-- Without a start a service waits for its start, or was thrown away. -/
theorem phase_of_unstarted (buffer : Buffer) (capacity : Nat) {acts : List Act}
    (never : .start ∉ acts) :
    ((unstarted buffer capacity).play acts).state.phase = .unstarted ∨
      ((unstarted buffer capacity).play acts).state.phase = .discarded := by
  induction acts using List.reverseRecOn with
  | nil => exact .inl rfl
  | append_singleton acts act ih =>
      rw [List.mem_append, not_or, List.mem_singleton] at never
      have earlier := ih never.1
      rw [play_concat]
      rcases phase_cases ((unstarted buffer capacity).play acts).state act with
        same | ⟨rfl, -⟩ | ⟨-, -, thrown⟩ | ⟨-, running, -⟩
      · rw [same]
        exact earlier
      · exact absurd rfl never.2
      · exact .inr thrown
      · rw [running] at earlier
        rcases earlier with waits | thrown
        · cases waits
        · cases thrown

theorem closed_iff {service : Service} :
    service.closed = true ↔ service.phase = .ended ∨ service.phase = .discarded := by
  unfold closed
  cases service.phase <;> simp

theorem play_turns (service : Service) (count : Nat) :
    (service.play (List.replicate count .turn)).state = (turns count service).state := by
  induction count generalizing service with
  | zero => rfl
  | succ count ih => exact ih service.turn.state

/-! ## The end -/

/-- **A service ends exactly when it should, and serves what is queued before.** -/
theorem play_ends (limits : Limits) (calls : List Buffer.Call) (capacity : Nat)
    (acts : List Act) :
    let start := ((Buffer.fresh limits).run calls).state
    let done := (unstarted start capacity).play acts
    let past := historyOf done.result
    let gone := done.state.handles = [] ∧ done.state.pending = []
    -- With nothing left to do it has ended if it was told to or is deserted, and only then;
    -- and it only has to be let go on for as long as it has something to do.
    (done.state.Rested → (done.state.phase = .ended ↔ done.state.cancelled = true ∨ gone)) ∧
      (done.state.phase = .running →
        ((unstarted start capacity).play
          (acts ++ List.replicate (done.state.queue.length + 1) .turn)).state.Rested) ∧
      -- If it ended without being told to, it had taken all that ever entered the queue.
      (done.state.phase = .ended → done.state.cancelled = false →
        .stopped .abandoned ∈ done.events) ∧
      (.stopped .abandoned ∈ done.events →
        done.state.returned? = some done.state.buffer ∧ past.entered = past.commands ∧
          -- Of each chunk the bytes are held or were passed, or it was refused.
          ∀ id offset data, (id, .ingest offset data) ∈ past.entered →
            ∃ before one behind, past.taken = before ++ one :: behind ∧
              one.command = (id, .ingest offset data) ∧
              ((∃ refusal, (start.served before).reply one.request = .error refusal ∧
                  start.served (before ++ [one]) = start.served before) ∨
                (start.served before).reply one.request = .ok .done ∧
                  done.state.buffer.Known (.ofData offset data))) ∧
      -- It is closed just when it stopped or was thrown away before it was started.
      (done.state.closed = true ↔
        (∃ cause, .stopped cause ∈ done.events) ∨
          ∃ before after, acts = before ++ .discard :: after ∧
            ((unstarted start capacity).play before).state.phase = .unstarted) ∧
      -- Without a start it never stops, whatever becomes of its handles.
      (.start ∉ acts →
        done.state.phase ≠ .ended ∧ (∀ cause, .stopped cause ∉ done.events) ∧
          (.discard ∉ acts → done.state.closed = false)) := by
  intro start done past gone
  have sound : start.Sound := (Buffer.follows_fresh limits calls).sound
  have ledger : Ledger start past done.state := ledger_play start capacity acts
  have course : Course past done.state done.events := course_play start capacity acts
  refine ⟨fun rested => rested.ended_iff course.gone, fun running => ?_, course.abandoned,
    fun stopped => ⟨?_, course.drained stopped, fun id offset data entered => ?_⟩, ?_,
    fun never => ?_⟩
  · rw [state_play_append, play_turns]
    exact rested_turns running (Nat.le_refl _)
  · exact if_pos (course.stopped.2 ⟨_, stopped⟩)
  · rw [course.drained stopped] at entered
    obtain ⟨one, member, own⟩ := List.mem_map.1 entered
    obtain ⟨before, behind, split⟩ := List.append_of_mem member
    have chunk : one.request = .ingest offset data := congrArg Prod.snd own
    refine ⟨before, one, behind, split, own, ?_⟩
    have fate := sound.fate_of_taken split chunk
    rw [← ledger.buffer] at fate
    exact fate
  · rw [closed_iff, course.stopped, discarded_iff]
  · have waits := phase_of_unstarted start capacity never
    have going : done.state.phase ≠ .ended := by
      intro ended
      rcases waits with fresh | thrown
      · exact absurd (fresh.symm.trans ended) nofun
      · exact absurd (thrown.symm.trans ended) nofun
    refine ⟨going, course.unstopped going, fun kept => ?_⟩
    rcases waits with fresh | thrown
    · show done.state.closed = false
      rw [closed, show done.state.phase = .unstarted from fresh]
    · obtain ⟨before, after, rfl, -⟩ := (discarded_iff start capacity acts).1 thrown
      exact absurd (List.mem_append_right _ List.mem_cons_self) kept

/-- A chunk whose sender has left is still taken after the last handle was closed, and the
service waits until the reader behind it has its answer. -/
theorem play_ends_deserted :
    let acts : List Act :=
      [.send 0 (.ingest 0 [1, 2]), .enter 0, .send 0 (.read 1), .enter 1, .abandon 0,
        .closeHandle 0, .start, .turn, .turn, .turn]
    let waiting := (unstarted (.fresh {}) 2).play acts
    let done := (unstarted (.fresh {}) 2).play (acts ++ [.collect 1, .turn])
    let past := historyOf done.result
    waiting.state.Rested ∧ waiting.state.phase ≠ .ended ∧ done.state.Rested ∧
      done.state.phase = .ended ∧ .stopped .abandoned ∈ done.events ∧
      past.entered = past.commands ∧ done.state.buffer.stats = ⟨1, 1, 1, 1⟩ ∧
      done.state.closed = true := by
  intro acts waiting done past
  obtain ⟨ends, -⟩ := play_ends {} [] 2 acts
  obtain ⟨-, -, -, drained, closed, -⟩ := play_ends {} [] 2 (acts ++ [.collect 1, .turn])
  have running : waiting.state.phase = .running := by decide
  have resting : waiting.state.Rested := ⟨.inl running, rfl⟩
  have asking : waiting.state.pending ≠ [] := by decide
  have ended : done.state.phase = .ended := by decide
  have stopped : .stopped .abandoned ∈ done.events := by decide
  obtain ⟨-, all, -⟩ := drained stopped
  refine ⟨resting, fun early => ?_, rested_of_ended ended, ended, stopped, all, by decide,
    closed.2 (.inl ⟨_, stopped⟩)⟩
  rcases (ends resting).1 early with told | ⟨-, nobody⟩
  · exact absurd told (by decide)
  · exact absurd nobody asking

end Service

end Gapless
