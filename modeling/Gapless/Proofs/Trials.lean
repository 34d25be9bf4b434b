/-
# Gapless.Proofs.Trials -- what a chunk leaves in the log and in the totals

What a chunk leaves in the log comes from three sides.  The store logs a merge, the buffer logs a
chunk that brought nothing new, and the front end reports on every chunk it was handed, on an
empty one as well.  The totals are kept by the buffer alone, which looks at no empty chunk.

All of it is known from the trials of a run: the chunks that were tried, each with the buffer that
it met (`Buffer.trials`).  The log tells of each of them in its own way (`Trial.told`), and
whatever becomes of a chunk, the totals count a refusal and the bytes of an accepted chunk when
the report does (`Trial.logged`).  Calls that bring no chunk add to neither
(`Buffer.logged_of_none`).
-/
import Gapless.Proofs.Totals

namespace Gapless

set_option autoImplicit false

/-! ## Events about chunks -/

namespace Event

/-- Whether an event tells of a chunk, in the log or in the totals. -/
def onChunk : Event → Bool
  | .merged .. | .redundant .. | .accepted .. | .refused _ | .reported .. => true
  | .delivered _ | .released _ | .stopped _ | .discarded _ | .replayed .. => false

/-- Whether an event is a line of the log about a chunk. -/
def tells : Event → Bool
  | .merged .. | .redundant .. | .reported .. => true
  | .accepted .. | .refused _ | .delivered _ | .released _ => false
  | .stopped _ | .discarded _ | .replayed .. => false

/-- Whether a front end reports on a chunk. -/
def reports : Event → Bool
  | .reported .. => true
  | _ => false

/-- Whether the log has it that a chunk was rejected. -/
def rejects : Event → Bool
  | .reported _ _ _ (some _) => true
  | _ => false

/-- The bytes that the log has as ingested. -/
def ingestedBytes : Event → Nat
  | .reported _ _ length none => length
  | _ => 0

/-- Whether the totals count a refusal. -/
def refuses : Event → Bool
  | .refused _ => true
  | _ => false

/-- The bytes that the totals count as ingested. -/
def acceptedBytes : Event → Nat
  | .accepted length _ _ => length
  | _ => 0

/-- The bytes that the totals count as overlap. -/
def overlapBytes : Event → Nat
  | .accepted _ overlap _ => overlap
  | _ => 0

end Event

/-! ## Totals of events -/

namespace Metrics

/-- The refusals of all reasons. -/
def refusals (metrics : Metrics) : Nat := totalOf metrics.refused Reason.all

theorem note_eq (metrics : Metrics) (event : Event) :
    (metrics.note event).ingested = metrics.ingested + event.acceptedBytes ∧
      (metrics.note event).overlap = metrics.overlap + event.overlapBytes ∧
      (metrics.note event).refusals = metrics.refusals + [event].countP Event.refuses := by
  have moved (totals : Metrics) (amount : Int) :
      (totals.shift amount).ingested = totals.ingested ∧
        (totals.shift amount).overlap = totals.overlap ∧
        (totals.shift amount).refusals = totals.refusals := by
    obtain ⟨held, same, -⟩ := totals.shift_eq amount
    rw [same]
    exact ⟨rfl, rfl, rfl⟩
  cases event with
  | accepted length overlap added => exact moved _ _
  | refused reason =>
      refine ⟨rfl, rfl, ?_⟩
      cases reason <;> simp [refusals, note, Reason.all, totalOf, Event.refuses] <;> omega
  | delivered count => exact moved _ _
  | released count => exact moved _ _
  | merged | redundant | reported | stopped | discarded | replayed => exact ⟨rfl, rfl, rfl⟩

/-- Events add up. -/
theorem after_eq (metrics : Metrics) (events : List Event) :
    (metrics.after events).ingested = metrics.ingested + totalOf Event.acceptedBytes events ∧
      (metrics.after events).overlap = metrics.overlap + totalOf Event.overlapBytes events ∧
      (metrics.after events).refusals = metrics.refusals + events.countP Event.refuses := by
  induction events generalizing metrics with
  | nil => exact ⟨rfl, rfl, rfl⟩
  | cons event events ih =>
      obtain ⟨ingested, overlap, refusals⟩ := metrics.note_eq event
      obtain ⟨moreIngested, moreOverlap, moreRefusals⟩ := ih (metrics.note event)
      have counted : (event :: events).countP Event.refuses =
          [event].countP Event.refuses + events.countP Event.refuses := by
        rw [← List.countP_append]
        rfl
      rw [totalOf, totalOf, counted]
      exact ⟨by rw [← Nat.add_assoc, ← ingested]; exact moreIngested,
        by rw [← Nat.add_assoc, ← overlap]; exact moreOverlap,
        by rw [← Nat.add_assoc, ← refusals]; exact moreRefusals⟩

end Metrics

/-! ## Trials -/

/-- Why something is refused; `none` when it is not. -/
def refusal? {α : Type} : Except Refusal α → Option Refusal
  | .ok _ => none
  | .error refusal => some refusal

theorem refusal?_map {α β : Type} (f : α → β) (result : Except Refusal α) :
    refusal? (result.map f) = refusal? result := by
  cases result <;> rfl

/-- A chunk that is tried on a buffer. -/
structure Trial where
  buffer : Buffer
  offset : Nat
  data : Bytes

namespace Trial

variable (trial : Trial)

def step : Step Buffer (Except Refusal Unit) := trial.buffer.ingest trial.offset trial.data

def refusal? : Option Refusal := Gapless.refusal? trial.step.result

/-- The chunk is accepted and has bytes, and the totals count all of them as overlap. -/
def Redundant : Prop :=
  trial.refusal? = none ∧ trial.data ≠ [] ∧
    ∀ metrics : Metrics,
      (metrics.after trial.step.events).overlap = metrics.overlap + trial.data.length

/-- The chunk is accepted and has bytes, and not all of them lie below the cursor. -/
def Merges : Prop :=
  trial.refusal? = none ∧ trial.data ≠ [] ∧
    trial.buffer.cursor < trial.offset + trial.data.length

theorem redundant_iff : trial.Redundant ↔
    trial.refusal? = none ∧ trial.data ≠ [] ∧
      totalOf Event.overlapBytes trial.step.events = trial.data.length := by
  refine and_congr_right fun _ => and_congr_right fun _ => ?_
  constructor
  · intro counts
    have fresh := counts {}
    rw [((Metrics.after_eq {}) _).2.1] at fresh
    exact Nat.add_left_cancel fresh
  · intro counts metrics
    rw [(metrics.after_eq _).2.1, counts]

instance : Decidable trial.Redundant := decidable_of_iff _ trial.redundant_iff.symm

instance : Decidable trial.Merges := inferInstanceAs (Decidable (_ ∧ _ ∧ _))

/-- The merge that the part of the chunk above the cursor asks for. -/
def merge : Merge :=
  trial.buffer.store.planMerge (trial.buffer.arriving trial.offset trial.data)

/-- What a desk reports of a trial. -/
def report (desk : Desk) : Event :=
  .reported desk trial.offset trial.data.length trial.refusal?

theorem report_desk (desk : Desk) :
    desk.report trial.offset trial.data.length trial.step.result = [trial.report desk] := by
  unfold report refusal?
  cases trial.step.result <;> rfl

/-- What the log tells of a trial. -/
def told (desk : Desk) : List Event :=
  (if trial.Merges then
      [.merged trial.merge.start trial.merge.stop trial.merge.absorbed.length] else []) ++
    ((if trial.Redundant then [.redundant trial.offset trial.data.length] else []) ++
      [trial.report desk])

end Trial

/-- The trial that a call makes. -/
def Buffer.Call.trial? (buffer : Buffer) : Buffer.Call → Option Trial
  | .request (.ingest offset data) => some { buffer, offset, data }
  | _ => none

/-- The trials of a run of calls. -/
def Buffer.trials (buffer : Buffer) : List Buffer.Call → List Trial
  | [] => []
  | call :: calls => (call.trial? buffer).toList ++ (buffer.perform call).state.trials calls

theorem Buffer.trials_append (buffer : Buffer) (calls more : List Buffer.Call) :
    buffer.trials (calls ++ more) =
      buffer.trials calls ++ (buffer.run calls).state.trials more := by
  induction calls generalizing buffer with
  | nil => rfl
  | cons call calls ih =>
      rw [List.cons_append, trials, trials, ih, List.append_assoc]
      rfl

/-! ## Logs -/

/-- The log tells of these trials, and it agrees with what the totals count. -/
structure Logged (desk : Desk) (trials : List Trial) (events : List Event) : Prop where
  told : events.filter Event.tells = trials.flatMap (·.told desk)
  refused : events.countP Event.refuses = events.countP Event.rejects
  accepted : totalOf Event.acceptedBytes events = totalOf Event.ingestedBytes events

/-- The log and the totals tell the same of these trials. -/
structure Agrees (desk : Desk) (trials : List Trial) (events : List Event) : Prop where
  /-- This is all that the log tells of chunks, in this order. -/
  told : events.filter Event.tells = trials.flatMap (·.told desk)
  reported : events.filter Event.reports = trials.map (·.report desk)
  rejected : events.countP Event.rejects = (Metrics.ofEvents events).refusals
  ingested : totalOf Event.ingestedBytes events = (Metrics.ofEvents events).ingested

namespace Logged

variable {desk : Desk} {trials more : List Trial} {events further : List Event}

/-- Events that are about no chunk. -/
theorem silent (silent : ∀ event ∈ events, event.onChunk = false) : Logged desk [] events := by
  induction events with
  | nil => exact ⟨rfl, rfl, rfl⟩
  | cons event events ih =>
      obtain ⟨first, rest⟩ := List.forall_mem_cons.1 silent
      obtain ⟨told, refused, accepted⟩ := ih rest
      cases event with
      | merged | redundant | accepted | refused | reported => simp [Event.onChunk] at first
      | delivered | released | stopped | discarded | replayed =>
          refine ⟨told, refused, ?_⟩
          simpa [totalOf, Event.acceptedBytes, Event.ingestedBytes] using accepted

theorem append (logged : Logged desk trials events) (rest : Logged desk more further) :
    Logged desk (trials ++ more) (events ++ further) where
  told := by rw [List.filter_append, List.flatMap_append, logged.told, rest.told]
  refused := by rw [List.countP_append, List.countP_append, logged.refused, rest.refused]
  accepted := by
    rw [totalOf_append, totalOf_append, logged.accepted, rest.accepted]

/-- There is one report on each chunk. -/
theorem reported (logged : Logged desk trials events) :
    events.filter Event.reports = trials.map (·.report desk) := by
  have within : events.filter Event.reports =
      (events.filter Event.tells).filter Event.reports := by
    rw [List.filter_filter]
    apply List.filter_congr
    intro event _
    cases event <;> rfl
  have single (trial : Trial) : (trial.told desk).filter Event.reports = [trial.report desk] := by
    unfold Trial.told
    split <;> split <;> rfl
  rw [within, logged.told, List.filter_flatMap, List.map_eq_flatMap]
  simp only [single]

theorem agrees (logged : Logged desk trials events) : Agrees desk trials events := by
  obtain ⟨ingested, -, refusals⟩ := Metrics.after_eq {} events
  refine ⟨logged.told, logged.reported, ?_, ?_⟩
  · rw [← logged.refused]
    exact (refusals.trans (Nat.zero_add _)).symm
  · rw [← logged.accepted]
    exact (ingested.trans (Nat.zero_add _)).symm

end Logged

/-! ## Chunks -/

/-- What is told of a chunk that was accepted, by the figures of its outcome. -/
theorem placement_told (offset length : Nat) (outcome : MergeOutcome) :
    let events := Buffer.placementEvents offset length (.ok outcome)
    events.filter Event.tells = (if outcome.added = 0 then [.redundant offset length] else []) ∧
      events.countP Event.refuses = 0 ∧ events.countP Event.rejects = 0 ∧
      totalOf Event.acceptedBytes events = length ∧
      totalOf Event.ingestedBytes events = 0 ∧
      totalOf Event.overlapBytes events = outcome.overlap := by
  by_cases known : outcome.added = 0 <;>
    simp [Buffer.placementEvents, known, List.filter_cons, Event.tells, Event.refuses,
      Event.rejects, totalOf, Event.acceptedBytes, Event.ingestedBytes, Event.overlapBytes]

namespace Trial

variable (trial : Trial) (desk : Desk)

/-- A refused chunk leaves the refusal, in the totals and in the log. -/
theorem logged_refused {refusal : Refusal}
    (same : trial.step = ⟨trial.buffer, .error refusal, [.refused refusal.reason]⟩) :
    Logged desk [trial] (trial.step.events ++ [trial.report desk]) := by
  have refused : trial.refusal? = some refusal := by
    rw [refusal?, same]
    rfl
  have told : trial.told desk = [trial.report desk] := by
    simp [told, Merges, Redundant, refused]
  rw [same]
  refine ⟨?_, ?_, ?_⟩
  · simp [told, report, Event.tells, List.filter_cons]
  · simp [report, refused, List.countP_cons, Event.refuses, Event.rejects]
  · simp [report, refused, totalOf, Event.acceptedBytes, Event.ingestedBytes]

/-- An accepted chunk leaves its figures in the totals.  The log tells that it was merged, if it
was, and that it was redundant, if no byte was new. -/
theorem logged_accepted {merges : List Event} {outcome : MergeOutcome}
    (accepted : trial.refusal? = none) (nonempty : trial.data ≠ [])
    (events : trial.step.events =
      merges ++ Buffer.placementEvents trial.offset trial.data.length (.ok outcome))
    (whole : outcome.overlap + outcome.added = trial.data.length)
    (merged : merges = if trial.buffer.cursor < trial.offset + trial.data.length then
      [.merged trial.merge.start trial.merge.stop trial.merge.absorbed.length] else []) :
    Logged desk [trial] (trial.step.events ++ [trial.report desk]) := by
  obtain ⟨placed, refuses, rejects, accepts, ingests, overlaps⟩ :=
    placement_told trial.offset trial.data.length outcome
  have silent : merges.filter Event.tells = merges ∧ merges.countP Event.refuses = 0 ∧
      merges.countP Event.rejects = 0 ∧ totalOf Event.acceptedBytes merges = 0 ∧
      totalOf Event.ingestedBytes merges = 0 ∧ totalOf Event.overlapBytes merges = 0 := by
    rw [merged]
    split <;> exact ⟨rfl, rfl, rfl, rfl, rfl, rfl⟩
  have redundant : trial.Redundant ↔ outcome.added = 0 := by
    rw [redundant_iff, events]
    simp [totalOf_append, accepted, nonempty, silent, overlaps]
    omega
  have mergesIff : trial.Merges ↔ trial.buffer.cursor < trial.offset + trial.data.length := by
    simp [Merges, accepted, nonempty]
  have told : trial.told desk = merges ++
      ((if outcome.added = 0 then [.redundant trial.offset trial.data.length] else []) ++
        [trial.report desk]) := by
    simp only [told, mergesIff, redundant, merged]
  rw [events]
  refine ⟨?_, ?_, ?_⟩
  · simp [told, silent, placed, report, Event.tells]
  · simp [silent, refuses, rejects, report, accepted, Event.refuses, Event.rejects]
  · simp [totalOf_append, totalOf, silent, accepts, ingests, report, accepted,
      Event.acceptedBytes, Event.ingestedBytes]

/-- **What is told of a chunk**, however it fares. -/
theorem logged (sound : trial.buffer.Sound) :
    Logged desk [trial] (trial.step.events ++
      desk.report trial.offset trial.data.length trial.step.result) := by
  have fared : Buffer.Ingested trial.buffer trial.offset trial.data trial.step :=
    Buffer.ingest_cases sound.store.separated trial.offset trial.data
  rw [report_desk]
  have accepted (taken : trial.step.result = .ok ()) : trial.refusal? = none := by
    rw [refusal?, taken]
    rfl
  generalize same : trial.step = outcome at fared
  rw [same] at accepted
  rw [← same]
  cases fared with
  | empty nothing =>
      have told : trial.told desk = [trial.report desk] := by
        simp [told, Merges, Redundant, nothing]
      rw [same]
      refine ⟨?_, ?_, ?_⟩
      · simp [told, report, Event.tells]
      · simp [report, accepted rfl, Event.refuses, Event.rejects]
      · simp [report, accepted rfl, nothing, totalOf, Event.acceptedBytes, Event.ingestedBytes]
  | overflow nonempty beyond => exact trial.logged_refused desk same
  | late nonempty fits passed =>
      have events : trial.step.events = [] ++ Buffer.placementEvents trial.offset trial.data.length
          (.ok ⟨0, trial.data.length, 0⟩) := by
        rw [same]
        rfl
      refine trial.logged_accepted desk (accepted rfl) nonempty events (Nat.add_zero _) ?_
      rw [if_neg (Nat.not_lt.2 passed)]
  | refused nonempty fits news refusal check => exact trial.logged_refused desk same
  | stored nonempty fits news check =>
      obtain ⟨grown, bound, added, overlap⟩ := sound.result_inserting news
      refine trial.logged_accepted desk (accepted rfl) nonempty (by rw [same]) ?_ ?_
      · dsimp only
        omega
      · rw [if_pos news]
        rfl

end Trial

/-! ## Other calls -/

namespace Buffer

/-- Handing out bytes is about no chunk. -/
theorem silent_deliver (buffer : Buffer) (data : Bytes) :
    ∀ event ∈ (buffer.deliver data).events, event.onChunk = false := by
  rw [events_deliver]
  split <;> simp [Event.onChunk]

theorem silent_read (buffer : Buffer) (count : Nat) :
    ∀ event ∈ (buffer.read count).events, event.onChunk = false := by
  unfold read
  split
  · simp
  · exact buffer.silent_deliver _

theorem silent_take (buffer : Buffer) (count : Nat) :
    ∀ event ∈ (buffer.take count).events, event.onChunk = false := by
  unfold take
  dsimp only
  split
  · simp
  · split
    · exact buffer.silent_deliver _
    · exact buffer.silent_read _

theorem silent_drainRounds (count rounds : Nat) (buffer : Buffer) :
    ∀ event ∈ (drainRounds count rounds buffer).events, event.onChunk = false := by
  induction rounds generalizing buffer with
  | zero => simp [drainRounds]
  | succ rounds ih =>
      intro event member
      rcases List.mem_append.1 member with first | later
      · exact buffer.silent_read count event first
      · dsimp only at later
        split at later
        · cases later
        · exact ih _ event later

/-- A call that brings no chunk is about none. -/
theorem silent_perform (buffer : Buffer) {call : Call} (brings : call.chunk? = none) :
    ∀ event ∈ (buffer.perform call).events, event.onChunk = false := by
  cases call with
  | request request =>
      cases request with
      | ingest offset data => cases brings
      | read count => exact buffer.silent_read count
      | take count => exact buffer.silent_take count
      | stats => simp [perform, answer]
  | ingestSigned offset data => cases brings
  | drain count => exact silent_drainRounds count _ buffer
  | limits => simp [perform]
  | covers offset => simp [perform]

theorem trials_of_none (buffer : Buffer) {calls : List Call}
    (bring : ∀ call ∈ calls, call.chunk? = none) : buffer.trials calls = [] := by
  induction calls generalizing buffer with
  | nil => rfl
  | cons call calls ih =>
      obtain ⟨first, rest⟩ := List.forall_mem_cons.1 bring
      have missing : call.trial? buffer = none := by
        unfold Call.trial?
        split
        · cases first
        · rfl
      rw [trials, missing, ih _ rest]
      rfl

theorem silent_run (buffer : Buffer) {calls : List Call}
    (bring : ∀ call ∈ calls, call.chunk? = none) :
    ∀ event ∈ (buffer.run calls).events, event.onChunk = false := by
  induction calls generalizing buffer with
  | nil => simp [run, Step.each]
  | cons call calls ih =>
      obtain ⟨first, rest⟩ := List.forall_mem_cons.1 bring
      intro event member
      rcases List.mem_append.1 member with here | later
      · exact buffer.silent_perform first event here
      · exact ih _ rest event later

/-- Calls that bring no chunk leave nothing in the log about one. -/
theorem logged_of_none (buffer : Buffer) (desk : Desk) {calls : List Call}
    (bring : ∀ call ∈ calls, call.chunk? = none) :
    Logged desk (buffer.trials calls) (buffer.run calls).events := by
  rw [buffer.trials_of_none bring]
  exact .silent (buffer.silent_run bring)

end Buffer

end Gapless
