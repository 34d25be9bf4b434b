/-
# Gapless.Proofs.Turning -- the events of a service

Callers and the holders of handles cause no events (`quiet_act`).  A turn goes in one
of five ways (`Turned`), each with its guard, its outcome and its events, and a service that
is thrown away releases what its buffer holds.

What serving a request counts for is what the buffer alone would count for it
(`after_serve`), and so the totals of a run are those of what was taken
(`charges_play`).
-/
import Gapless.Proofs.Bookkeeping
import Gapless.Proofs.Handles
import Mathlib.Data.List.Induction

namespace Gapless.Service

set_option autoImplicit false

/-! ## Runs from their end -/

theorem play_concat (service : Service) (acts : List Act) (act : Act) :
    service.play (acts ++ [act]) =
      { state := ((service.play acts).state.act act).state
        result := (service.play acts).result ++ [((service.play acts).state.act act).result]
        events := (service.play acts).events ++ ((service.play acts).state.act act).events } := by
  rw [play_append]
  simp only [play, Step.each, Step.andThen, Step.map, List.append_nil]

theorem state_play_append (service : Service) (acts more : List Act) :
    (service.play (acts ++ more)).state = ((service.play acts).state.play more).state := by
  rw [play_append]
  rfl

theorem historyOf_concat (outcomes : List Outcome) (outcome : Outcome) :
    historyOf (outcomes ++ [outcome]) = (historyOf outcomes).add outcome :=
  historyOf_append outcomes [outcome]

/-! ## Turns -/

theorem deserted_iff (service : Service) :
    service.deserted = true ↔ service.handles = [] ∧ service.pending = [] := by
  rw [deserted, Bool.and_eq_true, List.isEmpty_iff, List.isEmpty_iff]

/-- The ways in which a turn can go. -/
inductive Turned (service : Service) : Step Service Outcome → Prop
  | cancelled (running : service.phase = .running) (told : service.cancelled = true) :
      Turned service ⟨service.close .ended, .silent, [.stopped .cancelled]⟩
  | served {id : Nat} {request : Request} {rest : List (Nat × Request)}
      (running : service.phase = .running) (going : service.cancelled = false)
      (first : service.queue = (id, request) :: rest) :
      Turned service
        { state := { service.setStage id (.answered (service.buffer.reply request)) with
            buffer := service.buffer.served [⟨id, request, service.present id⟩]
            queue := rest }
          result := .served id request (service.present id)
          events := (({ service with queue := rest } : Service).serve id request).events }
  | abandoned (running : service.phase = .running) (going : service.cancelled = false)
      (nothing : service.queue = []) (gone : service.deserted = true) :
      Turned service ⟨service.close .ended, .silent, [.stopped .abandoned]⟩
  | waits (running : service.phase = .running) (going : service.cancelled = false)
      (nothing : service.queue = []) (there : service.deserted = false) :
      Turned service ⟨service, .silent, []⟩
  | still (elsewhere : service.phase ≠ .running) : Turned service ⟨service, .silent, []⟩

/-- **Every turn goes in one of these ways.** -/
theorem turned (service : Service) : Turned service (service.act .turn) := by
  by_cases running : service.phase = .running
  · cases told : service.cancelled with
    | true =>
        simp only [act, turn, next?, running, told, if_true, Step.map]
        exact .cancelled running told
    | false =>
        cases first : service.queue with
        | nil =>
            cases gone : service.deserted with
            | true =>
                simp only [act, turn, proceed, next?, running, told, first, gone, Step.map,
                  List.head?_nil, Bool.false_eq_true, if_false, if_true]
                exact .abandoned running told first gone
            | false =>
                simp only [act, turn, proceed, next?, running, told, first, gone, Step.map,
                  List.head?_nil, Bool.false_eq_true, if_false]
                exact .waits running told first gone
        | cons command rest =>
            have served := Turned.served running told first
            rw [act, turn_of_queued running told first, next?_of_queued running told first]
            dsimp only [Step.map]
            rw [state_serve]
            exact served
  · have still : service.act .turn = ⟨service, .silent, []⟩ := by
      cases at_ : service.phase with
      | running => exact absurd at_ running
      | unstarted => simp only [act, turn, next?, at_, Step.map]
      | ended => simp only [act, turn, next?, at_, Step.map]
      | discarded => simp only [act, turn, next?, at_, Step.map]
    rw [still]
    exact .still running

/-! ## Everything else -/

/-- Entering the queue concerns the queue and the pending requests only. -/
theorem enter_eq (service : Service) (id : Nat) :
    ∃ queue pending, service.enter id = { service with queue, pending } := by
  unfold enter
  split
  · split
    · exact ⟨_, _, rfl⟩
    · exact ⟨_, _, rfl⟩
  · exact ⟨_, _, rfl⟩

/-- An act of a caller or of the holder of a handle: it takes nothing from the queue, causes
no events, and neither stops the service nor throws it away. -/
structure Quiet (service : Service) (act : Act) (step : Step Service Outcome) : Prop where
  events : step.events = []
  taken : ∀ history : History, (history.add step.result).taken = history.taken
  phase : step.state.phase = service.phase ∨
    act = .start ∧ service.phase = .unstarted ∧ step.state.phase = .running

theorem Quiet.idle (service : Service) (act : Act) {outcome : Outcome}
    (taken : ∀ history : History, (history.add outcome).taken = history.taken) :
    Quiet service act ⟨service, outcome, []⟩ where
  events := rfl
  taken := taken
  phase := .inl rfl

/-- Only turns and throwing the service away are not quiet. -/
theorem quiet_act (service : Service) {act : Act} (others : act ≠ .turn) (kept : act ≠ .discard) :
    Quiet service act (service.act act) := by
  cases act with
  | turn => exact absurd rfl others
  | discard => exact absurd rfl kept
  | send handle request =>
      by_cases opened : handle ∈ service.handles
      · cases asks : unsent? request with
        | some reply =>
            rw [act_send_spared opened asks]
            exact .idle service _ fun _ => rfl
        | none =>
            rw [act_send_asking opened asks]
            exact ⟨rfl, fun _ => rfl, .inl rfl⟩
      · rw [Service.act, if_neg opened]
        exact .idle service _ fun _ => rfl
  | enter id =>
      obtain ⟨queue, pending, same⟩ := service.enter_eq id
      refine ⟨rfl, fun history => ?_, .inl ?_⟩
      · simp only [Service.act]
        cases (service.enter id).queue[service.queue.length]? <;> rfl
      · show (service.enter id).phase = service.phase
        rw [same]
  | collect id =>
      cases has : service.answer? id with
      | some answer =>
          simp only [Service.act, has]
          exact ⟨rfl, fun _ => rfl, .inl rfl⟩
      | none =>
          simp only [Service.act, has]
          exact .idle service _ fun _ => rfl
  | abandon id =>
      cases found : service.caller? id with
      | some caller =>
          simp only [Service.act, found]
          exact ⟨rfl, fun _ => rfl, .inl rfl⟩
      | none =>
          simp only [Service.act, found]
          exact .idle service _ fun _ => rfl
  | openHandle handle =>
      refine ⟨rfl, fun _ => rfl, .inl ?_⟩
      show (if handle ∈ service.handles then service.openHandle else service).phase = _
      split <;> rfl
  | closeHandle handle => exact ⟨rfl, fun _ => rfl, .inl rfl⟩
  | start =>
      refine ⟨rfl, fun _ => rfl, ?_⟩
      by_cases fresh : service.phase = .unstarted
      · have started : service.start = { service with phase := .running } := if_pos fresh
        exact .inr ⟨rfl, fresh, congrArg Service.phase started⟩
      · have started : service.start = service := if_neg fresh
        exact .inl (congrArg Service.phase started)
  | cancel => exact ⟨rfl, fun _ => rfl, .inl rfl⟩

theorem act_discard_of_unstarted {service : Service} (fresh : service.phase = .unstarted) :
    service.act .discard = ⟨service.close .discarded, .silent, service.buffer.release⟩ := by
  simp only [act, discard, fresh, Step.map]

theorem act_discard_of_begun {service : Service} (begun : service.phase ≠ .unstarted) :
    service.act .discard = ⟨service, .silent, []⟩ := by
  cases at_ : service.phase with
  | unstarted => exact absurd at_ begun
  | running => simp only [act, discard, at_, Step.map]
  | ended => simp only [act, discard, at_, Step.map]
  | discarded => simp only [act, discard, at_, Step.map]

/-! ## Totals -/

/-- Serving a request counts for what the buffer alone would count. -/
theorem after_serve (service : Service) (id : Nat) (request : Request) (metrics : Metrics) :
    metrics.after (service.serve id request).events =
      metrics.after
        (service.buffer.run (Serving.call? ⟨id, request, service.present id⟩).toList).events := by
  have taken (count : Nat) (reply : Bytes → Reply) :
      metrics.after (service.serveBytes id count reply).events =
        metrics.after (service.buffer.run (if service.present id then
          some (Buffer.Call.request (.take count)) else none).toList).events := by
    rw [events_serveBytes]
    split
    · show _ = metrics.after ((service.buffer.take count).events ++ [])
      rw [List.append_nil]
    · rfl
  cases request with
  | ingest offset data =>
      show metrics.after (_ ++ _) = metrics.after ((service.buffer.ingest offset data).events ++ [])
      rw [Metrics.after_append, Metrics.after_report, List.append_nil]
  | read count => exact taken count .filled
  | take count => exact taken count .taken
  | stats => rfl

/-- What was taken in a run, as calls on the buffer. -/
def asked (outcomes : List Outcome) : List Buffer.Call :=
  (historyOf outcomes).taken.filterMap Serving.call?

theorem asked_of_untaken (outcomes : List Outcome) {outcome : Outcome}
    (untaken : ∀ history : History, (history.add outcome).taken = history.taken) :
    asked (outcomes ++ [outcome]) = asked outcomes := by
  unfold asked
  rw [historyOf_concat, untaken]

theorem calls_concat (taken : List Serving) (one : Serving) :
    (taken ++ [one]).filterMap Serving.call? =
      taken.filterMap Serving.call? ++ one.call?.toList := by
  rw [List.filterMap_append]
  cases known : one.call? with
  | none => rw [List.filterMap_cons_none known]; rfl
  | some call => rw [List.filterMap_cons_some known]; rfl

theorem asked_of_served (outcomes : List Outcome) (id : Nat) (request : Request) (present : Bool) :
    asked (outcomes ++ [.served id request present]) =
      asked outcomes ++ (Serving.call? ⟨id, request, present⟩).toList := by
  have taken : (historyOf (outcomes ++ [.served id request present])).taken =
      (historyOf outcomes).taken ++ [⟨id, request, present⟩] := by
    rw [historyOf_concat]
    rfl
  unfold asked
  rw [taken, calls_concat]

/-- A run with these outcomes counts for what was taken in it, and for what the buffer
released if the service was thrown away. -/
def Charges (buffer : Buffer) (phase : Phase) (outcomes : List Outcome) (events : List Event) :
    Prop :=
  let alone := buffer.run (asked outcomes)
  ∀ metrics : Metrics, metrics.after events =
    (metrics.after alone.events).after (if phase = .discarded then alone.state.release else [])

section Charges

variable {buffer : Buffer} {service : Service} {outcomes : List Outcome} {events : List Event}
  (charges : Charges buffer service.phase outcomes events)

include charges

/-- Nothing is taken and nothing released. -/
theorem Charges.idle {phase : Phase} {outcome : Outcome} {more : List Event}
    (free : ∀ metrics : Metrics, metrics.after more = metrics)
    (untaken : ∀ history : History, (history.add outcome).taken = history.taken)
    (kept : phase = .discarded ↔ service.phase = .discarded) :
    Charges buffer phase (outcomes ++ [outcome]) (events ++ more) := by
  intro metrics
  rw [asked_of_untaken _ untaken, Metrics.after_append, free]
  simp only [kept]
  exact charges metrics

theorem Charges.turn (same : service.buffer = (buffer.run (asked outcomes)).state) :
    Charges buffer (service.act .turn).state.phase (outcomes ++ [(service.act .turn).result])
      (events ++ (service.act .turn).events) := by
  have turned := service.turned
  generalize service.act .turn = step at turned
  cases turned with
  | cancelled running told =>
      refine charges.idle (fun _ => rfl) (fun _ => rfl) ?_
      rw [running]
      exact iff_of_false nofun nofun
  | served running going first =>
      have kept : ¬service.phase = .discarded := by
        rw [running]
        exact nofun
      intro metrics
      have before := charges metrics
      rw [if_neg kept] at before
      show metrics.after _ = (metrics.after _).after (if service.phase = .discarded then _ else _)
      rw [asked_of_served, Buffer.run_append, Metrics.after_append, after_serve, before,
        if_neg kept]
      show _ = metrics.after (_ ++ ((buffer.run (asked outcomes)).state.run _).events)
      rw [Metrics.after_append, ← same]
      rfl
  | abandoned running going nothing gone =>
      refine charges.idle (fun _ => rfl) (fun _ => rfl) ?_
      rw [running]
      exact iff_of_false nofun nofun
  | waits running going nothing there => exact charges.idle (fun _ => rfl) (fun _ => rfl) Iff.rfl
  | still elsewhere => exact charges.idle (fun _ => rfl) (fun _ => rfl) Iff.rfl

theorem Charges.discard (same : service.buffer = (buffer.run (asked outcomes)).state) :
    Charges buffer (service.act .discard).state.phase (outcomes ++ [(service.act .discard).result])
      (events ++ (service.act .discard).events) := by
  by_cases fresh : service.phase = .unstarted
  · have kept : ¬service.phase = .discarded := by
      rw [fresh]
      exact nofun
    intro metrics
    have before := charges metrics
    rw [if_neg kept] at before
    rw [act_discard_of_unstarted fresh, asked_of_untaken _ fun _ => rfl, Metrics.after_append,
      before, same]
    exact congrArg (Metrics.after _) (if_pos rfl).symm
  · rw [act_discard_of_begun fresh]
    exact charges.idle (fun _ => rfl) (fun _ => rfl) Iff.rfl

end Charges

/-- **The totals of a run are those of what was taken.** -/
theorem charges_play (buffer : Buffer) (capacity : Nat) (acts : List Act) :
    let done := (unstarted buffer capacity).play acts
    Charges buffer done.state.phase done.result done.events := by
  induction acts using List.reverseRecOn with
  | nil => exact fun _ => rfl
  | append_singleton acts act ih =>
      have ledger := ledger_play buffer capacity acts
      rw [play_concat]
      by_cases turns : act = .turn
      · rw [turns]
        exact ih.turn ledger.buffer
      by_cases discards : act = .discard
      · rw [discards]
        exact ih.discard ledger.buffer
      · have quiet := quiet_act ((unstarted buffer capacity).play acts).state turns discards
        refine ih.idle (fun metrics => ?_) quiet.taken ?_
        · rw [quiet.events]
          rfl
        · rcases quiet.phase with same | ⟨-, fresh, begun⟩
          · rw [same]
          · rw [fresh, begun]
            exact iff_of_false nofun nofun

end Gapless.Service
