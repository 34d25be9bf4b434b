/-
# Gapless.Proofs.Handles -- what a buffer behind handles goes through

Every use of a handle asks some calls of the buffer (`Shared.Call.asks`), and the buffer
answers them one after another before any other handle can reach it.  The front end adds
reports to the events and nothing to the totals.

So a run of uses is a run of calls (`Shared.run_mirrors`), with the answers to them in the
results (`Shared.Told`).  A holder that breaks off tells no answer, but the buffer went
through all of its calls.  The lock that it leaves poisoned gives everybody after it the
same buffer (`Shared.held_eq`), so that they are answered as if it were not.
-/
import Gapless.Sharing
import Gapless.Proofs.Reordering

namespace Gapless

set_option autoImplicit false

namespace Shared

/-! ## What is asked of the buffer -/

def Call.asks : Call → List Buffer.Call
  | .request one => [.request one]
  | .exclusive calls | .aborting calls => calls
  | .lanes sent => Buffer.offers sent.flatten
  | .describe | .openHandle | .closeHandle => []

/-- The number of handles after a call; the last one stays. -/
def Call.handlesAfter (handles : Nat) : Call → Nat
  | .openHandle => handles + 1
  | .closeHandle => if handles ≤ 1 then handles else handles - 1
  | .request _ | .exclusive _ | .aborting _ | .lanes _ | .describe => handles

/-- Whether the holder breaks off. -/
def Call.breaks : Call → Bool
  | .aborting _ => true
  | .request _ | .exclusive _ | .lanes _ | .describe | .openHandle | .closeHandle => false

/-- What the uses of handles ask of the buffer when there are so many handles at first.
Nothing can be asked through a handle that is not there. -/
def asked : Nat → List (Nat × Call) → List Buffer.Call
  | _, [] => []
  | handles, (handle, call) :: uses =>
      if handles ≤ handle then asked handles uses
      else call.asks ++ asked (call.handlesAfter handles) uses

/-! ## What is told of the answers -/

/-- The result of a call through one of so many handles, from the answers to what it asked. -/
inductive Call.Tells (handles : Nat) : Call → List Answer → Result → Prop
  | request {request : Request} (answer : Answer) :
      Tells handles (.request request) [answer] (.answer answer)
  | exclusive {calls : List Buffer.Call} (answers : List Answer) :
      Tells handles (.exclusive calls) answers (.answers answers)
  | aborting {calls : List Buffer.Call} (answers : List Answer) :
      Tells handles (.aborting calls) answers .aborted
  | lanes {lanes : List (List (Nat × Bytes))} {results : List (List (Except Refusal Unit))}
      (shape : results.map List.length = lanes.map List.length) :
      Tells handles (.lanes lanes) (results.flatten.map (·.map fun _ => .done)) (.lanes results)
  | describe : Tells handles .describe [] (.description description)
  | openHandle : Tells handles .openHandle [] (.handles (handles + 1))
  | closeHandle :
      Tells handles .closeHandle [] (if handles ≤ 1 then .noHandle else .handles (handles - 1))

/-- The results of uses, each from its own part of the answers. -/
inductive Told : Nat → List (Nat × Call) → List Answer → List Result → Prop
  | done {handles : Nat} : Told handles [] [] []
  | missed {handles handle : Nat} {call : Call} {uses : List (Nat × Call)}
      {answers : List Answer} {results : List Result} (missing : handles ≤ handle)
      (rest : Told handles uses answers results) :
      Told handles ((handle, call) :: uses) answers (.noHandle :: results)
  | called {handles handle : Nat} {call : Call} {uses : List (Nat × Call)}
      {own answers : List Answer} {result : Result} {results : List Result}
      (opened : handle < handles) (tells : call.Tells handles own result)
      (rest : Told (call.handlesAfter handles) uses answers results) :
      Told handles ((handle, call) :: uses) (own ++ answers) (result :: results)

/-! ## One use -/

/-- A step behind handles does to the buffer what these calls do, and counts for as much;
the answers to them are the ones told. -/
structure Mirrors {α : Type} (shared : Shared) (step : Step Shared α) (calls : List Buffer.Call)
    (told : List Answer) : Prop where
  state : step.state = { shared with buffer := (shared.buffer.run calls).state }
  told : told = (shared.buffer.run calls).result
  counts : ∀ metrics : Metrics,
    metrics.after step.events = metrics.after (shared.buffer.run calls).events

theorem mirrors_ingest (shared : Shared) (offset : Nat) (data : Bytes) :
    Mirrors shared (shared.ingest offset data) [.request (.ingest offset data)]
      [(shared.ingest offset data).result.map fun _ => .done] := by
  rw [ingest_eq]
  refine ⟨rfl, rfl, fun metrics => ?_⟩
  · show metrics.after ((shared.buffer.ingest offset data).events ++ _) =
      metrics.after ((shared.buffer.ingest offset data).events ++ [])
    rw [Metrics.after_append, Metrics.after_report, List.append_nil]

theorem mirrors_answer (shared : Shared) (request : Request) :
    Mirrors shared (shared.answer request) [.request request] [(shared.answer request).result] := by
  have alone (one : Request) (same : shared.answer one = shared.holding (·.answer one)) :
      Mirrors shared (shared.answer one) [.request one] [(shared.answer one).result] := by
    rw [same, holding_eq]
    refine ⟨rfl, rfl, fun metrics => ?_⟩
    show _ = metrics.after ((shared.buffer.answer one).events ++ [])
    rw [List.append_nil]
    rfl
  cases request with
  | ingest offset data =>
      have mirrors := shared.mirrors_ingest offset data
      exact ⟨mirrors.state, mirrors.told, mirrors.counts⟩
  | read count => exact alone (.read count) rfl
  | take count => exact alone (.take count) rfl
  | stats => exact alone .stats rfl

namespace Mirrors

variable {α β : Type} {shared : Shared} {calls more : List Buffer.Call}
  {told further : List Answer} {step : Step Shared α}

theorem map (mirrors : Mirrors shared step calls told) (f : α → β) :
    Mirrors shared (step.map f) calls told :=
  { mirrors with }

/-- One thing after another mirrors the calls one after another. -/
theorem andThen {next : Shared → α → Step Shared β} (first : Mirrors shared step calls told)
    (rest : Mirrors step.state (next step.state step.result) more further) :
    Mirrors shared (step.andThen next) (calls ++ more) (told ++ further) := by
  have buffer : step.state.buffer = (shared.buffer.run calls).state := by rw [first.state]
  have handles : step.state.handles = shared.handles := by rw [first.state]
  have poisoned : step.state.poisoned = shared.poisoned := by rw [first.state]
  have state := rest.state
  have answers := rest.told
  have counts := rest.counts
  rw [buffer] at state answers counts
  rw [handles, poisoned] at state
  refine ⟨?_, ?_, fun metrics => ?_⟩
  · rw [Buffer.run_append]
    exact state
  · rw [Buffer.run_append, first.told, answers]
    rfl
  · rw [Buffer.run_append]
    show metrics.after (step.events ++ _) = metrics.after (_ ++ _)
    rw [Metrics.after_append, Metrics.after_append, first.counts]
    exact counts _

end Mirrors

/-- A run of steps that mirror calls. -/
theorem mirrors_each {ι α : Type} {act : Shared → ι → Step Shared α}
    {calls : ι → List Buffer.Call} {told : α → List Answer}
    (one : ∀ shared item,
      Mirrors shared (act shared item) (calls item) (told (act shared item).result))
    (shared : Shared) (items : List ι) :
    Mirrors shared (Step.each act shared items) (items.flatMap calls)
      ((Step.each act shared items).result.flatMap told) := by
  induction items generalizing shared with
  | nil => exact ⟨rfl, rfl, fun _ => rfl⟩
  | cons item items ih =>
      rw [List.flatMap_cons]
      exact (one shared item).andThen ((ih (act shared item).state).map _)

theorem mirrors_lane (shared : Shared) (lane : List (Nat × Bytes)) :
    Mirrors shared (shared.ingestLane lane) (Buffer.offers lane)
      ((shared.ingestLane lane).result.map (·.map fun _ => .done)) := by
  have chunk (shared : Shared) (chunk : Nat × Bytes) := shared.mirrors_ingest chunk.1 chunk.2
  rw [Buffer.offers, List.map_eq_flatMap, List.map_eq_flatMap]
  exact mirrors_each chunk shared lane

theorem mirrors_lanes (shared : Shared) (lanes : List (List (Nat × Bytes))) :
    Mirrors shared (Step.each ingestLane shared lanes) (Buffer.offers lanes.flatten)
      ((Step.each ingestLane shared lanes).result.flatten.map (·.map fun _ => .done)) := by
  rw [Buffer.offers, List.map_flatten, List.map_flatten, ← List.flatMap_def, ← List.flatMap_def]
  exact mirrors_each mirrors_lane shared lanes

theorem length_each {σ ι α : Type} (act : σ → ι → Step σ α) (state : σ) (items : List ι) :
    (Step.each act state items).result.length = items.length := by
  induction items generalizing state with
  | nil => rfl
  | cons item items ih => exact congrArg (· + 1) (ih _)

/-- Every chunk of every lane has its own result. -/
theorem shape_lanes (shared : Shared) (lanes : List (List (Nat × Bytes))) :
    (Step.each ingestLane shared lanes).result.map List.length = lanes.map List.length := by
  induction lanes generalizing shared with
  | nil => rfl
  | cons lane lanes ih =>
      show _ :: _ = _ :: _
      rw [List.cons.injEq]
      exact ⟨length_each _ shared lane, ih _⟩

/-! ## Runs of uses -/

/-- A call through a handle that is there asks its calls, and tells the answers to them. -/
theorem perform_opened (shared : Shared) {handle : Nat} (opened : handle < shared.handles)
    (call : Call) :
    let step := shared.perform handle call
    let alone := shared.buffer.run call.asks
    step.state =
        ⟨alone.state, call.handlesAfter shared.handles, call.breaks || shared.poisoned⟩ ∧
      call.Tells shared.handles alone.result step.result ∧
      ∀ metrics : Metrics, metrics.after step.events = metrics.after alone.events := by
  intro step alone
  have there : ¬shared.handles ≤ handle := Nat.not_le.2 opened
  unfold step alone perform
  rw [if_neg there]
  cases call with
  | request request =>
      have mirrors := shared.mirrors_answer request
      refine ⟨mirrors.state, ?_, mirrors.counts⟩
      rw [Call.asks, ← mirrors.told]
      exact .request _
  | exclusive calls =>
      dsimp only
      rw [holding_eq]
      exact ⟨rfl, .exclusive _, fun _ => rfl⟩
  | aborting calls =>
      dsimp only
      rw [breaking_eq]
      exact ⟨rfl, .aborting _, fun _ => rfl⟩
  | lanes lanes =>
      have mirrors := shared.mirrors_lanes lanes
      refine ⟨mirrors.state, ?_, mirrors.counts⟩
      rw [Call.asks, ← mirrors.told]
      exact .lanes (shared.shape_lanes lanes)
  | describe => exact ⟨rfl, .describe, fun _ => rfl⟩
  | openHandle => exact ⟨rfl, .openHandle, fun _ => rfl⟩
  | closeHandle =>
      have tells : Call.Tells shared.handles .closeHandle []
          (if shared.handles ≤ 1 then .noHandle else .handles (shared.handles - 1)) :=
        .closeHandle
      by_cases last : shared.handles ≤ 1
      · rw [if_pos last] at tells
        simp only [Call.handlesAfter, if_pos last]
        exact ⟨rfl, tells, fun _ => rfl⟩
      · rw [if_neg last] at tells
        simp only [Call.handlesAfter, if_neg last]
        exact ⟨rfl, tells, fun _ => rfl⟩

/-- One use of a handle after another. -/
def run (shared : Shared) (uses : List (Nat × Call)) : Step Shared (List Result) :=
  Step.each (fun shared (handle, call) => shared.perform handle call) shared uses

theorem run_cons (shared : Shared) (handle : Nat) (call : Call) (uses : List (Nat × Call)) :
    shared.run ((handle, call) :: uses) =
      (shared.perform handle call).andThen fun after result =>
        (after.run uses).map (result :: ·) := rfl

/-- **A run of uses is a run of calls.** -/
theorem run_mirrors (shared : Shared) (uses : List (Nat × Call)) :
    let done := shared.run uses
    let alone := shared.buffer.run (asked shared.handles uses)
    done.state.buffer = alone.state ∧ Told shared.handles uses alone.result done.result ∧
      ∀ metrics : Metrics, metrics.after done.events = metrics.after alone.events := by
  induction uses generalizing shared with
  | nil => exact ⟨rfl, .done, fun _ => rfl⟩
  | cons use uses ih =>
      obtain ⟨handle, call⟩ := use
      rw [run_cons]
      by_cases missing : shared.handles ≤ handle
      · have nothing : shared.perform handle call = ⟨shared, .noHandle, []⟩ := if_pos missing
        obtain ⟨state, told, counts⟩ := ih shared
        simp only [asked, if_pos missing, nothing]
        exact ⟨state, .missed missing told, counts⟩
      · have opened := Nat.not_le.1 missing
        obtain ⟨first, tells, counts⟩ := shared.perform_opened opened call
        generalize shared.perform handle call = step at first tells counts
        obtain ⟨after, result, events⟩ := step
        cases first
        obtain ⟨state, told, further⟩ := ih ⟨_, call.handlesAfter shared.handles, _⟩
        simp only [asked, if_neg missing, Buffer.run_append]
        refine ⟨state, .called opened tells told, fun metrics => ?_⟩
        show metrics.after (events ++ _) = metrics.after (_ ++ _)
        rw [Metrics.after_append, Metrics.after_append, counts]
        exact further _

end Shared

end Gapless
