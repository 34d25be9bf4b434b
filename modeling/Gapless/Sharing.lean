/-
# Gapless.Sharing -- one buffer behind several handles

Producers and the consumer hold handles to one buffer, which lies behind a lock: each of
them has the buffer to itself while it does one thing.  A handle can also be used to do
several things at once (`exclusive`).

A holder may break off in the middle of that (`aborting`).  It loses its results, what it
did stays, and the lock is poisoned from then on: to lock it is an error, for everybody
and for good.  The error has the buffer in it, and the front end goes on with that
(`held`).  Nothing is ever broken off in the middle of a call, so the buffer is whole.

After every chunk a handle ingests, an empty one included, the front end reports
how it fared.  Chunks ingested by a holder that has the buffer to itself are not
reported.  Several producers can be at work at once; an observer of the thread that
set them to work hears nothing of what they do (`Call.heard`).

Handles are numbered from zero; closing one moves the later ones down.
-/
import Gapless.Buffer.Request

namespace Gapless

set_option autoImplicit false

structure Shared where
  buffer : Buffer
  /-- The number of handles. -/
  handles : Nat := 1
  /-- Whether a holder of the lock has broken off. -/
  poisoned : Bool := false
  deriving DecidableEq

namespace Shared

/-! ## The lock -/

/-- Lock the buffer.  That is an error once a holder has broken off. -/
def lock (shared : Shared) : Except Buffer Buffer :=
  if shared.poisoned then .error shared.buffer else .ok shared.buffer

/-- The buffer that was locked, also when that was an error. -/
def held (shared : Shared) : Buffer :=
  match shared.lock with
  | .ok buffer => buffer
  | .error buffer => buffer

theorem held_eq (shared : Shared) : shared.held = shared.buffer := by
  unfold held lock
  cases shared.poisoned <;> rfl

/-- Do something with the buffer while no other handle can reach it. -/
def holding {α : Type} (shared : Shared) (act : Buffer → Step Buffer α) : Step Shared α :=
  (act shared.held).lift ({ shared with buffer := · })

/-- The same, by a holder that breaks off at the end. -/
def breaking {α : Type} (shared : Shared) (act : Buffer → Step Buffer α) : Step Shared Unit :=
  ((act shared.held).map fun _ => ()).lift ({ shared with buffer := ·, poisoned := true })

theorem holding_eq {α : Type} (shared : Shared) (act : Buffer → Step Buffer α) :
    shared.holding act = (act shared.buffer).lift ({ shared with buffer := · }) := by
  rw [holding, held_eq]

theorem breaking_eq {α : Type} (shared : Shared) (act : Buffer → Step Buffer α) :
    shared.breaking act =
      ((act shared.buffer).map fun _ => ()).lift
        ({ shared with buffer := ·, poisoned := true }) := by
  rw [breaking, held_eq]

/-! ## Calls -/

def ingest (shared : Shared) (offset : Nat) (data : Bytes) : Step Shared (Except Refusal Unit) :=
  let step := shared.holding (·.ingest offset data)
  step.reporting (Desk.shared.report offset data.length step.result)

theorem ingest_eq (shared : Shared) (offset : Nat) (data : Bytes) :
    shared.ingest offset data =
      ((shared.buffer.ingest offset data).reporting
        (Desk.shared.report offset data.length (shared.buffer.ingest offset data).result)).lift
          ({ shared with buffer := · }) := by
  rw [ingest, holding_eq]
  rfl

/-- Do through a handle what a request asks for. -/
def answer (shared : Shared) : Request → Step Shared Answer
  | .ingest offset data => (shared.ingest offset data).map (·.map fun _ => .done)
  | request => shared.holding (·.answer request)

theorem result_answer (shared : Shared) (request : Request) :
    (shared.answer request).result = (shared.buffer.answer request).result := by
  cases request with
  | ingest offset data =>
      rw [answer, ingest_eq]
      rfl
  | read _ | take _ | stats =>
      rw [answer, holding_eq]
      · rfl
      · simp

inductive Call where
  | request (request : Request)
  /-- Do all this while no other handle can reach the buffer. -/
  | exclusive (calls : List Buffer.Call)
  /-- The same, by a holder that breaks off at the end. -/
  | aborting (calls : List Buffer.Call)
  /-- Several producers at once, each ingesting its own chunks. -/
  | lanes (lanes : List (List (Nat × Bytes)))
  | describe
  | openHandle
  | closeHandle
  deriving DecidableEq

inductive Result where
  | answer (answer : Answer)
  | answers (answers : List Answer)
  | aborted
  | lanes (lanes : List (List (Except Refusal Unit)))
  | description (text : String)
  /-- The number of handles there are now. -/
  | handles (count : Nat)
  /-- There is no such handle, or it is the last one and cannot be closed. -/
  | noHandle

/-- What an observer who follows only the calling thread hears of a call: several
producers at once have threads of their own. -/
def Call.heard (call : Call) (events : List Event) : List Event :=
  match call with
  | .lanes _ => []
  | _ => events

/-- Ingest a producer's chunks in turn. -/
def ingestLane (shared : Shared) (lane : List (Nat × Bytes)) :
    Step Shared (List (Except Refusal Unit)) :=
  Step.each (fun shared (offset, data) => shared.ingest offset data) shared lane

/-- All that a handle prints of itself. -/
def description : String := "SharedReassemblyBuffer \x7b .. \x7d"

/-- Do something through the handle with this number. -/
def perform (shared : Shared) (handle : Nat) (call : Call) : Step Shared Result :=
  if shared.handles ≤ handle then ⟨shared, .noHandle, []⟩
  else
    match call with
    | .request request => (shared.answer request).map .answer
    | .exclusive calls => (shared.holding (·.run calls)).map .answers
    | .aborting calls => (shared.breaking (·.run calls)).map fun _ => .aborted
    | .lanes lanes => (Step.each ingestLane shared lanes).map .lanes
    | .describe => ⟨shared, .description description, []⟩
    | .openHandle =>
        ⟨{ shared with handles := shared.handles + 1 }, .handles (shared.handles + 1), []⟩
    | .closeHandle =>
        if shared.handles ≤ 1 then ⟨shared, .noHandle, []⟩
        else ⟨{ shared with handles := shared.handles - 1 }, .handles (shared.handles - 1), []⟩

end Shared

end Gapless
