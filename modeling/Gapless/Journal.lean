/-
# Gapless.Journal -- what an operation reports besides its result

Every operation of the library returns a `Step`: the state it leaves, its result,
and the events it caused, in the order in which they happened.  Two readings of a
list of events are printed.  `Event.record?` is the line an event writes to the
log, if any; `Metrics` (in `Gapless.Metrics`) adds up the counts.

A run of many operations is `Step.each`: results side by side, events one after
another.
-/
import Gapless.Refusal

namespace Gapless

set_option autoImplicit false

/-! ## Events -/

/-- The front end that reports on a chunk it was handed. -/
inductive Desk where
  | shared
  | service
  deriving DecidableEq

/-- Why a service stopped. -/
inductive StopCause where
  | cancelled
  | abandoned
  deriving DecidableEq

inductive Event where
  /-- Segments were merged into `[start, stop)`, which took in `absorbed` stored ones. -/
  | merged (start stop absorbed : Nat)
  /-- An accepted chunk brought no byte that was not known. -/
  | redundant (offset length : Nat)
  /-- A chunk of `length` bytes was accepted: `overlap` of them were known, `added` are new. -/
  | accepted (length overlap added : Nat)
  | refused (reason : Reason)
  /-- Bytes were handed to a reader. -/
  | delivered (count : Nat)
  /-- Bytes went away unread with the buffer that held them. -/
  | released (count : Nat)
  /-- A front end finished with a chunk. -/
  | reported (desk : Desk) (offset length : Nat) (refusal : Option Refusal)
  | stopped (cause : StopCause)
  /-- Bytes were taken for a reader that was gone when they were sent to it. -/
  | discarded (count : Nat)
  | replayed (chunks reads cursor : Nat)
  deriving DecidableEq

/-! ## Log records -/

inductive Level where
  | trace
  | debug
  | info
  | warn
  | error
  deriving DecidableEq

namespace Level

def label : Level → String
  | .trace => "TRACE"
  | .debug => "DEBUG"
  | .info => "INFO"
  | .warn => "WARN"
  | .error => "ERROR"

end Level

structure LogRecord where
  level : Level
  target : String
  message : String
  deriving DecidableEq

namespace LogRecord

/-- The record as a line of text. -/
def line (record : LogRecord) : String :=
  s!"{record.level.label} {record.target}: {record.message}"

end LogRecord

namespace Desk

def target : Desk → String
  | .shared => "stream_reassembly::reassembly::shared"
  | .service => "stream_reassembly::actor"

/-- How a desk reports on a chunk that was tried. -/
def report (desk : Desk) (offset length : Nat) : Except Refusal Unit → List Event
  | .ok () => [.reported desk offset length none]
  | .error refusal => [.reported desk offset length (some refusal)]

end Desk

namespace StopCause

def message : StopCause → String
  | .cancelled => "reassembly actor cancelled"
  | .abandoned => "all reassembly handles dropped"

end StopCause

namespace Event

/-- What an event writes to the log; counts alone write nothing. -/
def record? : Event → Option LogRecord
  | .merged start stop absorbed => some
      { level := .trace, target := "stream_reassembly::reassembly::index"
        message := s!"merged segment [{start}, {stop}) absorbing {absorbed} stored segment(s)" }
  | .redundant offset length => some
      { level := .debug, target := "stream_reassembly::reassembly::buffer"
        message := s!"chunk of {length} bytes at offset {offset} carried no new data" }
  | .reported desk offset length none => some
      { level := .debug, target := desk.target
        message := s!"chunk ingested offset={offset} len={length}" }
  | .reported desk offset length (some refusal) => some
      { level := .warn, target := desk.target
        message := s!"chunk rejected offset={offset} len={length} error={refusal.message}" }
  | .stopped cause => some
      { level := .debug, target := Desk.service.target, message := cause.message }
  | .discarded count => some
      { level := .warn, target := Desk.service.target
        message := s!"read reply dropped, delivered bytes discarded len={count}" }
  | .replayed chunks reads cursor => some
      { level := .debug, target := "stream_reassembly::replay"
        message := s!"replayed {chunks} chunks in {reads} reads, cursor now {cursor}" }
  | .accepted .. | .refused _ | .delivered _ | .released _ => none

end Event

def logOf (events : List Event) : List LogRecord := events.filterMap Event.record?

/-! ## Steps -/

/-- What an operation leaves behind. -/
structure Step (σ α : Type) where
  state : σ
  result : α
  events : List Event := []

namespace Step

variable {σ τ α β ι : Type}

def map (f : α → β) (step : Step σ α) : Step σ β :=
  ⟨step.state, f step.result, step.events⟩

/-- The same step seen from a state that the old one is part of. -/
def lift (f : σ → τ) (step : Step σ α) : Step τ α :=
  ⟨f step.state, step.result, step.events⟩

/-- Report more events after those of the step. -/
def reporting (step : Step σ α) (events : List Event) : Step σ α :=
  ⟨step.state, step.result, step.events ++ events⟩

/-- Go on from where a step ended. -/
def andThen (first : Step σ α) (next : σ → α → Step σ β) : Step σ β :=
  let second := next first.state first.result
  ⟨second.state, second.result, first.events ++ second.events⟩

/-- One operation after another, one for each item. -/
def each (act : σ → ι → Step σ α) (state : σ) : List ι → Step σ (List α)
  | [] => ⟨state, [], []⟩
  | item :: items =>
      (act state item).andThen fun state result =>
        (each act state items).map (result :: ·)

theorem each_append (act : σ → ι → Step σ α) (state : σ) (items more : List ι) :
    each act state (items ++ more) =
      (each act state items).andThen fun state results =>
        (each act state more).map (results ++ ·) := by
  induction items generalizing state with
  | nil => simp [each, andThen, map]
  | cons item items ih => simp [each, andThen, map, ih]

end Step

end Gapless
