/-
# Gapless.Refusal -- why a chunk or a request is turned away

A chunk is refused for its own sake (`ArgumentFault`: its range is no range of the
offset space) or for the sake of the buffer it was sent to (`Refusal`: a limit
would be passed, or nobody is left to take it).  Every refusal belongs to one
`Reason`, the class under which refusals are counted, and has one wording.
-/

namespace Gapless

set_option autoImplicit false

/-- A fault in the range a caller asks for. -/
inductive ArgumentFault where
  | negativeOffset (offset : Int)
  | rangeOverflow (offset length : Nat)
  deriving DecidableEq

inductive Refusal where
  | invalidArgument (fault : ArgumentFault)
  /-- Accepting would make `attempted` bytes stored, past the `limit`. -/
  | bufferLimit (attempted limit : Nat)
  /-- Accepting would make `attempted` segments stored, past the `limit`. -/
  | segmentLimit (attempted limit : Nat)
  /-- Nobody serves requests any more. -/
  | closed
  deriving DecidableEq

/-- The class under which a refusal is counted. -/
inductive Reason where
  | invalidArgument
  | bufferLimit
  | segmentLimit
  | closed
  deriving DecidableEq

namespace ArgumentFault

def message : ArgumentFault → String
  | .negativeOffset offset => s!"stream offset {offset} is negative"
  | .rangeOverflow offset length =>
      s!"chunk of {length} bytes at offset {offset} overflows the stream offset space"

end ArgumentFault

namespace Refusal

def reason : Refusal → Reason
  | .invalidArgument _ => .invalidArgument
  | .bufferLimit _ _ => .bufferLimit
  | .segmentLimit _ _ => .segmentLimit
  | .closed => .closed

def message : Refusal → String
  | .invalidArgument fault => "invalid argument: " ++ fault.message
  | .bufferLimit attempted limit =>
      s!"buffered bytes would reach {attempted}, exceeding the limit of {limit}"
  | .segmentLimit attempted limit =>
      s!"segment count would reach {attempted}, exceeding the limit of {limit}"
  | .closed => "reassembly actor closed"

end Refusal

namespace Reason

/-- The word that stands for the class wherever refusals are counted. -/
def label : Reason → String
  | .invalidArgument => "invalid_argument"
  | .bufferLimit => "buffer_limit"
  | .segmentLimit => "segment_limit"
  | .closed => "closed"

def all : List Reason := [.invalidArgument, .bufferLimit, .segmentLimit, .closed]

end Reason

/-! ## Results -/

section Results

variable {α β ε : Type} {f : α → β} {wrap : Refusal → ε} {result : Except Refusal α}

theorem error_of_map {refusal : Refusal} (mapped : result.map f = .error refusal) :
    result = .error refusal := by
  cases result with
  | error same => exact congrArg Except.error (Except.error.inj mapped)
  | ok value => cases mapped

theorem ok_of_map {value : β} (mapped : result.map f = .ok value) :
    ∃ before, result = .ok before ∧ f before = value := by
  cases result with
  | error refusal => cases mapped
  | ok before => exact ⟨before, rfl, Except.ok.inj mapped⟩

theorem error_of_mapError {fault : ε} (mapped : result.mapError wrap = .error fault) :
    ∃ refusal, result = .error refusal ∧ wrap refusal = fault := by
  cases result with
  | error refusal => exact ⟨refusal, rfl, Except.error.inj mapped⟩
  | ok value => cases mapped

theorem ok_of_mapError {value : α} (mapped : result.mapError wrap = .ok value) :
    result = .ok value := by
  cases result with
  | error refusal => cases mapped
  | ok same => exact congrArg Except.ok (Except.ok.inj mapped)

end Results

end Gapless
