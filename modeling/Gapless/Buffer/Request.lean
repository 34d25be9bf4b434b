/-
# Gapless.Buffer.Request -- operations as data

A `Request` is what any front end can be asked to do with a buffer; a
`Buffer.Call` is anything that can be asked of a buffer that one holds oneself.
Both are answered by a `Reply` or refused.  A run of calls is the calls one after
another.
-/
import Gapless.Buffer.Ingest
import Gapless.Buffer.Read

namespace Gapless

set_option autoImplicit false

inductive Request where
  | ingest (offset : Nat) (data : Bytes)
  /-- Fill a destination of `count` bytes as far as possible. -/
  | read (count : Nat)
  /-- Take up to `count` bytes. -/
  | take (count : Nat)
  | stats
  deriving DecidableEq

inductive Reply where
  | done
  /-- The bytes that were put into a reader's destination. -/
  | filled (data : Bytes)
  /-- Bytes handed over as they are. -/
  | taken (data : Bytes)
  | drained (pieces : List Bytes)
  | stats (stats : Stats)
  | limits (limits : Limits)
  /-- For each stored segment, whether it covers the offset asked about. -/
  | covered (flags : List Bool)
  deriving DecidableEq

abbrev Answer := Except Refusal Reply

namespace Buffer

/-- Do what a request asks for. -/
def answer (buffer : Buffer) : Request → Step Buffer Answer
  | .ingest offset data => (buffer.ingest offset data).map (·.map fun _ => .done)
  | .read count => (buffer.read count).map (.ok ∘ .filled)
  | .take count => (buffer.take count).map (.ok ∘ .taken)
  | .stats => ⟨buffer, .ok (.stats buffer.stats), []⟩

inductive Call where
  | request (request : Request)
  | ingestSigned (offset : Int) (data : Bytes)
  | drain (count : Nat)
  | limits
  | covers (offset : Nat)
  deriving DecidableEq

def perform (buffer : Buffer) : Call → Step Buffer Answer
  | .request request => buffer.answer request
  | .ingestSigned offset data => (buffer.ingestSigned offset data).map (·.map fun _ => .done)
  | .drain count => (buffer.drain count).map (.ok ∘ .drained)
  | .limits => ⟨buffer, .ok (.limits buffer.limits), []⟩
  | .covers offset => ⟨buffer, .ok (.covered (buffer.store.segments.map (·.covers offset))), []⟩

def run (buffer : Buffer) (calls : List Call) : Step Buffer (List Answer) :=
  Step.each perform buffer calls

end Buffer

end Gapless
