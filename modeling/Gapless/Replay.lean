/-
# Gapless.Replay -- deliver chunks to a buffer and read all that can be read

After each chunk the reader drains the buffer with reads of one size.  A delivery
after which nothing could be read is a stalled poll.  The peaks are taken after a
chunk is stored and before anything is read.  The first chunk that is refused ends
the replay.

All reads go into one piece of memory, which is asked for before the first chunk.  No
program gets a piece longer than `longestRequest`, and one that asks for it gives up.
Whether a machine has room for a shorter one is left to `CommandLine.Machine`.
-/
import Gapless.Buffer.Ingest
import Gapless.Buffer.Read
import Gapless.Delivery

namespace Gapless

set_option autoImplicit false

structure ReplayReport where
  chunks : Nat := 0
  reads : Nat := 0
  stalledPolls : Nat := 0
  peakSegments : Nat := 0
  peakHeld : Nat := 0
  output : Bytes := []
  deriving DecidableEq

/-- The longest piece of memory that can be asked for, in bytes. -/
def longestRequest : Nat := 9223372036854775807

/-- Why a replay does not go through. -/
inductive ReplayFault where
  /-- A chunk was refused. -/
  | refused (refusal : Refusal)
  /-- The reads are longer than any piece of memory.  The program gives up. -/
  | oversized
  deriving DecidableEq

/-- What a delivery came to: the counters after it, and what could be read then. -/
structure Visit where
  segments : Nat
  held : Nat
  pieces : List Bytes
  deriving DecidableEq

namespace ReplayReport

/-- Count a delivery that came before those of the report. -/
def preceded (report : ReplayReport) (visit : Visit) : ReplayReport where
  chunks := report.chunks + 1
  reads := report.reads + visit.pieces.length
  stalledPolls := report.stalledPolls + if visit.pieces.isEmpty then 1 else 0
  peakSegments := max visit.segments report.peakSegments
  peakHeld := max visit.held report.peakHeld
  output := visit.pieces.flatten ++ report.output

/-- The report on deliveries in their order. -/
def ofVisits (visits : List Visit) : ReplayReport :=
  visits.foldr (fun visit report => report.preceded visit) {}

end ReplayReport

namespace Buffer

/-- Ingest a chunk, then drain.  The counters are those between the two. -/
def deliverChunk (buffer : Buffer) (readSize : Nat) (chunk : Chunk) :
    Step Buffer (Except Refusal Visit) :=
  (buffer.ingestChunk chunk).andThen fun buffer result =>
    match result with
    | .error refusal => ⟨buffer, .error refusal, []⟩
    | .ok () =>
        (buffer.drain readSize).map fun pieces =>
          .ok { segments := buffer.store.count, held := buffer.store.held, pieces }

/-- Deliver chunk after chunk, until one is refused. -/
def deliverChunks (buffer : Buffer) (readSize : Nat) :
    List Chunk → Step Buffer (Except Refusal (List Visit))
  | [] => ⟨buffer, .ok [], []⟩
  | chunk :: rest =>
      (buffer.deliverChunk readSize chunk).andThen fun buffer result =>
        match result with
        | .error refusal => ⟨buffer, .error refusal, []⟩
        | .ok visit => (buffer.deliverChunks readSize rest).map (·.map (visit :: ·))

/-- Deliver the chunks in order, with reads of `readSize` bytes. -/
def replay (buffer : Buffer) (chunks : List Chunk) (readSize : Nat) :
    Step Buffer (Except ReplayFault ReplayReport) :=
  if longestRequest < readSize then ⟨buffer, .error .oversized, []⟩
  else
    (buffer.deliverChunks readSize chunks).andThen fun buffer result =>
      match result with
      | .error refusal => ⟨buffer, .error (.refused refusal), []⟩
      | .ok visits =>
          let report := ReplayReport.ofVisits visits
          ⟨buffer, .ok report, [.replayed report.chunks report.reads buffer.cursor]⟩

end Buffer

end Gapless
