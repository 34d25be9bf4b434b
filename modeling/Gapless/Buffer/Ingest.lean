/-
# Gapless.Buffer.Ingest -- taking in a chunk

Chunks may come in any order, overlap, repeat and come late.  An empty chunk is
accepted and changes nothing, wherever it lies.  Of any other chunk

* the range is checked first;
* the part below the cursor counts as known and is dropped; when nothing is left
  the limits are not asked;
* the rest is planned as a merge, and the limits are asked about the bytes and the
  segments the buffer would hold after it.

A chunk that is refused leaves the buffer as it was.
-/
import Gapless.Buffer
import Gapless.Chunk

namespace Gapless.Buffer

set_option autoImplicit false

/-- Merge a segment that lies at or above the cursor, as far as the limits allow. -/
def accept (buffer : Buffer) (incoming : Segment) : Step Buffer (Except Refusal MergeOutcome) :=
  let merge := buffer.store.planMerge incoming
  let bytes := buffer.store.held - merge.absorbedBytes + merge.length
  let segments := buffer.store.count - merge.absorbed.length + 1
  match buffer.limits.check bytes segments with
  | .error refusal => ⟨buffer, .error refusal, []⟩
  | .ok () => ((buffer.store.apply merge incoming).map .ok).lift ({ buffer with store := · })

/-- Store a chunk.  The bytes below the cursor count as overlap. -/
def place (buffer : Buffer) (chunk : Chunk) : Step Buffer (Except Refusal MergeOutcome) :=
  match Offset.advance? chunk.offset chunk.length with
  | none => ⟨buffer, .error (.invalidArgument (.rangeOverflow chunk.offset chunk.length)), []⟩
  | some _ =>
      match chunk.above? buffer.cursor with
      | none => ⟨buffer, .ok { absorbed := 0, overlap := chunk.length, added := 0 }, []⟩
      | some incoming =>
          let clipped := chunk.length - incoming.length
          (buffer.accept incoming).map fun result =>
            result.map fun outcome => { outcome with overlap := outcome.overlap + clipped }

/-- What is reported about a chunk that was tried. -/
def placementEvents (offset length : Nat) : Except Refusal MergeOutcome → List Event
  | .ok outcome =>
      (if outcome.added = 0 then [.redundant offset length] else []) ++
        [.accepted length outcome.overlap outcome.added]
  | .error refusal => [.refused refusal.reason]

/-- Take in a chunk of the stream. -/
def ingestChunk (buffer : Buffer) (chunk : Chunk) : Step Buffer (Except Refusal Unit) :=
  if chunk.length = 0 then ⟨buffer, .ok (), []⟩
  else
    let placed := buffer.place chunk
    (placed.map (·.map fun _ => ())).reporting
      (placementEvents chunk.offset chunk.length placed.result)

/-- Take in these bytes as a chunk of the stream. -/
def ingest (buffer : Buffer) (offset : Nat) (data : Bytes) : Step Buffer (Except Refusal Unit) :=
  buffer.ingestChunk (.ofData offset data)

/-- Take in a chunk at a signed offset.  A negative one never reaches the buffer. -/
def ingestSigned (buffer : Buffer) (offset : Int) (data : Bytes) :
    Step Buffer (Except Refusal Unit) :=
  match Offset.ofInt? offset with
  | .error fault => ⟨buffer, .error (.invalidArgument fault), []⟩
  | .ok offset => buffer.ingest offset data

/-- A chunk is stored as the segment of its bytes, clipped at the cursor. -/
theorem place_eq (buffer : Buffer) (chunk : Chunk) :
    buffer.place chunk =
      match Segment.at? chunk.offset chunk.data with
      | .error fault => ⟨buffer, .error (.invalidArgument fault), []⟩
      | .ok segment =>
          match segment.clipBelow buffer.cursor with
          | none => ⟨buffer, .ok { absorbed := 0, overlap := segment.length, added := 0 }, []⟩
          | some incoming =>
              (buffer.accept incoming).map fun result =>
                result.map fun outcome =>
                  { outcome with
                    overlap := outcome.overlap + (segment.length - incoming.length) } := by
  have length : chunk.segment.length = chunk.length :=
    (Segment.length_eq _).trans chunk.length_data
  rw [chunk.at?_data]
  unfold place
  cases Offset.advance? chunk.offset chunk.length with
  | none => rfl
  | some stop =>
      dsimp only
      rw [length, ← chunk.above?_eq]

end Gapless.Buffer
