/-
# Gapless.Buffer.Read -- handing out bytes in order

Reading never waits: it returns what the run at the cursor holds, up to the
number asked for, and nothing when the byte at the cursor is missing.  The cursor
moves past the bytes returned, and they are let go of.

There are two ways to read.  `Buffer.read` gathers bytes over the segments of the
run; `Buffer.take` cuts them out of the one segment that covers the cursor, and
gathers only if that segment is too short.  `Buffer.drain` reads until nothing is
left to read.
-/
import Gapless.Buffer

namespace Gapless.Buffer

set_option autoImplicit false

/-- Up to `count` bytes from `position` on, over segments without a gap. -/
def gather (position count : Nat) : List Segment → Bytes
  | [] => []
  | segment :: rest =>
      let piece := (segment.bytesFrom (max position segment.start)).take count
      piece ++ gather (position + piece.length) (count - piece.length) rest

/-- Move the cursor past `count` bytes that were handed out. -/
def advance (buffer : Buffer) (count : Nat) : Buffer × List Event :=
  if count = 0 then (buffer, [])
  else
    let cursor := buffer.cursor + count
    ({ buffer with store := buffer.store.trimBelow cursor, cursor }, [.delivered count])

/-- Hand out bytes found at the cursor. -/
def deliver (buffer : Buffer) (data : Bytes) : Step Buffer Bytes :=
  let (state, events) := buffer.advance data.length
  ⟨state, data, events⟩

/-- Read up to `count` bytes. -/
def read (buffer : Buffer) (count : Nat) : Step Buffer Bytes :=
  if count = 0 then ⟨buffer, [], []⟩
  else buffer.deliver (gather buffer.cursor count (buffer.store.runFrom buffer.cursor))

/-- The bytes cut out of the segment at the cursor. -/
def slice? (buffer : Buffer) (count : Nat) : Option Bytes :=
  (buffer.store.covering? buffer.cursor).bind (·.slice? buffer.cursor count)

/-- Read up to `count` bytes, out of a single segment where that is possible. -/
def take (buffer : Buffer) (count : Nat) : Step Buffer Bytes :=
  let wanted := min count buffer.readable
  if wanted = 0 then ⟨buffer, [], []⟩
  else
    match buffer.slice? wanted with
    | some data => buffer.deliver data
    | none => buffer.read wanted

/-- Read `count` bytes at a time until a read returns nothing, at most `rounds` times. -/
def drainRounds (count : Nat) : Nat → Buffer → Step Buffer (List Bytes)
  | 0, buffer => ⟨buffer, [], []⟩
  | rounds + 1, buffer =>
      (buffer.read count).andThen fun buffer data =>
        if data.isEmpty then ⟨buffer, [], []⟩
        else (drainRounds count rounds buffer).map (data :: ·)

/-- Read `count` bytes at a time until a read returns nothing.  Each read that
returns something takes at least one of the readable bytes. -/
def drain (buffer : Buffer) (count : Nat) : Step Buffer (List Bytes) :=
  drainRounds count buffer.readable buffer

end Gapless.Buffer
