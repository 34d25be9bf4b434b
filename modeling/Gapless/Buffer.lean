/-
# Gapless.Buffer -- one stream put together again

A buffer is a store of segments that wait to be read, the cursor (the offset of
the byte that a read returns next) and the limits it keeps to.  Bytes below the
cursor have been delivered.  What can be read now is the run of bytes that begins
at the cursor; a missing byte there makes everything behind it wait.
-/
import Gapless.Limits
import Gapless.Store.Merge
import Gapless.Store.Trim

namespace Gapless

set_option autoImplicit false

structure Buffer where
  store : Store := {}
  /-- The offset of the next byte a read returns. -/
  cursor : Nat := 0
  limits : Limits := {}
  deriving DecidableEq

/-- The counters of a buffer at one moment. -/
structure Stats where
  cursor : Nat
  held : Nat
  segments : Nat
  readable : Nat
  deriving DecidableEq

namespace Buffer

/-- An empty buffer at the start of its stream. -/
def fresh (limits : Limits) : Buffer := { limits }

/-- The number of bytes a read could return now. -/
def readable (buffer : Buffer) : Nat :=
  totalOf (fun segment => segment.stop - max buffer.cursor segment.start)
    (buffer.store.runFrom buffer.cursor)

def stats (buffer : Buffer) : Stats where
  cursor := buffer.cursor
  held := buffer.store.held
  segments := buffer.store.count
  readable := buffer.readable

/-- The end of a buffer: what it still holds is released. -/
def release (buffer : Buffer) : List Event :=
  if buffer.store.held = 0 then [] else [.released buffer.store.held]

end Buffer

end Gapless
