/-
# Gapless.Metrics -- the running totals of a list of events

Five series are kept.  Three count bytes: those of accepted chunks, those of them
that were known already, and those handed to readers.  One counts refusals by
reason.  The last is a level: the bytes held and not yet read, which rises with
every new byte and falls when bytes are read or released.

A series that no event touched is not reported.  A count is touched only by a
positive amount, so an untouched count is a zero count; the level may come back to
zero, so it remembers whether it was touched (`held`).
-/
import Gapless.Journal

namespace Gapless

set_option autoImplicit false

structure Metrics where
  ingested : Nat := 0
  overlap : Nat := 0
  delivered : Nat := 0
  refused : Reason → Nat := fun _ => 0
  /-- Bytes held, once anything has changed that number. -/
  held : Option Int := none

namespace Metrics

/-- Bytes held; untouched is zero. -/
def level (metrics : Metrics) : Int := metrics.held.getD 0

/-- Move the level by an amount; no amount leaves it untouched. -/
def shift (metrics : Metrics) (amount : Int) : Metrics :=
  if amount = 0 then metrics else { metrics with held := some (metrics.level + amount) }

def note (metrics : Metrics) : Event → Metrics
  | .accepted length overlap added =>
      { metrics with
        ingested := metrics.ingested + length
        overlap := metrics.overlap + overlap }.shift added
  | .refused reason =>
      { metrics with
        refused := fun other =>
          if other = reason then metrics.refused other + 1 else metrics.refused other }
  | .delivered count => { metrics with delivered := metrics.delivered + count }.shift (-count)
  | .released count => metrics.shift (-count)
  | .merged .. | .redundant .. | .reported .. | .stopped _ | .discarded _ | .replayed .. =>
      metrics

def after (metrics : Metrics) (events : List Event) : Metrics := events.foldl note metrics

def ofEvents (events : List Event) : Metrics := after {} events

theorem after_append (metrics : Metrics) (events more : List Event) :
    metrics.after (events ++ more) = (metrics.after events).after more :=
  List.foldl_append

/-- The touched series by name. -/
def readings (metrics : Metrics) : List (String × Int) :=
  let counts : List (String × Nat) :=
    [("reassembly_bytes_ingested_total", metrics.ingested),
     ("reassembly_overlap_bytes_total", metrics.overlap),
     ("reassembly_bytes_delivered_total", metrics.delivered)]
  let refusals := Reason.all.map fun reason =>
    ("reassembly_ingest_rejections_total\x7breason=" ++ reason.label ++ "\x7d",
      metrics.refused reason)
  (counts ++ refusals).filterMap
      (fun (name, count) => if count = 0 then none else some (name, (count : Int)))
    ++ (metrics.held.map fun held => ("reassembly_buffered_bytes", held)).toList

end Metrics

end Gapless
