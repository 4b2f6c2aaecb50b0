import LogShipper.Aggregator.Intake
import LogShipper.Series

/-!
# Reporting

What the flush side keeps between two passes: how far the counts were reported, the series, and
the instants of the last flush and the last announcement.

Series are flushed when more than the interval has passed since the last flush. In a burst they
are flushed earlier: when more than the least interval has passed and more events than the burst
threshold were registered since then.
-/

namespace LogShipper

open Wire

/-- What the flush side keeps. -/
structure Reporting where
  snapshots : Table Text (Snapshot Text)
  series : Series Text Text
  lastFlush : Nat
  /-- When the property lines were last announced. -/
  announced : Option Nat

namespace Reporting

/-- The flush side of a shipper that is made at an instant. -/
def new (s : Shipper) (now : Nat) : Reporting where
  snapshots := .empty
  series := .new s.settings.repeatCount s.settings.seed
  lastFlush := now
  announced := none

/-- Whether the interval has passed. -/
def timeDue (s : Shipper) (r : Reporting) (now : Nat) : Bool :=
  s.settings.interval < now - r.lastFlush

/-- Whether a burst of events is to be reported. -/
def burstDue (s : Shipper) (r : Reporting) (now events : Nat) : Bool :=
  0 < s.settings.burstThreshold && s.settings.minInterval < now - r.lastFlush &&
    s.settings.burstThreshold < events

/-- Whether series are flushed at an instant, after so many events since the last flush. -/
def isDue (s : Shipper) (r : Reporting) (now events : Nat) : Bool :=
  r.timeDue s now || r.burstDue s now events

/-- The lines of a batch: the counters, then the totals. -/
def batchLines (batch : SeriesBatch Text Text) : List Line :=
  batch.counters.map (fun c => .counter c.1.1 c.1.2 c.2)
    ++ batch.totals.map (fun t => .total t.1 t.2)

/-- Flushes the series at an instant. -/
def flush (r : Reporting) (now : Nat) (counter : EventCounter Text Text) :
    Reporting × SeriesBatch Text Text :=
  let look := counter.diffAll r.snapshots
  let cycle := r.series.cycle look.1
  ({ r with snapshots := look.2, series := cycle.1, lastFlush := now }, cycle.2)

/-- The property lines, if they are due, and the flush side that remembers them. -/
def announce (r : Reporting) (now : Nat) : Reporting × List Line :=
  if isStale r.announced now then ({ r with announced := some now }, propertyLines) else (r, [])

end Reporting

end LogShipper
