import LogShipper.Aggregator.Intake
import LogShipper.Series

/-!
# Histories

What happened to a shipper, in order and with its instants. A history is what an observer could
write down; the shipper itself never looks at it.
-/

namespace LogShipper

open Transport

/-- Something that happens to a shipper. -/
inductive Occurrence where
  | registered (reading : Reading) (sampling : Sampling)
  /-- The flush task came into being. -/
  | spawned
  /-- A pass began; a forced one flushes whatever the time. -/
  | passed (forced : Bool)
  | flushed (forced : Bool) (batch : SeriesBatch Text Text)
  /-- The waiting samples were taken out, and the drops asked for. -/
  | collected (collected : Collected)
  /-- A write began. -/
  | attempted (lines : List Rendered)
  | delivered (lines : List Rendered)
  | lost (lines : List Rendered) (error : TransportError)
  | noticed (notice : Notice)
  | closed (result : Except TransportError Unit)

/-- An occurrence with its instant. -/
structure Entry where
  instant : Nat
  occurrence : Occurrence

/-- What happened, latest first. -/
abbrev History := List Entry

end LogShipper
