import LogShipper.Aggregator.Shipper
import LogShipper.Counting
import LogShipper.SampleQueue

/-!
# Intake

What registering an event touches: the counts, the triggers, and the samples that wait. Every
event is counted, whatever else becomes of it. A fatal event is sampled with its whole stack and
waits apart from the others, where nothing is dropped; any other event is sampled when a trigger
fires.
-/

namespace LogShipper

/-- The counts, the triggers and the waiting samples of a shipper. -/
structure Intake where
  counter : EventCounter Text Text
  triggers : TriggerSet Text Binary64
  queue : SampleQueue Sample
  /-- The samples of fatal events, oldest first. -/
  urgent : List Sample
  totalEvents : Nat
  eventsSinceFlush : Nat

/-- What becomes of an event besides being counted. -/
inductive Sampling where
  | unsampled
  | urgent (sample : Sample)
  /-- A trigger fired; the oldest waiting sample may be dropped for the new one. -/
  | queued (sample : Sample) (evicted : Option Sample)
  /-- The event could not be written. -/
  | failed (reason : Text)
deriving DecidableEq, Repr

/-- What the producer of an event is told if it could not be written. -/
def Sampling.complaint? : Sampling → Option Text
  | .failed reason => some ("event adapter failed: " ++ reason)
  | _ => none

/-- What is brought away at once: the fatal samples, the other ones, and the drops since the last
time. -/
structure Collected where
  urgent : List Sample
  queued : List Sample
  dropped : Nat
deriving DecidableEq, Repr

/-- All samples that are brought away, the fatal ones first. -/
def Collected.samples (c : Collected) : List Sample := c.urgent ++ c.queued

namespace Intake

/-- The intake before any event. -/
def new (s : Shipper) : Intake where
  counter := .empty
  triggers := .ofRules (s.settings.effectiveTriggers.map TriggerSettings.rule)
  queue := .new s.settings.effectiveSkipThreshold
  urgent := []
  totalEvents := 0
  eventsSinceFlush := 0

/-- Counts an event. -/
def count (i : Intake) (reading : Reading) : Intake :=
  { i with
    counter := i.counter.increment reading.key reading.label
    totalEvents := i.totalEvents + 1
    eventsSinceFlush := i.eventsSinceFlush + 1 }

/-- Samples a fatal event. -/
def sampleFatal (i : Intake) (reading : Reading) : Intake × Sampling :=
  match Sample.capture reading unlimitedStack with
  | .error reason => (i, .failed reason)
  | .ok sample => ({ i with urgent := i.urgent ++ [sample] }, .urgent sample)

/-- Offers an event to the triggers at an instant, and samples it if one fires. -/
def sampleTriggered (i : Intake) (now : Nat) (reading : Reading) : Intake × Sampling :=
  let offered := i.triggers.offer reading.key reading.severity now
  let i := { i with triggers := offered.1 }
  match offered.2 with
  | none => (i, .unsampled)
  | some depth =>
    match Sample.capture reading depth with
    | .error reason => (i, .failed reason)
    | .ok sample =>
      let pushed := i.queue.push sample
      ({ i with queue := pushed.1 }, .queued sample pushed.2)

/-- Registers an event at an instant. -/
def register (s : Shipper) (i : Intake) (now : Nat) (reading : Reading) : Intake × Sampling :=
  let i := i.count reading
  if !s.settings.sendSamples || !reading.enabled then (i, .unsampled)
  else if reading.fatal then i.sampleFatal reading
  else i.sampleTriggered now reading

/-- Takes out all waiting samples, and asks how many were dropped. -/
def collect (i : Intake) : Intake × Collected :=
  let drained := i.queue.drain
  let asked := drained.1.takeDropped
  ({ i with urgent := [], queue := asked.1 }, ⟨i.urgent, drained.2, asked.2⟩)

/-- The number of waiting samples. -/
def waiting (i : Intake) : Nat := i.queue.size + i.urgent.length

end Intake

end LogShipper
