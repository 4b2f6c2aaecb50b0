import LogShipper.Dictionary
import LogShipper.Trigger

/-!
# Settings

What a user may choose about the shipper, the values that are taken when nothing is chosen, and
the values that follow from several choices together. All times are in milliseconds.
-/

namespace LogShipper

/-- One trigger; what is left open follows from the severity. -/
structure TriggerSettings where
  severity : Severity
  multiplier : Option Binary64 := none
  resetInterval : Nat := 600000
  stackLines : Option Int := none
deriving DecidableEq, Repr

namespace TriggerSettings

/-- The factor by which the threshold grows: rarer severities are thinned out less. -/
def effectiveMultiplier (t : TriggerSettings) : Binary64 :=
  t.multiplier.getD (.ofNat (match t.severity with
    | .error => 2
    | .warn => 3
    | .info => 5
    | .debug | .trace => 1))

/-- The stack depth of the samples: errors keep their whole stack, all else none. -/
def effectiveStackLines (t : TriggerSettings) : Int :=
  t.stackLines.getD (if t.severity = .error then unlimitedStack else 0)

/-- The trigger that is set. -/
def rule (t : TriggerSettings) : TriggerRule Binary64 where
  severity := t.severity
  multiplier := t.effectiveMultiplier
  window := t.resetInterval
  depth := t.effectiveStackLines

end TriggerSettings

/-- The settings of a shipper. -/
structure Settings where
  /-- What the lines are about, usually a host. -/
  entity : Text := []
  tags : Dictionary Text := .empty
  destination : Text := "tcp://localhost"
  /-- The time after which series are reported again. -/
  interval : Nat := 60000
  /-- The least time between reports in a burst of events. -/
  minInterval : Nat := 5000
  /-- The number of events that makes a burst; with zero there are no bursts. -/
  burstThreshold : Nat := 0
  /-- The number of cycles for which a silent counter goes on to report zero. -/
  repeatCount : Nat := 1
  metricBase : Text := "log_event"
  counterSuffix : Text := "_counter"
  totalSuffix : Text := "_total_counter"
  /-- The number of samples that may wait, before it is brought into its range. -/
  skipThreshold : Nat := 100
  /-- The time between two looks at the clock. -/
  checkInterval : Nat := 333
  /-- What the total of a label starts from. -/
  totalSeeds : Dictionary Int64 := .empty
  ignoreTlsErrors : Bool := false
  sendSamples : Bool := true
  /-- The triggers; none stands for the default ones. -/
  triggers : List TriggerSettings := []
deriving Repr

namespace Settings

/-- The number of samples that may wait: between 10 and 1000. -/
def effectiveSkipThreshold (s : Settings) : Nat := max 10 (min s.skipThreshold 1000)

/-- The metric of the counters of one key. -/
def counterMetric (s : Settings) : Text := s.metricBase ++ s.counterSuffix

/-- The metric of the totals. -/
def totalMetric (s : Settings) : Text := s.metricBase ++ s.totalSuffix

/-- The triggers that are used: by default one each for errors, warnings and informations. -/
def effectiveTriggers (s : Settings) : List TriggerSettings :=
  if s.triggers.isEmpty then [{ severity := .error }, { severity := .warn }, { severity := .info }]
  else s.triggers

/-- What the total of a label starts from, zero if nothing is set. -/
def seed (s : Settings) (label : Text) : Int64 := (s.totalSeeds.find? label).getD 0

theorem effectiveSkipThreshold_pos (s : Settings) : 0 < s.effectiveSkipThreshold := by
  unfold effectiveSkipThreshold
  omega

end Settings

end LogShipper
