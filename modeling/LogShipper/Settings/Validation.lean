import LogShipper.Destination
import LogShipper.Number.Shortest
import LogShipper.Settings.Basic
import LogShipper.Wire.Error

/-!
# Validation

The conditions under which a shipper starts. They are looked at one after the other, and the first
that fails is reported.
-/

namespace LogShipper

/-- A choice that no shipper can work with. -/
inductive SettingsProblem where
  | blankEntity
  | shortInterval (interval : Nat)
  | zeroMinInterval
  | zeroCheckInterval
  | blankMetricBase
  | badMultiplier (severity : Severity) (multiplier : Binary64)
  | badStackLines (severity : Severity)
  /-- No line could be written. -/
  | unwritable (error : Wire.LineError)
deriving DecidableEq, Repr

/-- The least time after which series may be reported again. -/
def leastInterval : Nat := 1000

/-- The wording of a problem. -/
def SettingsProblem.message : SettingsProblem → Text
  | .blankEntity => "entity cannot be empty"
  | .shortInterval interval =>
    "interval must be at least " ++ Decimal.ofNat leastInterval ++ " ms, got "
      ++ Decimal.ofNat interval
  | .zeroMinInterval => "minimum interval must be greater than 0"
  | .zeroCheckInterval => "check interval must be greater than 0"
  | .blankMetricBase => "metric prefix cannot be empty"
  | .badMultiplier severity multiplier =>
    "send multiplier for " ++ severity.name ++ " must be at least 1, got " ++ multiplier.toText
  | .badStackLines severity => "stack trace lines for " ++ severity.name ++ " must be -1 or more"
  | .unwritable error => error.message

/-- Why settings are refused. -/
inductive SettingsError where
  | invalid (problem : SettingsProblem)
  | destination (error : DestinationError)
deriving DecidableEq, Repr

/-- The wording of the refusal. -/
def SettingsError.message : SettingsError → Text
  | .invalid problem => "Invalid configuration: " ++ problem.message
  | .destination error => error.message

/-- What is wrong with a trigger, if anything is. -/
def TriggerSettings.problem? (t : TriggerSettings) : Option SettingsProblem :=
  let multiplier := t.effectiveMultiplier
  if !multiplier.isFinite || multiplier.lt (.ofNat 1) then
    some (.badMultiplier t.severity multiplier)
  else if t.effectiveStackLines < unlimitedStack then some (.badStackLines t.severity)
  else none

namespace Settings

/-- The first problem of the settings, the destination apart. -/
def problem? (s : Settings) : Option SettingsProblem :=
  if s.entity.isAllBlank then some .blankEntity
  else if s.interval < leastInterval then some (.shortInterval s.interval)
  else if s.minInterval = 0 then some .zeroMinInterval
  else if s.checkInterval = 0 then some .zeroCheckInterval
  else if s.metricBase.isAllBlank then some .blankMetricBase
  else s.triggers.findSome? TriggerSettings.problem?

/-- Accepts the settings and gives their destination, or refuses them for the first problem. -/
def validate (urls : UrlReader) (s : Settings) : Except SettingsError Destination :=
  match s.problem? with
  | some problem => .error (.invalid problem)
  | none => (Destination.read urls s.destination).mapError .destination

/-- Settings are accepted exactly when they have no problem and their destination can be read. -/
theorem validate_eq_ok_iff {urls : UrlReader} {s : Settings} {d : Destination} :
    s.validate urls = .ok d ↔ s.problem? = none ∧ Destination.read urls s.destination = .ok d := by
  unfold validate
  cases s.problem? with
  | some problem => simp
  | none =>
    constructor
    · intro h
      refine ⟨rfl, ?_⟩
      cases hread : Destination.read urls s.destination with
      | ok d' =>
        rw [hread] at h
        exact congrArg Except.ok (Except.ok.inj h)
      | error problem =>
        rw [hread] at h
        cases h
    · rintro ⟨-, hread⟩
      change (Destination.read urls s.destination).mapError SettingsError.destination = .ok d
      rw [hread]
      rfl

/-- Accepted settings look at the clock in steps of a positive length. -/
theorem checkInterval_pos_of_validate {urls : UrlReader} {s : Settings} {d : Destination}
    (h : s.validate urls = .ok d) : 0 < s.checkInterval := by
  have hnone := (validate_eq_ok_iff.1 h).1
  apply Nat.pos_of_ne_zero
  intro hzero
  unfold problem? at hnone
  simp only [hzero, if_true] at hnone
  repeat' split at hnone
  all_goals simp at hnone

end Settings

end LogShipper
