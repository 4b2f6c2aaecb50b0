import LogShipper.Settings.Validation

/-!
# Settings from the environment

The variables of a process select the settings. A variable that is missing, and a number that
cannot be read, leave the default in place.
-/

namespace LogShipper

/-- The variables of a process. -/
abbrev Environment := Dictionary Text

/-- The tags in a list such as `a=1,b=2`. Pieces without an equals sign or with a blank key do not
count, and the last value of a key does. -/
def readTagList (list : Text) : Dictionary Text :=
  .ofList <| (list.splitOn ',').filterMap fun piece =>
    match Text.cutAt? (· = '=') piece with
    | none => none
    | some (key, value) => if key.trim.isEmpty then none else some (key.trim, value.trim)

namespace Environment

/-- A number below a limit. -/
def number (env : Environment) (name : Text) (limit default : Nat) : Nat :=
  ((env.find? name).bind fun value => Decimal.readNat? limit value.trim).getD default

/-- The name of the host: the first variable of the two that is not empty, else what the system
says, else `unknown`. -/
def hostName (env : Environment) (system : Option Text) : Text :=
  let named := ["LOGPULSE_HOSTNAME".toList, "HOSTNAME".toList].findSome? fun name =>
    (env.find? name).filter fun value => !value.isEmpty
  (named <|> system.filter fun value => !value.isEmpty).getD "unknown"

end Environment

namespace Settings

/-- The settings that the variables select, before they are validated. -/
def select (env : Environment) (systemHost : Option Text) : Settings :=
  let default : Settings := {}
  let entity := (env.find? "LOGPULSE_ENTITY").filter fun value => !value.isAllBlank
  { entity := entity.getD (env.hostName systemHost)
    tags := ((env.find? "LOGPULSE_TAGS").map readTagList).getD .empty
    destination := (env.find? "LOGPULSE_DESTINATION").getD default.destination
    ignoreTlsErrors := (env.find? "LOGPULSE_IGNORE_SSL_ERRORS").any fun value =>
      Text.sameIgnoringCase value "true"
    metricBase := (env.find? "LOGPULSE_METRIC_PREFIX").getD default.metricBase
    interval := env.number "LOGPULSE_INTERVAL_MS" UInt64.size default.interval
    minInterval := env.number "LOGPULSE_MIN_INTERVAL_MS" UInt64.size default.minInterval
    burstThreshold := env.number "LOGPULSE_MIN_INTERVAL_THRESHOLD" UInt64.size default.burstThreshold
    repeatCount := env.number "LOGPULSE_REPEAT_COUNT" UInt32.size default.repeatCount
    skipThreshold := env.number "LOGPULSE_SKIP_THRESHOLD" UInt64.size default.skipThreshold
    checkInterval := env.number "LOGPULSE_CHECK_INTERVAL_MS" UInt64.size default.checkInterval }

/-- The settings that the variables select, if they are accepted. -/
def ofEnvironment (urls : UrlReader) (env : Environment) (systemHost : Option Text) :
    Except SettingsError Settings :=
  let settings := select env systemHost
  (settings.validate urls).map fun _ => settings

end Settings

end LogShipper
