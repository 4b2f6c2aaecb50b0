import LogShipper.Settings.Basic

/-!
# Settings from documents

A document is a tree of values such as JSON writes. Settings are read from an object whose members
bear the names of the settings, or from a list that gives them in order. What is missing takes its
default, and what is unknown does not matter; a value of the wrong type or out of range makes the
document unreadable. Words for the numbers that have no digits are read only where all is given by
name.
-/

namespace LogShipper

/-- A tree of values. -/
inductive Document where
  | null
  | bool (value : Bool)
  /-- A number that is written as a whole number. -/
  | integer (value : Int)
  /-- Any other number. -/
  | real (value : Binary64)
  | text (value : Text)
  | list (items : List Document)
  | object (members : List (Text × Document))

namespace Document

/-! ## Values -/

def asBool? : Document → Option Bool
  | bool b => some b
  | _ => none

def asText? : Document → Option Text
  | text t => some t
  | _ => none

/-- A whole number with `least ≤ n < limit`. -/
def asInteger? (least limit : Int) : Document → Option Int
  | integer n => if least ≤ n ∧ n < limit then some n else none
  | _ => none

/-- A natural number of at most so many bits. -/
def asNat? (bits : Nat) (d : Document) : Option Nat := (d.asInteger? 0 (Nat.pow 2 bits)).map Int.toNat

/-- A signed number of so many bits. -/
def asSigned? (bits : Nat) (d : Document) : Option Int :=
  d.asInteger? (-(Nat.pow 2 (bits - 1))) (Nat.pow 2 (bits - 1))

/-- A number of 64 bits. -/
def asWord? (d : Document) : Option Int64 := (d.asSigned? 64).map Int64.ofInt

/-- The number without digits that a word stands for. -/
def realOfWord? (t : Text) : Option Binary64 :=
  if t = "NaN" then some .nan
  else if t = "inf" then some (.infinity false)
  else if t = "-inf" then some (.infinity true)
  else none

/-- A number, where words may or may not stand for the numbers that have no digits. -/
def asReal? (words : Bool) : Document → Option Binary64
  | integer n => some (.ofMagnitude (n < 0) ⟨n.natAbs, 0⟩)
  | real x => some x
  | text t => if words then realOfWord? t else none
  | _ => none

/-- Nothing, or a value of a kind. -/
def asOption? {α : Type} (read : Document → Option α) : Document → Option (Option α)
  | null => some none
  | d => (read d).map some

/-- A list of values of a kind. -/
def asList? {α : Type} (read : Document → Option α) : Document → Option (List α)
  | list items => items.mapM read
  | _ => none

/-- Values of a kind by name; the last value of a name counts. -/
def asDictionary? {α : Type} (read : Document → Option α) : Document → Option (Dictionary α)
  | object members =>
    (members.mapM fun m => (read m.2).map fun value => (m.1, value)).map Dictionary.ofList
  | _ => none

/-- A severity: its name, or the name with nothing as the one member of an object. -/
def asSeverity? : Document → Option Severity
  | text t => Severity.ofName? t
  | object [(t, null)] => Severity.ofName? t
  | _ => none

/-! ## Members -/

/-- The members of a document by name, where a list gives them in the order of the names. -/
def members? (names : List Text) : Document → Option (List (Text × Document))
  | object members => some members.reverse
  | list items => if items.length ≤ names.length then some (names.zip items) else none
  | _ => none

/-- Whether the document gives its parts by name. -/
def isObject : Document → Bool
  | object _ => true
  | _ => false

/-- The value of a member, or the default if it is missing. -/
def member? {α : Type} (members : List (Text × Document)) (name : Text)
    (read : Document → Option α) (default : α) : Option α :=
  match members.find? fun m => m.1 = name with
  | none => some default
  | some m => read m.2

/-! ## Settings -/

/-- Reads a trigger; its severity may not be missing. The trigger may stand in a document that gives
its parts by name, or in one that does not. -/
def toTriggerSettings? (byName : Bool) (d : Document) : Option TriggerSettings := do
  let members ← d.members?
    ["severity", "send_multiplier", "reset_interval_ms", "stack_trace_lines"]
  let default : TriggerSettings := { severity := .info }
  let severity ← (member? members "severity" (fun d => d.asSeverity?.map some) none).join
  let multiplier ← member? members "send_multiplier"
    (asOption? (asReal? (byName && d.isObject))) default.multiplier
  let resetInterval ← member? members "reset_interval_ms" (asNat? 64)
    default.resetInterval
  let stackLines ← member? members "stack_trace_lines" (asOption? (asSigned? 32))
    default.stackLines
  return { severity, multiplier, resetInterval, stackLines }

/-- The names of the settings in a document, in their order. -/
def settingNames : List Text :=
  ["entity", "tags", "destination", "interval_ms", "min_interval_ms", "min_interval_threshold",
    "repeat_count", "metric_prefix", "counter_suffix", "total_counter_suffix",
    "message_skip_threshold", "check_interval_ms", "total_counter_seeds", "ignore_ssl_errors",
    "send_samples", "triggers"]

/-- Reads settings. -/
def toSettings? (d : Document) : Option Settings := do
  let members ← d.members? settingNames
  let field {α : Type} (name : Text) (read : Document → Option α) (default : α) : Option α :=
    member? members name read default
  let default : Settings := {}
  return {
    entity := ← field "entity" asText? default.entity
    tags := ← field "tags" (asDictionary? asText?) default.tags
    destination := ← field "destination" asText? default.destination
    interval := ← field "interval_ms" (asNat? 64) default.interval
    minInterval := ← field "min_interval_ms" (asNat? 64) default.minInterval
    burstThreshold := ← field "min_interval_threshold" (asNat? 64) default.burstThreshold
    repeatCount := ← field "repeat_count" (asNat? 32) default.repeatCount
    metricBase := ← field "metric_prefix" asText? default.metricBase
    counterSuffix := ← field "counter_suffix" asText? default.counterSuffix
    totalSuffix := ← field "total_counter_suffix" asText? default.totalSuffix
    skipThreshold := ← field "message_skip_threshold" (asNat? 64) default.skipThreshold
    checkInterval := ← field "check_interval_ms" (asNat? 64) default.checkInterval
    totalSeeds := ← field "total_counter_seeds" (asDictionary? asWord?) default.totalSeeds
    ignoreTlsErrors := ← field "ignore_ssl_errors" asBool? default.ignoreTlsErrors
    sendSamples := ← field "send_samples" asBool? default.sendSamples
    triggers := ← field "triggers" (asList? (toTriggerSettings? d.isObject))
      default.triggers }

end Document

end LogShipper
