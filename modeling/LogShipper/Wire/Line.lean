import LogShipper.Settings.Validation

/-!
# Lines

The lines that the collector understands, and their text:

* `property e:<entity> t:<type> k:command=<command> v:<name>=<value> ...` for the settings and for
  the process,
* `series e:<entity> <tags> m:<metric>=<count> t:level=<label> t:logger=<key>` for a counter, and
  without key for a total,
* `message e:<entity> <tags> t:type=logger m:<text> t:severity=<severity> t:level=<label>
  t:source=<key> <context>` for a sample.

A `Line` says what a line is about; a `Renderer` holds what is the same on all lines of a shipper
and writes the text.
-/

namespace LogShipper.Wire

/-- What a line is about. -/
inductive Line where
  | settings
  | runtime
  | counter (key label : Text) (value : Int)
  | total (label : Text) (value : Int)
  | message (sample : Sample)
deriving DecidableEq, Repr

/-- What is known about the running process. -/
structure ProcessFacts where
  command : Text
  pid : Nat
  hostname : Text
  os : Text
  arch : Text
  version : Text
deriving DecidableEq, Repr

/-- A name with a value, as a property line shows it. -/
structure Property where
  name : Text
  value : Text
deriving DecidableEq, Repr

/-- What is the same on all lines of a shipper. -/
structure Renderer where
  entity : Text
  tags : List Tag
  counterMetric : Text
  totalMetric : Text
  command : Text
  settings : List Property
  runtime : List Property
deriving DecidableEq, Repr

/-- The transport that the settings line announces: the text of the destination before its first
`://`, in lower case. -/
def announcedTransport (destination : Text) : Text :=
  Text.lower ((Text.cutAtText? "://" destination).elim [] Prod.fst)

/-- How the settings line describes a trigger. -/
def triggerProperty (t : TriggerSettings) : Property where
  name := "trigger_" ++ t.severity.name.lower
  value := t.effectiveMultiplier.toText ++ '/' :: Decimal.ofInt t.effectiveStackLines

/-- What the settings line shows. -/
def settingsProperties (s : Settings) : List Property :=
  [⟨"interval_ms", Decimal.ofNat s.interval⟩,
    ⟨"min_interval_ms", Decimal.ofNat s.minInterval⟩,
    ⟨"min_interval_threshold", Decimal.ofNat s.burstThreshold⟩,
    ⟨"repeat_count", Decimal.ofNat s.repeatCount⟩,
    ⟨"metric_prefix", s.metricBase⟩,
    ⟨"skip_threshold", Decimal.ofNat s.effectiveSkipThreshold⟩,
    ⟨"transport", announcedTransport s.destination⟩,
    ⟨"send_samples", Decimal.ofBool s.sendSamples⟩] ++ s.effectiveTriggers.map triggerProperty

/-- What the line about the process shows. -/
def runtimeProperties (facts : ProcessFacts) : List Property :=
  [⟨"pid", Decimal.ofNat facts.pid⟩, ⟨"hostname", facts.hostname⟩, ⟨"os", facts.os⟩,
    ⟨"arch", facts.arch⟩, ⟨"version", facts.version⟩]

namespace Renderer

/-- The renderer for some settings, unless the entity would have no name. -/
def ofSettings (s : Settings) (facts : ProcessFacts) : Except LineError Renderer :=
  let entity := sanitizeName s.entity
  if entity.isEmpty then .error .emptyEntity
  else .ok {
    entity
    tags := Tag.merge (s.tags.entries.map fun e => ⟨e.1, e.2⟩)
    counterMetric := sanitizeName s.counterMetric
    totalMetric := sanitizeName s.totalMetric
    command := facts.command
    settings := settingsProperties s
    runtime := runtimeProperties facts }

/-- The start of a series line. -/
def seriesStart (r : Renderer) : Text := "series e:" ++ r.entity ++ tagsText r.tags

/-- The start of a message line. -/
def messageStart (r : Renderer) : Text :=
  "message e:" ++ r.entity ++ tagsText r.tags ++ Tag.text ⟨"type", "logger"⟩

/-- The text of a message with its stack, a line for each frame. -/
def messageBody (sample : Sample) : Text := sample.message ++ sample.stack.flatMap ('\n' :: ·)

/-- One name and value of a property line. -/
def propertyText (p : Property) : Text := " v:" ++ sanitizeName p.name ++ '=' :: escapeValue p.value

/-- A property line. -/
def propertyLine (r : Renderer) (kind : Text) (properties : List Property) : Text :=
  "property e:" ++ r.entity ++ " t:" ++ kind ++ " k:command=" ++ escapeValue (sanitizeName r.command)
    ++ properties.flatMap propertyText

/-- A count of a metric. -/
def metricText (metric : Text) (value : Int) : Text :=
  " m:" ++ metric ++ '=' :: Decimal.ofInt value

/-- The text of a line. A counter needs a key and a label, a total a label, and a message both. -/
def render (r : Renderer) : Line → Except LineError Text
  | .settings => .ok (r.propertyLine "logger_settings" r.settings)
  | .runtime => .ok (r.propertyLine "logger_runtime" r.runtime)
  | .counter key label value =>
    if key.isEmpty then .error .emptyKey
    else if label.isEmpty then .error .emptyLabel
    else .ok (r.seriesStart ++ metricText r.counterMetric value
      ++ tagsText [⟨"level", label⟩, ⟨"logger", key⟩])
  | .total label value =>
    if label.isEmpty then .error .emptyLabel
    else .ok (r.seriesStart ++ metricText r.totalMetric value ++ tagsText [⟨"level", label⟩])
  | .message sample =>
    if sample.key.isEmpty then .error .emptyKey
    else if sample.label.isEmpty then .error .emptyLabel
    else .ok (r.messageStart ++ " m:" ++ escapeValue (foldNewlines (messageBody sample))
      ++ tagsText [⟨"severity", sample.severity.name⟩, ⟨"level", sample.label⟩,
        ⟨"source", sample.key⟩]
      ++ tagsText (Tag.merge sample.context))

end Renderer

/-- The two property lines. -/
def propertyLines : List Line := [.settings, .runtime]

/-- The age after which the property lines are sent again: a quarter of an hour. -/
def stalenessLimit : Nat := 15 * 60 * 1000

/-- Whether property lines that were last sent at some instant, or never, are due. -/
def isStale (announced : Option Nat) (now : Nat) : Bool :=
  announced.all fun sent => stalenessLimit < now - sent

/-- The payload of some lines: each ends with a line feed. -/
def payload (lines : List Text) : Text := Text.joinLines lines ++ ['\n']

end LogShipper.Wire
