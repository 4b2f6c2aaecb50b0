import LogShipper.Agent.Pattern
import LogShipper.Agent.Report
import LogShipper.Text.Decimal

/-!
# Filters

Which of the agent's own reports are shown, for programs that have no other filter. A filter is a
list of directives, each of which gives
the least severity that is shown, either for all reports or for those whose target starts with a
text, and perhaps only for those that bear a field. Of the directives that concern a report the one
with the longest text decides, among these one that names a field, and of equal ones the last.

A directive may also name spans of work, or the value that a field has to have in them. The agent
reports nothing within a span, so that such a directive can be read but concerns no report.
-/

namespace LogShipper.Agent

/-- The least severity of what is shown; none shows nothing. -/
abbrev Verbosity := Option Severity

/-- What a directive is about. -/
inductive Scope where
  /-- The reports whose target starts with a text and which bear a field, if one is named. -/
  | reports (start : Text) (field : Option Text)
  | spans
deriving DecidableEq, Repr

/-- One directive of a filter. -/
structure Directive where
  scope : Scope
  verbosity : Verbosity
deriving DecidableEq, Repr

/-! ## Verbosities -/

/-- The verbosities from the least to the greatest. -/
def verbosities : List Verbosity :=
  [none, some .error, some .warn, some .info, some .debug, some .trace]

/-- The words for the verbosities, in the same order. -/
def verbosityWords : List Text := ["off", "error", "warn", "info", "debug", "trace"]

/-- The verbosity that a number or a word in any ASCII case stands for. -/
def readVerbosity? (t : Text) : Option Verbosity :=
  match Decimal.readNat? verbosities.length t with
  | some n => verbosities[n]?
  | none => ((verbosityWords.zip verbosities).find? fun entry =>
      Text.sameIgnoringCase entry.1 t).map Prod.snd

/-! ## Directives -/

/-- Whether a directive may start with a character. -/
def startsDirective (c : Char) : Bool :=
  Alphanumeric.isAlphanumeric c || c = '-' || c = ':' || c = '_'

/-- A directive on its way: its outline, which is the text without the blanks around it and says
where the parts are, and the text itself, in which the parts are looked up. With blanks before the
outline the parts are found too early. -/
structure Draft where
  outline : Text
  text : Text

namespace Draft

/-- The part from one place up to another. -/
def part (d : Draft) (first last : Nat) : Text := (d.text.take last).drop first

/-- Reads the verbosity from a place on; without a word everything is shown. -/
def readVerbosity? (d : Draft) (place : Nat) : Option Verbosity :=
  let word := d.text.drop place
  if word.isEmpty then some (some .trace) else Agent.readVerbosity? word

/-- Reads what follows a closing bracket: nothing, or a verbosity after an equals sign. -/
def readEnd? (d : Draft) (scope : Scope) (place : Nat) : Option Directive :=
  match d.outline.drop place with
  | [] => some ⟨scope, some .trace⟩
  | '=' :: _ => (d.readVerbosity? (place + 1)).map (⟨scope, ·⟩)
  | _ => none

/-- Reads a condition on a field: its name, and perhaps a value after an equals sign. Only without
value it concerns reports. -/
def readField? (start condition : Text) : Option Scope :=
  match condition.splitOn '=' with
  | _ :: value :: _ => if Pattern.isComparable value then some .spans else none
  | _ => if condition.isEmpty then none else some (.reports start (some condition))

/-- Reads what follows an opening bracket: the name of spans, perhaps a condition in braces, and
the closing bracket. -/
def readBracket? (d : Draft) (start : Text) (place : Nat) : Option Directive :=
  let name := (d.outline.drop place).takeWhile fun c => c ≠ ']' && c ≠ '\x7b'
  let nameEnd := place + name.length
  match d.outline.drop nameEnd with
  | ']' :: _ => d.readEnd? .spans (nameEnd + 1)
  | '\x7b' :: rest =>
    let fieldEnd := nameEnd + 1 + (rest.takeWhile (· ≠ '\x7d')).length
    match d.outline.drop fieldEnd with
    | '\x7d' :: ']' :: _ =>
      (readField? start (d.part (nameEnd + 1) fieldEnd)).bind fun scope =>
        d.readEnd? (if name.isEmpty then scope else .spans) (fieldEnd + 2)
    | _ => none
  | _ => none

end Draft

/-- Reads a directive: a verbosity, or a target, or a target and a verbosity with an equals sign
between them, where a bracket may follow the target or stand in its place. A target alone shows
everything, and so does a verbosity with blanks around it, which is taken for a target. -/
def Directive.read? (t : Text) : Option Directive :=
  let d : Draft := ⟨t.trim, t⟩
  match d.outline with
  | [] => none
  | '[' :: _ => d.readBracket? [] 1
  | first :: _ =>
    if !startsDirective first then none
    else
      let place := (d.outline.takeWhile fun c => c ≠ '=' && c ≠ '[').length
      match d.outline.drop place with
      | [] =>
        match readVerbosity? t with
        | some verbosity => some ⟨.reports [] none, verbosity⟩
        | none => some ⟨.reports t none, some .trace⟩
      | '=' :: _ => (d.readVerbosity? (place + 1)).map (⟨.reports (t.take place) none, ·⟩)
      | _ => d.readBracket? (t.take place) (place + 1)

/-! ## Filters -/

/-- Directives that decide which reports are shown. -/
abbrev Filter := List Directive

namespace Filter

/-- Reads the directives between commas. -/
def read? (t : Text) : Option Filter :=
  ((t.splitOn ',').filter fun piece => !piece.isEmpty).mapM Directive.read?

/-- The one field that every report of the agent bears. -/
def reportField : Text := "message"

/-- How closely a scope describes a report about a target, if it concerns it at all. -/
def closeness? (target : Text) : Scope → Option Nat
  | .reports start field =>
    if start.isPrefixOf target && field.all (· = reportField) then
      some (2 * start.length + if field.isSome then 1 else 0)
    else none
  | .spans => none

/-- The closest of the directives for a target, and the last of equally close ones, given one that
was found before them with its closeness. -/
def closest (target : Text) (found : Option (Nat × Verbosity)) : Filter → Option (Nat × Verbosity)
  | [] => found
  | d :: ds =>
    match closeness? target d.scope with
    | none => closest target found ds
    | some n =>
      if found.all fun best => best.1 ≤ n then closest target (some (n, d.verbosity)) ds
      else closest target found ds

/-- Whether a report of some severity about a target is shown. -/
def shows (f : Filter) (target : Text) (severity : Severity) : Bool :=
  match closest target none f with
  | some (_, some least) => least ≤ severity
  | _ => false

/-- Reading as readers of filters do it. -/
def reader : FilterReader := fun t => (read? t).map shows

end Filter

end LogShipper.Agent
