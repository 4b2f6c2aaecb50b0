import LogShipper.Event.Record
import LogShipper.Text.Decimal

/-!
# Structured events

A structured event carries named, typed fields. Three names have a meaning: `message` is the text
of the record, `backtrace` its stack, and a truth value under `fatal` marks it. Fields whose names
start with `log.` repeat what the event says about itself and are left out; every other field is
kept, in order, as one of the record's fields.
-/

namespace LogShipper

/-- The value of a field. -/
inductive FieldValue where
  | text (value : Text)
  | bool (value : Bool)
  | integer (value : Int)
deriving DecidableEq, Repr

/-- The value as text. -/
def FieldValue.toText : FieldValue → Text
  | .text value => value
  | .bool value => Decimal.ofBool value
  | .integer value => Decimal.ofInt value

/-- An event with named fields. -/
structure StructuredEvent where
  target : Text
  level : Severity
  fields : List (Text × FieldValue)
deriving DecidableEq, Repr

/-- The lines of a stack in one text, without the blanks at their ends. -/
def stackLines (t : Text) : List Text := t.lines.map Text.trimEnd

/-- Adds a field to a record by its name. -/
def Record.addField (record : Record) (name : Text) (value : FieldValue) : Record :=
  match value with
  | .bool b => if name = "fatal" then { record with fatal := b } else addText (Decimal.ofBool b)
  | other => addText other.toText
where
  addText (value : Text) : Record :=
    if name = "message" then { record with message := value }
    else if name = "backtrace" then { record with stack := stackLines value }
    else if "log.".toList.isPrefixOf name then record
    else { record with fields := record.fields ++ [⟨name, value⟩] }

/-- The record of a structured event. -/
def StructuredEvent.toRecord (event : StructuredEvent) : Record :=
  event.fields.foldl (fun record field => record.addField field.1 field.2)
    { target := event.target, level := event.level, message := [] }

/-- The target of the shipper's own events. -/
def ownTarget : Text := "logpulse"

/-- Whether a target is the shipper's own or lies within it. -/
def isOwnTarget (target : Text) : Bool :=
  ownTarget.isPrefixOf target &&
    (target.drop ownTarget.length == [] || "::".toList.isPrefixOf (target.drop ownTarget.length))

end LogShipper
