import LogShipper.Event.Sample

/-!
# Log records

A record is an event that has been read in full. It is counted under its target and level; it is
fatal if it says so and its level is that of errors.
-/

namespace LogShipper

/-- A log event with its text, its fields and its stack. -/
structure Record where
  target : Text
  level : Severity
  message : Text
  fields : List Wire.Tag := []
  stack : List Text := []
  fatal : Bool := false
deriving DecidableEq, Repr

/-- What a record says about itself, where records below a least severity are not sampled. -/
def Record.reading (least : Severity) (record : Record) : Reading where
  key := record.target
  label := record.level.name
  severity := record.level
  rendered := .ok record.message
  enabled := least ≤ record.level
  fatal := record.fatal && record.level = .error
  stack := record.stack
  context := record.fields

end LogShipper
