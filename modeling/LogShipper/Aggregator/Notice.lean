import LogShipper.Transport.Basic
import LogShipper.Wire.Line

/-!
# Notices

What a shipper reports about its own work.
-/

namespace LogShipper

open Wire Transport

/-- A line with its text. -/
structure Rendered where
  line : Line
  text : Text
deriving DecidableEq, Repr

/-- A report of the shipper about itself. -/
inductive Notice where
  | shuttingDown
  /-- Samples were dropped because more than a threshold were waiting. -/
  | dropped (samples threshold : Nat)
  /-- A line could not be written. -/
  | skipped (line : Line) (error : LineError)
  | sendFailed (lines : Nat) (error : TransportError)
  | closeFailed (error : TransportError)
  | transport (notice : TransportNotice)
deriving DecidableEq, Repr

namespace Notice

/-- How serious the report is. -/
def level : Notice → Severity
  | .shuttingDown => .info
  | .sendFailed .. => .error
  | _ => .warn

/-- What a line is called when it is skipped. -/
def lineSubject : Line → Text
  | .settings => "settings line"
  | .runtime => "runtime line"
  | .counter key _ _ => "counter line for " ++ key
  | .total label _ => "total line for " ++ label
  | .message sample => "sample from " ++ sample.key

/-- The wording of the report. -/
def message : Notice → Text
  | .shuttingDown => "Shutting down log event aggregator"
  | .dropped samples threshold =>
    "Dropped " ++ Decimal.ofNat samples ++ " samples, more than " ++ Decimal.ofNat threshold
      ++ " were waiting"
  | .skipped line error => "Skipping " ++ lineSubject line ++ ": " ++ error.message
  | .sendFailed lines error =>
    "Failed to send " ++ Decimal.ofNat lines ++ " lines to collector: " ++ error.message
  | .closeFailed error => "Failed to close collector transport: " ++ error.message
  | .transport notice => notice.message

end Notice

end LogShipper
