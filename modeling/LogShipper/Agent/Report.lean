import LogShipper.Aggregator.Notice
import LogShipper.Settings.Validation
import LogShipper.Text.Utf8

/-!
# Reports of the agent

What the agent says about its own work on standard error, one report after the other. A report is
written with how serious it is and the part of the program that reports. Characters that a terminal
would take for orders are given by their codes; all else stands as it is, also a line feed.
-/

namespace LogShipper.Agent

/-- What the agent reports about its work. -/
inductive Report where
  | refused (error : SettingsError)
  | shipping (destination entity : Text)
  | notCreated (error : SettingsError)
  | unreadable (fault : Utf8.Fault)
  | notice (notice : Notice)
  | shipped (events : Nat)
deriving DecidableEq, Repr

/-- Which reports are shown, by the part of the program that reports and by how serious they are. -/
abbrev ReportFilter := Text → Severity → Bool

/-- A reader of filters gives the filter that some directives describe, if they can be read. -/
abbrev FilterReader := Text → Option ReportFilter

namespace Report

/-- How serious the report is. -/
def level : Report → Severity
  | .refused _ | .notCreated _ | .unreadable _ => .error
  | .shipping .. | .shipped _ => .info
  | .notice n => n.level

/-- The part of the program that reports. -/
def target : Report → Text
  | .notice (.transport _) => "logpulse::transport::udp"
  | .notice _ => "logpulse::aggregator"
  | _ => "logpulse_agent"

/-- The wording of the report. -/
def message : Report → Text
  | .refused e => "Invalid configuration: " ++ e.message
  | .shipping destination entity =>
    "Shipping log events from stdin to " ++ destination ++ " as " ++ entity
  | .notCreated e => "Failed to create aggregator: " ++ e.message
  | .unreadable fault => "Failed to read stdin: " ++ fault.message
  | .notice n => n.message
  | .shipped events => "Shipped " ++ Decimal.ofNat events ++ " log events"

/-! ## Writing -/

/-- Whether a character is one of the orders to a terminal that are a single octet: bell, backspace,
form feed, escape and delete. -/
def isOrder (c : Char) : Bool :=
  c = '\x07' || c = '\x08' || c = '\x0c' || c = '\x1b' || c = '\x7f'

/-- Whether a character is one of the orders to a terminal beyond ASCII. -/
def isWideOrder (c : Char) : Bool := 0x80 ≤ c.toNat && c.toNat ≤ 0x9F

/-- A character as it stands in a written report. -/
def writeChar (c : Char) : Text :=
  if isOrder c then ['\\', 'x', Nat.digitChar (c.toNat / 16), Nat.digitChar (c.toNat % 16)]
  else if isWideOrder c then "\\u\x7b" ++ Nat.toDigits 16 c.toNat ++ "\x7d"
  else [c]

/-- The width of the column of severities. -/
def levelWidth : Nat := 5

/-- The report as it is written. -/
def text (report : Report) : Text :=
  List.replicate (levelWidth - report.level.name.length) ' ' ++ report.level.name
    ++ ' ' :: report.target ++ ": " ++ report.message.flatMap writeChar

/-- A character that is no order to a terminal is written as it is. -/
theorem writeChar_plain {c : Char} (h : isOrder c = false) (h' : isWideOrder c = false) :
    writeChar c = [c] := by
  simp [writeChar, h, h']

end Report

end LogShipper.Agent
