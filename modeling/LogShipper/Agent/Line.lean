import LogShipper.Event.Record

/-!
# Lines of a log

A line of a log may start with the word of a severity and then with the name of a logger in
brackets; the rest is the message. A line without severity is an information, and one without
logger comes from `stdin`.
-/

namespace LogShipper.Agent

/-- The logger of a line that names none. -/
def defaultLogger : Text := "stdin"

/-- The severity at the start of a line, and the rest of the line. -/
def readLevel (line : Text) : Severity × Text :=
  match Text.cutAt? isBlank line with
  | some (word, rest) =>
    match Severity.ofWord? word with
    | some level => (level, Text.trimStart rest)
    | none => (.info, line)
  | none =>
    match Severity.ofWord? line with
    | some level => (level, [])
    | none => (.info, line)

/-- The logger at the start of a text, and the message after it. Brackets around nothing but
blanks belong to the message. -/
def readLogger (t : Text) : Text × Text :=
  match t with
  | '[' :: tail =>
    match Text.cutAt? (· = ']') tail with
    | some (logger, message) =>
      if logger.isAllBlank then (defaultLogger, t) else (Text.trim logger, Text.trimStart message)
    | none => (defaultLogger, t)
  | _ => (defaultLogger, t)

/-- The record of a line. -/
def parseLine (line : Text) : Record :=
  let (level, rest) := readLevel (Text.trimEnd line)
  let (logger, message) := readLogger rest
  { target := logger, level, message }

end LogShipper.Agent
