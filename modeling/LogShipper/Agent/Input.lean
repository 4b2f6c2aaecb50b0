import LogShipper.Text.Utf8
import LogShipper.Transport.Packing

/-!
# Input

The lines of a row of octets. A line ends with a line feed, perhaps after a carriage return, or
with the octets. The first line that is not text ends the input.
-/

namespace LogShipper.Agent

/-- A line without its line feed and the carriage return before that. -/
def stripLineEnd (line : List UInt8) : List UInt8 :=
  match line.reverse with
  | 0x0A :: 0x0D :: rest => rest.reverse
  | 0x0A :: rest => rest.reverse
  | _ => line

/-- The texts of lines up to the first that is not text, and what is wrong with that one. -/
def readLines : List (List UInt8) → List Text × Option Utf8.Fault
  | [] => ([], none)
  | line :: lines =>
    match Utf8.decode (stripLineEnd line) with
    | .error fault => ([], some fault)
    | .ok text =>
      let rest := readLines lines
      (text :: rest.1, rest.2)

/-- The lines of some octets. -/
def inputLines (octets : List UInt8) : List Text × Option Utf8.Fault :=
  readLines (Transport.linesOf octets)

end LogShipper.Agent
