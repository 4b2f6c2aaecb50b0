import LogShipper.Agent.Filter
import LogShipper.Agent.Session
import LogShipper.Url.Reading

/-!
# The agent

The command line of the agent: it takes its settings from the environment and the log from standard
input, and writes its reports to standard error.

No sockets are at hand here, so that every connection is reported as unreachable.
-/

namespace LogShipper.Agent

/-- The variables that the agent looks at. -/
def variableNames : List String :=
  ["LOGPULSE_ENTITY", "LOGPULSE_HOSTNAME", "HOSTNAME", "LOGPULSE_TAGS", "LOGPULSE_DESTINATION",
    "LOGPULSE_IGNORE_SSL_ERRORS", "LOGPULSE_METRIC_PREFIX", "LOGPULSE_INTERVAL_MS",
    "LOGPULSE_MIN_INTERVAL_MS", "LOGPULSE_MIN_INTERVAL_THRESHOLD", "LOGPULSE_REPEAT_COUNT",
    "LOGPULSE_SKIP_THRESHOLD", "LOGPULSE_CHECK_INTERVAL_MS", "LOGPULSE_MIN_SEVERITY",
    "LOGPULSE_LOG_LEVEL"]

/-- The environment of the process. -/
def readEnvironment : IO Environment :=
  variableNames.foldlM (fun env name => do
    match ← IO.getEnv name with
    | some value => return env.insert name value
    | none => return env) .empty

/-- The first word of a file of the system, if there is one. -/
def firstWord? (path : String) : IO (Option Text) := do
  try
    let word := (Text.trim (← IO.FS.readFile path)).takeWhile fun c => !isBlank c
    return if word.isEmpty then none else some word
  catch _ => return none

/-- What the system says about the process. -/
def readFacts (hostname : Text) : IO Wire.ProcessFacts := do
  let pid ← firstWord? "/proc/self/stat"
  return {
    command := "logpulse-agent"
    pid := (pid.bind (Decimal.readNat? UInt32.size)).getD 0
    hostname
    os := "linux"
    arch := "x86_64"
    version := "0.1.0" }

/-- All octets of a stream. -/
partial def readAll (stream : IO.FS.Stream) (octets : ByteArray) : IO ByteArray := do
  let more ← stream.read 65536
  if more.isEmpty then return octets else readAll stream (octets ++ more)

end LogShipper.Agent

open LogShipper LogShipper.Agent in
def main : IO UInt32 := do
  let environment ← readEnvironment
  let systemHost ← firstWord? "/proc/sys/kernel/hostname"
  let facts ← readFacts (environment.hostName systemHost)
  let octets ← readAll (← IO.getStdin) .empty
  let session : Session :=
    { urls := Url.reader
      filters := Filter.reader
      environment, systemHost, facts, network := .unreachable, input := octets.toList }
  let result := session.run
  let output ← IO.getStderr
  for report in session.shown result do
    output.putStrLn (String.ofList report.text)
  return UInt32.ofNat result.exitCode
