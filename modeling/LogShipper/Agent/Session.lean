import LogShipper.Agent.Input
import LogShipper.Agent.Line
import LogShipper.Agent.Report
import LogShipper.Aggregator.Schedule
import LogShipper.Settings.Environment
import LogShipper.Transport.Network

/-!
# Sessions of the agent

The agent reads lines of a log and registers each that is not blank as an event, until the input
ends or is no text. Then it stops its shipper, which makes the last pass. Settings that are refused
end the session at once.

How URLs and filters are read is not for the agent to say; it is given readers of both.
-/

namespace LogShipper.Agent

open Transport Wire

/-- What the agent is given. -/
structure Session where
  urls : UrlReader
  filters : FilterReader
  environment : Environment
  /-- What the system says about the name of the host. -/
  systemHost : Option Text
  facts : ProcessFacts
  network : Network
  input : List UInt8
  /-- How long the agent waits before each line, by its number; without a time nothing else runs in
  between. -/
  idle : Nat → Option Nat := fun _ => none

/-- What comes of a session. -/
structure Result where
  exitCode : Nat
  reports : List Report
  /-- The shipper at the end, if one was made. -/
  run : Option (Run Link) := none

namespace Session

/-- The least severity of the events that are sampled. -/
def leastSeverity (session : Session) : Severity :=
  ((session.environment.find? "LOGPULSE_MIN_SEVERITY").bind Severity.ofWord?).getD .info

/-- The directives that keep the libraries of the agent quiet. -/
def quiet : Text := "h2=off,hyper=off,rustls=off,"

/-- The filter for the reports. If its directives cannot be read, informations and all that is more
serious are shown. -/
def filter (session : Session) : ReportFilter :=
  let chosen := Text.lower ((session.environment.find? "LOGPULSE_LOG_LEVEL").getD "info")
  (session.filters (quiet ++ chosen)).getD fun _ severity => .info ≤ severity

/-- Registers lines, which are numbered from `n` on. -/
def feed (session : Session) (s : Shipper) (n : Nat) (r : Run Link) : List Text → Run Link
  | [] => r
  | line :: lines =>
    let r := (session.idle n).elim r (r.sleep s)
    let r := if line.isAllBlank then r
      else (r.register s ((parseLine line).reading session.leastSeverity)).1
    session.feed s (n + 1) r lines

/-- The notices in a history, in order. -/
def notices (h : History) : List Report :=
  (h.filterMap fun e => match e.occurrence with
    | .noticed n => some (.notice n)
    | _ => none).reverse

/-- The transport to the destination of the shipper. -/
def link (session : Session) (s : Shipper) : Link :=
  { writer := .ofDestination s.destination, network := session.network }

/-- Ships the input. -/
def ship (session : Session) (s : Shipper) : Result :=
  let started := ((Run.new s (session.link s) 0).start true).1
  let (lines, fault) := inputLines session.input
  let fed := session.feed s 0 started lines
  let stopped := fed.cancel.stop s
  { exitCode := 0
    reports := notices fed.history ++ fault.toList.map .unreadable
      ++ notices (stopped.history.take (stopped.history.length - fed.history.length))
      ++ [.shipped stopped.intake.totalEvents]
    run := some stopped }

/-- Runs the agent. -/
def run (session : Session) : Result :=
  match Settings.ofEnvironment session.urls session.environment session.systemHost with
  | .error e => { exitCode := 1, reports := [.refused e] }
  | .ok settings =>
    let first := Report.shipping settings.destination settings.entity
    match Shipper.build session.urls settings session.facts with
    | .error e => { exitCode := 1, reports := [first, .notCreated e] }
    | .ok s =>
      let result := session.ship s
      { result with reports := first :: result.reports }

/-- The reports of a result that the filter shows. -/
def shown (session : Session) (result : Result) : List Report :=
  result.reports.filter fun report => session.filter report.target report.level

end Session

end LogShipper.Agent
