import LogShipper.Aggregator.History
import LogShipper.Aggregator.Reporting

/-!
# Runs

A run is a shipper at work on a clock of milliseconds: its intake, its flush side, its transport,
and the flush task, which owns the transport. Events may be registered at any time, also while the
task writes.

The task looks at three things, in this order: whether it is cancelled, whether a fatal event woke
it, and whether a tick is due. A wake-up brings the waiting samples away; a tick makes a pass,
which announces the property lines if they are stale, flushes the series if they are due, and
brings the samples away. All lines of a pass go into one write. When the task is cancelled it makes
one last pass, which flushes in any case, closes the transport and ends.

`advance?` is the next thing that can happen at the present instant. How the clock goes on is left
to the schedule.
-/

namespace LogShipper

open Wire

/-- What follows a write of the flush task. -/
inductive Next where
  /-- The task looks again; the next tick is due at the instant. -/
  | resume (due : Nat)
  /-- The transport is closed. -/
  | close
deriving DecidableEq, Repr

/-- What the flush task is doing. -/
inductive Task where
  | absent
  /-- The task exists and has not yet looked at anything. -/
  | spawned
  /-- The task looks, or has looked at everything and waits; the next tick is due at the instant. -/
  | looking (waits : Bool) (due : Nat)
  /-- The task writes lines until an instant. -/
  | writing (lines : List Rendered) (ends : Nat) (next : Next)
  | ended
deriving DecidableEq, Repr

/-- Whether a shipper was started and stopped. -/
inductive Lifecycle where
  | idle
  | running
  | stopped
deriving DecidableEq, Repr

/-- Why a shipper was not started. -/
inductive StartError where
  | noRuntime
  | alreadyStarted
  | stopped
deriving DecidableEq, Repr

/-- The wording of the error. -/
def StartError.message : StartError → Text
  | .noRuntime => "no tokio runtime to run the flush task on"
  | .alreadyStarted => "aggregator already started"
  | .stopped => "aggregator has been stopped"

/-- A shipper at work. -/
structure Run (τ : Type) where
  now : Nat
  intake : Intake
  reporting : Reporting
  transport : τ
  task : Task := .absent
  lifecycle : Lifecycle := .idle
  /-- Whether the task is to end. -/
  cancelled : Bool := false
  /-- Whether the last pass was made. -/
  finalFlushed : Bool := false
  /-- The wake-ups that the task has yet to take. -/
  wakeups : Nat := 0
  /-- The number of writes that began. -/
  writes : Nat := 0
  /-- How long each write takes, by its number. -/
  pace : Nat → Nat := fun _ => 0
  history : History := []

namespace Run

variable {τ : Type}

/-- The run of a shipper that is made at an instant. -/
def new (s : Shipper) (transport : τ) (now : Nat) : Run τ where
  now
  intake := .new s
  reporting := .new s now
  transport

/-! ## History -/

/-- Notes an occurrence at the present instant. -/
def note (r : Run τ) (o : Occurrence) : Run τ := { r with history := ⟨r.now, o⟩ :: r.history }

/-- Notes some notices. -/
def noteAll (r : Run τ) (notices : List Notice) : Run τ :=
  notices.foldl (fun r n => r.note (.noticed n)) r

/-! ## Producers -/

/-- Wakes the task. A waiting task takes a wake-up at once, so that one more is remembered; any
other task remembers one. -/
def wake (r : Run τ) : Run τ :=
  match r.task with
  | .looking true _ => { r with wakeups := min (r.wakeups + 1) 2 }
  | _ => { r with wakeups := 1 }

/-- Registers an event. -/
def register (s : Shipper) (r : Run τ) (reading : Reading) : Run τ × Sampling :=
  let registered := r.intake.register s r.now reading
  let r := { r with intake := registered.1 }.note (.registered reading registered.2)
  (match registered.2 with
    | .urgent _ => r.wake
    | _ => r,
    registered.2)

/-! ## Passes -/

/-- Takes out the waiting samples and writes their lines. -/
def collect (s : Shipper) (r : Run τ) : Run τ × List Rendered :=
  let collected := r.intake.collect
  let dropped := collected.2.dropped
  let lines := s.renderAll (collected.2.samples.map .message)
  let report := if dropped = 0 then [] else [.dropped dropped r.intake.queue.threshold]
  (({ r with intake := collected.1 }.note (.collected collected.2)).noteAll (report ++ lines.2),
    lines.1)

/-- Announces the property lines if they are stale. -/
def announce (s : Shipper) (r : Run τ) : Run τ × List Rendered :=
  let announced := r.reporting.announce r.now
  ({ r with reporting := announced.1 }, (s.renderAll announced.2).1)

/-- Flushes the series. -/
def flush (s : Shipper) (forced : Bool) (r : Run τ) : Run τ × List Rendered :=
  let flushed := r.reporting.flush r.now r.intake.counter
  let lines := s.renderAll (Reporting.batchLines flushed.2)
  (({ r with
      reporting := flushed.1
      intake := { r.intake with eventsSinceFlush := 0 } }.note (.flushed forced flushed.2)).noteAll
        lines.2,
    lines.1)

/-- Flushes the series if they are due, and in any case in a forced pass. -/
def flushIfDue (s : Shipper) (forced : Bool) (r : Run τ) : Run τ × List Rendered :=
  if forced || r.reporting.isDue s r.now r.intake.eventsSinceFlush then r.flush s forced
  else (r, [])

/-- What follows a write, without one: the task looks again, or the transport is closed. -/
def proceed [Transport τ] (r : Run τ) : Next → Run τ
  | .resume due => { r with task := .looking false due }
  | .close =>
    let closed := Transport.close r.transport
    let r := { r with transport := closed.1, task := .ended }.note (.closed closed.2)
    match closed.2 with
    | .ok _ => r
    | .error e => r.note (.noticed (.closeFailed e))

/-- Begins the write of some lines, unless there are none. -/
def send [Transport τ] (lines : List Rendered) (next : Next) (r : Run τ) : Run τ :=
  if lines.isEmpty then r.proceed next
  else
    { r with
      task := .writing lines (r.now + r.pace r.writes) next
      writes := r.writes + 1 }.note (.attempted lines)

/-- A pass of the flush task. -/
def pass [Transport τ] (s : Shipper) (forced : Bool) (next : Next) (r : Run τ) : Run τ :=
  let announced := (r.note (.passed forced)).announce s
  let flushed := announced.1.flushIfDue s forced
  let collected := flushed.1.collect s
  collected.1.send (announced.2 ++ flushed.2 ++ collected.2) next

/-- The last pass, which is made once. -/
def finish [Transport τ] (s : Shipper) (r : Run τ) : Run τ :=
  if r.finalFlushed then { r with task := .ended }
  else { r with finalFlushed := true }.pass s true .close

/-! ## The flush task -/

/-- The payload of some lines. -/
def payloadOf (lines : List Rendered) : List UInt8 :=
  Utf8.encode (payload (lines.map Rendered.text))

/-- The end of a write. -/
def complete [Transport τ] (lines : List Rendered) (next : Next) (r : Run τ) : Run τ :=
  let written := Transport.write r.transport (payloadOf lines)
  let r := { r with transport := written.transport }.noteAll (written.notices.map .transport)
  let r := match written.result with
    | .ok _ => r.note (.delivered lines)
    | .error e => (r.note (.lost lines e)).note (.noticed (.sendFailed lines.length e))
  r.proceed next

/-- The instant after which a tick counts as late. -/
def lateness : Nat := 5

/-- When the tick after one that was due at some instant is due. After a late tick the time is
counted from now. -/
def nextTick (s : Shipper) (due now : Nat) : Nat :=
  if due + lateness < now then now + s.settings.checkInterval else due + s.settings.checkInterval

/-- The next thing that the task does at the present instant, if there is anything. -/
def advance? [Transport τ] (s : Shipper) (r : Run τ) : Option (Run τ) :=
  match r.task with
  | .absent | .ended => none
  | .spawned => some { r with task := .looking false r.now }
  | .looking waits due =>
    if r.cancelled then some ((r.note (.noticed .shuttingDown)).finish s)
    else if 0 < r.wakeups then
      let collected := { r with wakeups := r.wakeups - 1 }.collect s
      some (collected.1.send collected.2 (.resume due))
    else if due ≤ r.now then some (r.pass s false (.resume (nextTick s due r.now)))
    else if waits then none
    else some { r with task := .looking true due }
  | .writing lines ends next => if ends ≤ r.now then some (r.complete lines next) else none

/-! ## Starting and stopping -/

/-- Starts the flush task, inside a runtime. -/
def start (inRuntime : Bool) (r : Run τ) : Run τ × Except StartError Unit :=
  if !inRuntime then (r, .error .noRuntime)
  else match r.lifecycle with
    | .running => (r, .error .alreadyStarted)
    | .stopped => (r, .error .stopped)
    | .idle => ({ r with lifecycle := .running, task := .spawned }.note .spawned, .ok ())

/-- Tells the task to end, also one that is started later. -/
def cancel (r : Run τ) : Run τ := { r with cancelled := true }

/-- The first half of stopping: a running task is told to end, and a shipper that was never
started makes its last pass at once. -/
def requestStop [Transport τ] (s : Shipper) (r : Run τ) : Run τ :=
  match r.lifecycle with
  | .idle => { r with lifecycle := .stopped }.finish s
  | .running => { r with lifecycle := .stopped }.cancel
  | .stopped => r

/-- The second half of stopping a shipper that ran: once the task has ended, the last pass is made
unless the task made it. -/
def concludeStop [Transport τ] (s : Shipper) (r : Run τ) : Run τ :=
  match r.task with
  | .ended => r.finish s
  | _ => r

/-- Whether the shipper was started and not stopped. -/
def isRunning (r : Run τ) : Bool := r.lifecycle = .running

end Run

end LogShipper
