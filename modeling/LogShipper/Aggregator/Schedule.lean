import LogShipper.Aggregator.Run

/-!
# The clock

How a run goes on in time. `settle` lets everything happen that can happen at the present instant;
`activity` bounds how much that is. `sleep` lets time pass, through all instants at which the task
wants to do something, and `stop` waits for the task to end.

A `Step` is one thing that the world does to a shipper.
-/

namespace LogShipper

namespace Run

variable {τ : Type} [Transport τ]

/-! ## The present instant -/

/-- A bound on what can still happen at the present instant. Each wake-up counts for a pass and its
write, and so does each millisecond since a tick was due, as ticks are at least one apart. -/
def activity (r : Run τ) : Nat :=
  let passes (due : Nat) := 3 * r.wakeups + 3 * (r.now + 1 - due)
  match r.task with
  | .absent | .ended => 0
  | .spawned => passes r.now + 12
  | .looking waits due => passes due + if waits then 10 else 11
  | .writing _ _ (.resume due) => passes due + 12
  | .writing _ _ .close => 1

/-- Does the next things, as many as given. -/
def advanceFor (s : Shipper) : Nat → Run τ → Run τ
  | 0, r => r
  | n + 1, r =>
    match r.advance? s with
    | none => r
    | some next => advanceFor s n next

/-- Does everything that can happen at the present instant. -/
def settle (s : Shipper) (r : Run τ) : Run τ := advanceFor s r.activity r

/-! ## Later instants -/

/-- The next instant at which the task wants to do something. -/
def timer? (r : Run τ) : Option Nat :=
  match r.task with
  | .looking _ due => some due
  | .writing _ ends _ => some ends
  | _ => none

/-- Sets the clock to a later instant. -/
def elapse (instant : Nat) (r : Run τ) : Run τ := { r with now := max r.now instant }

/-- Goes through the instants up to a target at which the task wants to do something, as many as
given. -/
def sleepFor (s : Shipper) (target : Nat) : Nat → Run τ → Run τ
  | 0, r => r
  | n + 1, r =>
    match r.timer? with
    | none => r
    | some instant =>
      if r.now < instant ∧ instant ≤ target then
        sleepFor s target n ((r.elapse instant).settle s)
      else r

/-- Lets time pass. -/
def sleep (s : Shipper) (duration : Nat) (r : Run τ) : Run τ :=
  let target := r.now + duration
  ((sleepFor s target duration (r.settle s)).elapse target).settle s

/-- Waits for the ends of writes, as many as given, until the task is idle or has ended. -/
def awaitWrites (s : Shipper) : Nat → Run τ → Run τ
  | 0, r => r
  | n + 1, r =>
    match r.task with
    | .writing _ ends _ => awaitWrites s n ((r.elapse ends).settle s)
    | _ => r

/-- Stops the shipper and waits for the last pass. A write may be under way, and the last pass
may make one more. A shipper that ran would make its last pass here if its task had ended without
one. -/
def stop (s : Shipper) (r : Run τ) : Run τ :=
  let awaited := awaitWrites s 2 ((r.requestStop s).settle s)
  if r.isRunning then awaitWrites s 1 ((awaited.concludeStop s).settle s) else awaited

end Run

/-! ## Steps -/

/-- One thing that the world does to a shipper. -/
inductive Step (τ : Type) where
  | register (reading : Reading)
  | start (inRuntime : Bool)
  | cancel
  | stop
  /-- Everything happens that can happen now. -/
  | settle
  | sleep (duration : Nat)
  /-- Writes take other times from now on, by their numbers. -/
  | pace (durations : Nat → Nat)
  /-- Something outside changes the transport. -/
  | disturb (change : τ → τ)

/-- What a step answers. -/
inductive Answer where
  | done
  | registered (sampling : Sampling)
  | started (result : Except StartError Unit)

namespace Run

variable {τ : Type} [Transport τ]

/-- Does one step. -/
def step (s : Shipper) (r : Run τ) : Step τ → Run τ × Answer
  | .register reading =>
    let registered := r.register s reading
    (registered.1, .registered registered.2)
  | .start inRuntime =>
    let started := r.start inRuntime
    (started.1, .started started.2)
  | .cancel => (r.cancel, .done)
  | .stop => (r.stop s, .done)
  | .settle => (r.settle s, .done)
  | .sleep duration => (r.sleep s duration, .done)
  | .pace durations => ({ r with pace := durations }, .done)
  | .disturb change => ({ r with transport := change r.transport }, .done)

/-- Does some steps in order. -/
def exec (s : Shipper) (r : Run τ) (steps : List (Step τ)) : Run τ :=
  steps.foldl (fun r step => (r.step s step).1) r

end Run

/-- What a diagnostic shows of a running shipper. -/
def Run.diagnostic {τ : Type} (s : Shipper) (r : Run τ) : Text :=
  "Aggregator \x7b entity: " ++ Literal.quote s.settings.entity
    ++ ", destination: " ++ Literal.quote s.settings.destination
    ++ ", total_events: " ++ Decimal.ofNat r.intake.totalEvents
    ++ ", queued_samples: " ++ Decimal.ofNat r.intake.waiting ++ ", .. \x7d"

end LogShipper
