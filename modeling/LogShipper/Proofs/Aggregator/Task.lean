import LogShipper.Proofs.Aggregator.Effects

/-!
# What the flush task does

Starting and stopping make a task, tell it to end, or make the last pass in its place; which of it
they do is said by `Run.start_cases`, `Run.requestStop_cases` and `Run.concludeStop_cases`.

`Run.Advance` names the six things that the flush task can do, each with the condition under which
it does it (`Run.advance_of_advance?`).  A running task that can do nothing waits, with no wake-up
left to take and its next tick ahead (`Run.waits_of_idle`).

Sending lines, and what follows the end of a write, concern the task, the transport and the history
alone; what they make of the run is said by `Run.proceed_eq`, `Run.send_eq` and `Run.complete_eq`.
-/

namespace LogShipper

open Wire Transport

/-- The instant at which the next tick is due, if the task will tick again. -/
def Next.due? : Next → Option Nat
  | .resume due => some due
  | .close => none

/-- The instant at which the next tick of the task is due. -/
def Task.due? : Task → Option Nat
  | .looking _ due => some due
  | .writing _ _ next => next.due?
  | _ => none

/-- The lines that the task writes. -/
def Task.pending? : Task → Option (List Rendered)
  | .writing lines _ _ => some lines
  | _ => none

namespace Run

variable {τ : Type}

/-! ## Starting and stopping -/

/-- Starting is refused, which changes nothing, or a new task comes into being. -/
theorem start_cases (r : Run τ) (inRuntime : Bool) : (r.start inRuntime).1 = r ∨
    r.lifecycle = .idle ∧ (r.start inRuntime).1 =
      ({ r with lifecycle := .running, task := .spawned } : Run τ).note .spawned := by
  unfold start
  split
  · exact .inl rfl
  split
  · exact .inl rfl
  · exact .inl rfl
  · exact .inr ⟨‹_›, rfl⟩

variable [Transport τ] {s : Shipper}

/-- Stopping begins: a shipper that was never started makes its last pass, a running one is told to
end, and nothing happens to one that was stopped before. -/
theorem requestStop_cases (s : Shipper) (r : Run τ) :
    (r.lifecycle = .idle ∧ r.requestStop s = ({ r with lifecycle := .stopped } : Run τ).finish s) ∨
    (r.lifecycle = .running ∧
      r.requestStop s = { r with lifecycle := .stopped, cancelled := true }) ∨
    r.lifecycle = .stopped ∧ r.requestStop s = r := by
  unfold requestStop
  split
  · exact .inl ⟨‹_›, rfl⟩
  · exact .inr (.inl ⟨‹_›, rfl⟩)
  · exact .inr (.inr ⟨‹_›, rfl⟩)

/-- Stopping ends with the last pass of a task that has ended, or nothing is changed. -/
theorem concludeStop_cases (s : Shipper) (r : Run τ) :
    (r.task = .ended ∧ r.concludeStop s = r.finish s) ∨ r.concludeStop s = r := by
  unfold concludeStop
  split
  · exact .inl ⟨‹_›, rfl⟩
  · exact .inr rfl

/-! ## The things that it can do -/

/-- One thing that the flush task does. -/
inductive Advance (s : Shipper) (r : Run τ) : Run τ → Prop
  /-- A new task looks for the first time; its first tick is due at once. -/
  | begin (htask : r.task = .spawned) : Advance s r { r with task := .looking false r.now }
  /-- A task that was told to end makes the last pass. -/
  | finish {waits : Bool} {due : Nat} (htask : r.task = .looking waits due)
    (hcancelled : r.cancelled = true) : Advance s r ((r.note (.noticed .shuttingDown)).finish s)
  /-- A task that was woken brings the samples away. -/
  | wake {waits : Bool} {due : Nat} {woken : Run τ} (htask : r.task = .looking waits due)
    (hcancelled : r.cancelled = false) (hwakeups : 0 < r.wakeups)
    (hwoken : woken = { r with wakeups := r.wakeups - 1 }) :
    Advance s r ((woken.collect s).1.send (woken.collect s).2 (.resume due))
  /-- A task whose tick is due makes a pass. -/
  | tick {waits : Bool} {due : Nat} (htask : r.task = .looking waits due)
    (hcancelled : r.cancelled = false) (hwakeups : r.wakeups = 0) (hdue : due ≤ r.now) :
    Advance s r (r.pass s false (.resume (nextTick s due r.now)))
  /-- A task that has looked at everything waits. -/
  | wait {due : Nat} (htask : r.task = .looking false due) (hcancelled : r.cancelled = false)
    (hwakeups : r.wakeups = 0) (hdue : r.now < due) :
    Advance s r { r with task := .looking true due }
  /-- A write ends. -/
  | complete {lines : List Rendered} {ends : Nat} {next : Next}
    (htask : r.task = .writing lines ends next) (hends : ends ≤ r.now) :
    Advance s r (r.complete lines next)

/-- The task does nothing else. -/
theorem advance_of_advance? {r next : Run τ} (h : r.advance? s = some next) :
    Advance s r next := by
  unfold advance? at h
  split at h
  · exact absurd h nofun
  · exact absurd h nofun
  · rename_i htask
    obtain rfl := Option.some.inj h
    exact .begin htask
  · rename_i waits due htask
    by_cases hcancelled : r.cancelled = true
    · rw [if_pos hcancelled] at h
      obtain rfl := Option.some.inj h
      exact .finish htask hcancelled
    rw [if_neg hcancelled] at h
    rw [Bool.not_eq_true] at hcancelled
    by_cases hwakeups : 0 < r.wakeups
    · rw [if_pos hwakeups] at h
      obtain rfl := Option.some.inj h
      exact .wake htask hcancelled hwakeups rfl
    rw [if_neg hwakeups] at h
    rw [Nat.not_lt, Nat.le_zero] at hwakeups
    by_cases hdue : due ≤ r.now
    · rw [if_pos hdue] at h
      obtain rfl := Option.some.inj h
      exact .tick htask hcancelled hwakeups hdue
    rw [if_neg hdue] at h
    cases waits with
    | true => cases h
    | false =>
      obtain rfl := Option.some.inj h
      exact .wait htask hcancelled hwakeups (Nat.not_le.1 hdue)
  · rename_i lines ends following htask
    split at h
    · rename_i hends
      obtain rfl := Option.some.inj h
      exact .complete htask hends
    · exact absurd h nofun

/-- A task that exists, was not told to end and does not write can only do nothing while it waits:
no wake-up is left, and the next tick lies ahead. -/
theorem waits_of_idle {r : Run τ} (hidle : r.advance? s = none) (habsent : r.task ≠ .absent)
    (hended : r.task ≠ .ended) (hfree : r.task.pending? = none) (hcancelled : r.cancelled = false) :
    ∃ due, r.task = .looking true due ∧ r.wakeups = 0 ∧ r.now < due := by
  cases htask : r.task with
  | absent => exact absurd htask habsent
  | ended => exact absurd htask hended
  | spawned =>
    unfold advance? at hidle
    rw [htask] at hidle
    cases hidle
  | writing lines ends next =>
    rw [htask] at hfree
    cases hfree
  | looking waits due =>
    unfold advance? at hidle
    rw [htask] at hidle
    dsimp only at hidle
    rw [if_neg (by rw [hcancelled]; nofun)] at hidle
    split at hidle
    · cases hidle
    split at hidle
    · cases hidle
    rename_i hwakeups hdue
    cases waits with
    | false => cases hidle
    | true => exact ⟨due, rfl, Nat.le_zero.1 (Nat.not_lt.1 hwakeups), Nat.not_le.1 hdue⟩

/-! ## What it changes -/

/-- What follows a write leaves the rest of the run alone. -/
theorem proceed_eq (r : Run τ) (next : Next) : ∃ transport task added,
    r.proceed next = { r with transport, task, history := added ++ r.history } ∧
      task.due? = next.due? ∧ task.pending? = none ∧ History.IsPassive added := by
  cases next with
  | resume due => exact ⟨r.transport, .looking false due, [], rfl, rfl, rfl, List.forall_mem_nil _⟩
  | close =>
    unfold proceed
    dsimp only
    let closed : Entry := ⟨r.now, .closed (Transport.close r.transport).2⟩
    split
    · exact ⟨_, .ended, [closed], rfl, rfl, rfl, List.forall_mem_singleton.2 rfl⟩
    · rename_i error _
      refine ⟨_, .ended, [⟨r.now, .noticed (.closeFailed error)⟩, closed], rfl, rfl, rfl, ?_⟩
      exact List.forall_mem_cons.2 ⟨rfl, List.forall_mem_singleton.2 rfl⟩

/-- Sending lines leaves the rest of the run alone; a write that begins takes as long as laid
down. -/
theorem send_eq (r : Run τ) (lines : List Rendered) (next : Next) : ∃ transport task writes added,
    r.send lines next = { r with transport, task, writes, history := added ++ r.history } ∧
      task.due? = next.due? ∧ History.IsPassive added ∧
      ∀ lines' ends next', task = .writing lines' ends next' → ends = r.now + r.pace r.writes := by
  unfold send
  split
  · obtain ⟨transport, task, added, heq, hdue, hpending, hpassive⟩ := r.proceed_eq next
    refine ⟨transport, task, r.writes, added, heq, hdue, hpassive, ?_⟩
    rintro lines' ends next' rfl
    cases hpending
  · refine ⟨r.transport, .writing lines (r.now + r.pace r.writes) next, r.writes + 1,
      [⟨r.now, .attempted lines⟩], rfl, rfl, List.forall_mem_singleton.2 rfl, ?_⟩
    intro lines' ends next' htask
    exact (Task.writing.inj htask).2.1.symm

/-- The last pass, unless it was made before, flushes once, and everything that happened before it
had happened then. -/
theorem history_finish (s : Shipper) {r : Run τ} (h : r.finalFlushed = false) : ∃ later batch,
    (r.finish s).history = later ++ ⟨r.now, .flushed true batch⟩ :: ⟨r.now, .passed true⟩ ::
      r.history ∧ ∀ e ∈ later, e.occurrence.isFlush = false := by
  let last : Run τ := { r with finalFlushed := true }
  have hlast : r.finish s = last.pass s true .close := if_neg (by rw [h]; nofun)
  obtain ⟨_, _, notices, collected, flushes, hgathered, hflushes⟩ := last.gathered_eq s true
  rcases hflushes with ⟨-, hforced⟩ | ⟨notices', batch, rfl⟩
  · cases hforced
  obtain ⟨_, _, _, added, hsent, -, hpassive, -⟩ :=
    (last.gathered s true).1.send_eq (last.gathered s true).2 .close
  refine ⟨added ++ (noticed r.now notices ++ ⟨r.now, .collected collected⟩ ::
    noticed r.now notices'), batch, ?_, ?_⟩
  · rw [hlast, pass_eq, hsent, hgathered]
    simp [last]
  · refine List.forall_mem_append.2
      ⟨fun e he => Occurrence.isFlush_of_not_isPassing (hpassive e he), ?_⟩
    refine List.forall_mem_append.2 ⟨forall_mem_noticed.2 fun _ _ => rfl, ?_⟩
    exact List.forall_mem_cons.2 ⟨rfl, forall_mem_noticed.2 fun _ _ => rfl⟩

/-- The end of a write leaves the rest of the run alone. -/
theorem complete_eq (r : Run τ) (lines : List Rendered) (next : Next) : ∃ transport task added,
    r.complete lines next = { r with transport, task, history := added ++ r.history } ∧
      task.due? = next.due? ∧ task.pending? = none ∧ History.IsPassive added := by
  let written := Transport.write r.transport (payloadOf lines)
  let notices := noticed r.now (written.notices.map Notice.transport).reverse
  have hnotices : History.IsPassive notices := History.isPassive_noticed _ _
  unfold complete
  dsimp only
  rw [noteAll_eq_noticed]
  split
  · obtain ⟨transport, task, added, heq, hdue, hpending, hpassive⟩ := proceed_eq
      (note { r with transport := written.transport, history := notices ++ r.history }
        (.delivered lines)) next
    refine ⟨transport, task, added ++ ⟨r.now, .delivered lines⟩ :: notices, ?_, hdue, hpending, ?_⟩
    · rw [List.append_assoc]
      exact heq
    · exact List.forall_mem_append.2 ⟨hpassive, List.forall_mem_cons.2 ⟨rfl, hnotices⟩⟩
  · rename_i error _
    obtain ⟨transport, task, added, heq, hdue, hpending, hpassive⟩ := proceed_eq
      (note (note { r with transport := written.transport, history := notices ++ r.history }
        (.lost lines error)) (.noticed (.sendFailed lines.length error))) next
    refine ⟨transport, task, added ++ ⟨r.now, .noticed (.sendFailed lines.length error)⟩ ::
      ⟨r.now, .lost lines error⟩ :: notices, ?_, hdue, hpending, ?_⟩
    · rw [List.append_assoc]
      exact heq
    · refine List.forall_mem_append.2 ⟨hpassive, ?_⟩
      exact List.forall_mem_cons.2 ⟨rfl, List.forall_mem_cons.2 ⟨rfl, hnotices⟩⟩

end Run

end LogShipper
