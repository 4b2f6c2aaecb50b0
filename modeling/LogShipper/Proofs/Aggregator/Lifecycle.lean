import LogShipper.Proofs.Aggregator.Shutdown

/-!
# The life of a shipper

A shipper is idle, then it runs, then it is stopped; it may also be stopped while it is idle.  What
starting answers depends on this alone, once there is a runtime.

Only starting and stopping move a shipper along.  Whatever goes on by itself leaves its life as it
is and spawns no task (`Drift.undisturbed`), also when the task ends because it was told to, so that
a shipper whose task was cancelled still counts as running.  Hence the life of a shipper after some
steps can be read off the steps (`Run.lifecycle_exec`).
-/

namespace LogShipper

open Wire Transport

variable {τ : Type}

/-! ## Spawnings -/

/-- Whether the spawning of a task is told. -/
def Occurrence.isSpawning : Occurrence → Bool
  | .spawned => true
  | _ => false

namespace History

/-- The number of tasks that came into being. -/
def spawnings (h : History) : Nat := h.countP fun e => e.occurrence.isSpawning

@[simp] theorem spawnings_nil : spawnings [] = 0 := rfl

@[simp] theorem spawnings_cons (e : Entry) (h : History) :
    spawnings (e :: h) = spawnings h + if e.occurrence.isSpawning then 1 else 0 :=
  List.countP_cons

@[simp] theorem spawnings_append (later earlier : History) :
    spawnings (later ++ earlier) = spawnings later + spawnings earlier :=
  List.countP_append

@[simp] theorem spawnings_noticed (instant : Nat) (notices : List Notice) :
    spawnings (Run.noticed instant notices) = 0 := by
  refine List.countP_eq_zero.2 (Run.forall_mem_noticed.2 ?_)
  intro n _
  exact Bool.false_ne_true

end History

namespace Run

variable {s : Shipper}

@[simp] theorem spawnings_collect (s : Shipper) (r : Run τ) :
    (r.collect s).1.history.spawnings = r.history.spawnings := by
  rw [collect_eq]
  simp [Occurrence.isSpawning]

@[simp] theorem spawnings_gathered (s : Shipper) (forced : Bool) (r : Run τ) :
    (r.gathered s forced).1.history.spawnings = r.history.spawnings := by
  obtain ⟨_, _, notices, collected, flushes, heq, hflushes⟩ := r.gathered_eq s forced
  rw [heq]
  rcases hflushes with ⟨rfl, -⟩ | ⟨earlier, batch, rfl⟩
  · simp [Occurrence.isSpawning]
  · simp [Occurrence.isSpawning]

variable [Transport τ]

@[simp] theorem spawnings_proceed (r : Run τ) (next : Next) :
    (r.proceed next).history.spawnings = r.history.spawnings := by
  cases next with
  | resume due => rfl
  | close => unfold proceed; dsimp only; split <;> simp [note, Occurrence.isSpawning]

@[simp] theorem spawnings_send (r : Run τ) (lines : List Rendered) (next : Next) :
    (r.send lines next).history.spawnings = r.history.spawnings := by
  unfold send
  split
  · exact spawnings_proceed r next
  · simp [note, Occurrence.isSpawning]

@[simp] theorem spawnings_pass (s : Shipper) (r : Run τ) (forced : Bool) (next : Next) :
    (r.pass s forced next).history.spawnings = r.history.spawnings := by
  rw [pass_eq, spawnings_send, spawnings_gathered]

@[simp] theorem spawnings_finish (s : Shipper) (r : Run τ) :
    (r.finish s).history.spawnings = r.history.spawnings := by
  unfold finish
  split
  · rfl
  · rw [spawnings_pass]

@[simp] theorem spawnings_complete (r : Run τ) (lines : List Rendered) (next : Next) :
    (r.complete lines next).history.spawnings = r.history.spawnings := by
  unfold complete
  dsimp only
  split <;> simp [note, noteAll_eq_noticed, Occurrence.isSpawning]

end Run

/-! ## What goes on by itself -/

section Moving

variable [Transport τ] {s : Shipper} {r r' : Run τ}

/-- What goes on by itself leaves the life of a shipper as it is and spawns no task. -/
theorem Drift.undisturbed (h : Drift s r r') :
    r'.lifecycle = r.lifecycle ∧ r'.history.spawnings = r.history.spawnings := by
  cases h with
  | elapse instant => exact ⟨rfl, rfl⟩
  | advance hnext =>
    cases Run.advance_of_advance? hnext with
    | begin htask => exact ⟨rfl, rfl⟩
    | finish htask hcancelled => simp [Run.note, Occurrence.isSpawning]
    | wake htask hcancelled hwakeups hwoken =>
      subst hwoken
      exact ⟨by simp [Run.collect_eq], by simp⟩
    | tick htask hcancelled hwakeups hdue => simp
    | wait htask hcancelled hwakeups hdue => exact ⟨rfl, rfl⟩
    | complete htask hends => simp

theorem Drifts.lifecycle_eq (h : Drifts s r r') : r'.lifecycle = r.lifecycle :=
  h.keeps (P := fun x => x.lifecycle = r.lifecycle) (fun hdrift hx => hdrift.undisturbed.1.trans hx)
    rfl

/-! ## What moves a shipper along -/

/-- A move leaves the life of a shipper as it is, or starts it with a new task, or stops it. -/
theorem Move.lifecycle_cases (h : Move s r r') :
    (r'.lifecycle = r.lifecycle ∧ r'.history.spawnings = r.history.spawnings) ∨
    (r.lifecycle = .idle ∧ r'.lifecycle = .running ∧
      r'.history.spawnings = r.history.spawnings + 1) ∨
    r'.lifecycle = .stopped ∧ r'.history.spawnings = r.history.spawnings := by
  cases h with
  | register reading =>
    obtain ⟨_, heq⟩ := r.register_eq s reading
    rw [heq]
    exact .inl ⟨rfl, by simp [Occurrence.isSpawning]⟩
  | start inRuntime =>
    rcases r.start_cases inRuntime with heq | ⟨hidle, heq⟩
    · rw [heq]
      exact .inl ⟨rfl, rfl⟩
    · rw [heq]
      exact .inr (.inl ⟨hidle, rfl, by simp [Run.note, Occurrence.isSpawning]⟩)
  | cancel => exact .inl ⟨rfl, rfl⟩
  | requestStop =>
    refine .inr (.inr ⟨Run.lifecycle_requestStop s r, ?_⟩)
    rcases r.requestStop_cases s with ⟨-, heq⟩ | ⟨-, heq⟩ | ⟨-, heq⟩
    · rw [heq, Run.spawnings_finish]
    · rw [heq]
    · rw [heq]
  | concludeStop =>
    rcases r.concludeStop_cases s with ⟨-, heq⟩ | heq
    · rw [heq]
      exact .inl ⟨Run.lifecycle_finish s r, Run.spawnings_finish s r⟩
    · rw [heq]
      exact .inl ⟨rfl, rfl⟩
  | advance hnext => exact .inl (Drift.advance hnext).undisturbed
  | elapse instant => exact .inl ⟨rfl, rfl⟩
  | pace durations => exact .inl ⟨rfl, rfl⟩
  | disturb change => exact .inl ⟨rfl, rfl⟩

/-- A shipper that was stopped stays so. -/
theorem Moves.lifecycle_of_stopped (h : Moves s r r') (hr : r.lifecycle = .stopped) :
    r'.lifecycle = .stopped := by
  induction h with
  | refl => exact hr
  | tail _ hlast ih =>
    rcases hlast.lifecycle_cases with ⟨hsame, -⟩ | ⟨hidle, -⟩ | ⟨hstopped, -⟩
    · exact hsame.trans ih
    · cases hidle.symm.trans ih
    · exact hstopped

/-- At most one task was spawned, and none as long as the shipper is idle. -/
structure Run.SpawnedOnce (r : Run τ) : Prop where
  le_one : r.history.spawnings ≤ 1
  none : r.lifecycle = .idle → r.history.spawnings = 0

theorem Moves.spawnedOnce (h : Moves s r r') (hr : r.SpawnedOnce) : r'.SpawnedOnce := by
  induction h with
  | refl => exact hr
  | tail _ hlast ih =>
    rcases hlast.lifecycle_cases with
        ⟨hsame, hspawnings⟩ | ⟨hidle, hrunning, hspawnings⟩ | ⟨hstopped, hspawnings⟩
    · constructor
      · rw [hspawnings]
        exact ih.le_one
      · intro hidle
        rw [hspawnings]
        exact ih.none (hsame.symm.trans hidle)
    · constructor
      · exact Nat.le_of_eq (hspawnings.trans (congrArg (· + 1) (ih.none hidle)))
      · intro hidle
        cases hrunning.symm.trans hidle
    · constructor
      · rw [hspawnings]
        exact ih.le_one
      · intro hidle
        cases hstopped.symm.trans hidle

end Moving

/-! ## Reading the life of a shipper off the steps -/

/-- The life of a shipper after a step. -/
def Lifecycle.after : Lifecycle → Step τ → Lifecycle
  | _, .stop => .stopped
  | .idle, .start true => .running
  | life, _ => life

namespace Lifecycle

variable {steps : List (Step τ)}

/-- A shipper is stopped once a stop was among the steps. -/
theorem foldl_after_eq_stopped_iff {life : Lifecycle} :
    steps.foldl after life = .stopped ↔ life = .stopped ∨ .stop ∈ steps := by
  induction steps generalizing life with
  | nil => simp
  | cons first rest ih =>
    rw [List.foldl_cons, ih, List.mem_cons]
    cases first with
    | start inRuntime => cases life <;> cases inRuntime <;> simp [after]
    | _ => cases life <;> simp [after]

/-- A shipper is idle as long as it was neither started inside a runtime nor stopped. -/
theorem foldl_after_eq_idle_iff {life : Lifecycle} :
    steps.foldl after life = .idle ↔ life = .idle ∧ .start true ∉ steps ∧ .stop ∉ steps := by
  induction steps generalizing life with
  | nil => simp
  | cons first rest ih =>
    rw [List.foldl_cons, ih, List.mem_cons, List.mem_cons]
    cases first with
    | start inRuntime => cases life <;> cases inRuntime <;> simp [after]
    | _ => cases life <;> simp [after]

/-- Otherwise it runs. -/
theorem foldl_after_idle_eq_running_iff :
    steps.foldl after .idle = .running ↔ .start true ∈ steps ∧ .stop ∉ steps := by
  have hstopped : steps.foldl after idle = stopped ↔ idle = stopped ∨ .stop ∈ steps :=
    foldl_after_eq_stopped_iff
  have hidle : steps.foldl after idle = idle ↔
      idle = idle ∧ .start true ∉ steps ∧ .stop ∉ steps := foldl_after_eq_idle_iff
  cases hlife : steps.foldl after .idle <;> simp_all

end Lifecycle

namespace Run

section Steps

variable [Transport τ] (s : Shipper)

/-- What a step makes of the life of a shipper. -/
theorem lifecycle_step (r : Run τ) (step : Step τ) :
    (r.step s step).1.lifecycle = r.lifecycle.after step := by
  cases step with
  | register reading =>
    obtain ⟨_, heq⟩ := r.register_eq s reading
    show (r.register s reading).1.lifecycle = _
    rw [heq]
    cases r.lifecycle <;> rfl
  | start inRuntime =>
    show (r.start inRuntime).1.lifecycle = _
    unfold start
    cases hlife : r.lifecycle <;> cases inRuntime <;> simp [hlife, Lifecycle.after, note]
  | cancel => cases hlife : r.lifecycle <;> exact hlife
  | stop =>
    exact stop_keeps (P := fun x => x.lifecycle = .stopped)
      (fun hdrift h => hdrift.undisturbed.1.trans h)
      (fun h => Moves.lifecycle_of_stopped (.single (.concludeStop _)) h) (lifecycle_requestStop s r)
  | settle => exact (Drifts.settle s r).lifecycle_eq.trans (by cases r.lifecycle <;> rfl)
  | sleep duration =>
    exact (Drifts.sleep s duration r).lifecycle_eq.trans (by cases r.lifecycle <;> rfl)
  | pace durations => cases hlife : r.lifecycle <;> exact hlife
  | disturb change => cases hlife : r.lifecycle <;> exact hlife

theorem lifecycle_exec (r : Run τ) (steps : List (Step τ)) :
    (r.exec s steps).lifecycle = steps.foldl Lifecycle.after r.lifecycle := by
  induction steps generalizing r with
  | nil => rfl
  | cons first rest ih =>
    rw [List.foldl_cons, ← lifecycle_step s r first]
    exact ih _

end Steps

/-! ## What starting answers -/

/-- Inside a runtime, the life of the shipper decides. -/
theorem start_true (r : Run τ) : (r.start true).2 = match r.lifecycle with
    | .idle => .ok ()
    | .running => .error .alreadyStarted
    | .stopped => .error .stopped := by
  unfold start
  cases r.lifecycle <;> rfl

/-- A start that succeeds spawns a task. -/
theorem spawnings_start {r : Run τ} (hidle : r.lifecycle = .idle) :
    (r.start true).1.history.spawnings = r.history.spawnings + 1 := by
  unfold start
  rw [hidle]
  simp [note, Occurrence.isSpawning]

/-- A start that is refused changes nothing. -/
theorem start_of_error {r : Run τ} {inRuntime : Bool} {error : StartError}
    (h : (r.start inRuntime).2 = .error error) : (r.start inRuntime).1 = r := by
  rcases r.start_cases inRuntime with heq | ⟨hidle, -⟩
  · exact heq
  · cases inRuntime with
    | false => rfl
    | true =>
      rw [start_true, hidle] at h
      cases h

variable [Transport τ]

/-- **A shipper is started once.**  Outside a runtime starting is refused.  Inside a runtime it
succeeds as long as no start inside a runtime and no stop came before, and spawns the task; after
such a start it is refused as a second start until the shipper is stopped, and after a stop, also
while the stop is under way, as too late.  The shipper counts as running in between.  A start that
is refused leaves no trace, and no course of events spawns two tasks. -/
theorem started_once (s : Shipper) (transport : τ) (now : Nat) (steps : List (Step τ)) :
    let r := (Run.new s transport now).exec s steps
    (∀ r', Moves s r r' → r'.history.spawnings ≤ 1) ∧
    (r.start false).2 = .error .noRuntime ∧
    ((r.start true).2 = .ok () ↔ .start true ∉ steps ∧ .stop ∉ steps) ∧
    ((r.start true).2 = .error .alreadyStarted ↔ .start true ∈ steps ∧ .stop ∉ steps) ∧
    ((r.start true).2 = .error .stopped ↔ .stop ∈ steps) ∧
    ((r.start true).2 = .ok () → (r.start true).1.history.spawnings = 1) ∧
    (r.isRunning = true ↔ .start true ∈ steps ∧ .stop ∉ steps) ∧
    (∀ inRuntime error, (r.start inRuntime).2 = .error error → (r.start inRuntime).1 = r ∧
      ∀ later, r.exec s (.start inRuntime :: later) = r.exec s later) ∧
    ∀ r', Moves s (r.requestStop s) r' →
      (r'.start true).2 = .error .stopped ∧ r'.isRunning = false := by
  intro r
  have hlife : r.lifecycle = steps.foldl Lifecycle.after .idle := lifecycle_exec s _ steps
  have hstopped : r.lifecycle = .stopped ↔ .stop ∈ steps := by
    rw [hlife, Lifecycle.foldl_after_eq_stopped_iff]
    simp
  have hidle : r.lifecycle = .idle ↔ .start true ∉ steps ∧ .stop ∉ steps := by
    rw [hlife, Lifecycle.foldl_after_eq_idle_iff]
    simp
  have hrunning : r.lifecycle = .running ↔ .start true ∈ steps ∧ .stop ∉ steps := by
    rw [hlife, Lifecycle.foldl_after_idle_eq_running_iff]
  have hspawned : r.SpawnedOnce := Moves.spawnedOnce (Moves.exec s _ steps) ⟨Nat.zero_le 1, fun _ => rfl⟩
  refine ⟨?_, rfl, ?_, ?_, ?_, ?_, ?_, ?_, ?_⟩
  · intro r' hr'
    exact (Moves.spawnedOnce hr' hspawned).le_one
  · rw [← hidle, start_true]
    cases r.lifecycle <;> simp
  · rw [← hrunning, start_true]
    cases r.lifecycle <;> simp
  · rw [← hstopped, start_true]
    cases r.lifecycle <;> simp
  · intro hok
    have hfresh : r.lifecycle = .idle := by
      rw [start_true] at hok
      cases hr : r.lifecycle with
      | idle => rfl
      | running | stopped => rw [hr] at hok; cases hok
    rw [spawnings_start hfresh, hspawned.none hfresh]
  · rw [← hrunning]
    exact decide_eq_true_iff
  · intro inRuntime error herror
    have hsame := start_of_error herror
    exact ⟨hsame, fun later => congrArg (fun x => exec s x later) hsame⟩
  · intro r' hr'
    have hlast := hr'.lifecycle_of_stopped (lifecycle_requestStop s r)
    exact ⟨by rw [start_true, hlast], by rw [isRunning, hlast]; rfl⟩

/-- A shipper whose task was cancelled and has ended still runs: a second start is refused, which
leaves no trace, and so is a third one while the shipper is being stopped. -/
theorem started_once_of_cancel :
    let r := (Run.new Shipper.plain ({} : Scripted) 0).exec Shipper.plain
      [.start false, .start true, .cancel, .sleep 5]
    r.task = .ended ∧ r.isRunning = true ∧ (r.start true).2 = .error .alreadyStarted ∧
    r.exec Shipper.plain [.start true, .stop] = r.exec Shipper.plain [.stop] ∧
    ((r.requestStop Shipper.plain).start true).2 = .error .stopped := by
  intro r
  obtain ⟨-, -, -, halready, -, -, hrunning, hrefused, hlate⟩ :=
    started_once Shipper.plain ({} : Scripted) 0 [.start false, .start true, .cancel, .sleep 5]
  have hsecond : (r.start true).2 = .error .alreadyStarted := halready.2 ⟨by simp, by simp⟩
  refine ⟨by decide +kernel, hrunning.2 ⟨by simp, by simp⟩, hsecond, ?_, (hlate _ .refl).1⟩
  exact (hrefused true .alreadyStarted hsecond).2 [.stop]

end Run

end LogShipper
