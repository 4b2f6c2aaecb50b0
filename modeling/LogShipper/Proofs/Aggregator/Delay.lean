import LogShipper.Proofs.Aggregator.Attention
import LogShipper.Proofs.Aggregator.Totals

/-!
# How long an event may wait for a flush

The counters of all flushes together count an event exactly if it was registered before the latest
flush (`Moves.sumAt_flushedCounters`).  Whenever the flush task of a running shipper is idle, the
latest flush is at most so long ago that less than the interval and one check interval have passed
since, and every event that is as old was registered before it (`Moves.flushed_of_idle`).

A task that writes is not idle in this sense.  As long as writes take no time (`PromptMoves`) a
task that can do nothing does not write either, so that the bound holds whenever nothing can happen
(`PromptMoves.flushed_in_time`).
-/

namespace LogShipper

open Wire Transport

/-! ## What flushes report -/

/-- The series of a flush. -/
def Occurrence.batch? : Occurrence → Option (SeriesBatch Text Text)
  | .flushed _ batch => some batch
  | _ => none

theorem Occurrence.batch?_of_not_isFlush {o : Occurrence} (h : o.isFlush = false) :
    o.batch? = none := by
  cases o <;> first | rfl | cases h

/-- The counters of all flushes, in order. -/
def History.flushedCounters (h : History) : List ((Text × Text) × Int) :=
  (h.select Occurrence.batch?).flatMap SeriesBatch.counters

variable {τ : Type} {s : Shipper} {key label : Text}

/-- The counters of all flushes report what was registered before the latest one. -/
structure Credited (key label : Text) (r : Run τ) : Prop where
  counted : Counted key label r
  credited : sumAt (key, label) r.history.flushedCounters =
    r.history.beforeFlush.registered key label

namespace Credited

variable {r : Run τ}

theorem register (h : Credited key label r) (reading : Reading) :
    Credited key label (r.register s reading).1 := by
  refine ⟨h.counted.register s reading, ?_⟩
  rw [Run.history_register, History.beforeFlush_cons, History.flushedCounters,
    History.select_cons]
  show sumAt (key, label) ((r.history.select Occurrence.batch? ++ []).flatMap _) = _
  rw [List.append_nil]
  exact h.credited

/-- A flush reports all that was registered since the one before. -/
theorem flush (h : Credited key label r) (forced : Bool) :
    Credited key label (r.flush s forced).1 := by
  let batch := (r.reporting.flush r.now r.intake.counter).2
  refine ⟨h.counted.flush s forced, ?_⟩
  have hbatch : sumAt (key, label) batch.counters =
      r.history.registered key label - r.history.beforeFlush.registered key label :=
    h.counted.sumAt_counters
  have hcounters : (r.flush s forced).1.history.flushedCounters =
      r.history.flushedCounters ++ batch.counters := by
    unfold History.flushedCounters
    rw [Run.select_flush fun _ => rfl, List.flatMap_append]
    exact congrArg _ (List.append_nil _)
  rw [hcounters, sumAt_append, h.credited, hbatch, Run.beforeFlush_flush]
  omega

theorem steady {r' : Run τ} (h : Credited key label r) (hr : Steady r r') :
    Credited key label r' := by
  obtain ⟨added, hadded, hnone⟩ := hr.history
  have hbefore : r'.history.beforeFlush = r.history.beforeFlush := by
    rw [hadded]
    exact History.beforeFlush_append (fun e he => (hnone e he).2) _
  refine ⟨h.counted.transfer hr.counter hr.snapshots ?_ hbefore, ?_⟩
  · rw [hadded]
    exact History.select_append_of_none (fun e he => (hnone e he).1) _
  · rw [hbefore, ← h.credited, hadded, History.flushedCounters, History.select_append_of_none]
    · rfl
    · intro e he
      exact Occurrence.batch?_of_not_isFlush (hnone e he).2

end Credited

/-- Every piece of work keeps flushes reporting what was registered. -/
theorem Work.credited {p p' : Run τ × List Rendered} (hw : Work s p p')
    (h : Credited key label p.1) : Credited key label p'.1 := by
  rcases hw.steady_or_flush with hsteady | ⟨forced, hflush⟩
  · exact h.steady hsteady
  · rw [hflush]
    exact h.flush forced

/-! ## An idle task -/

section Idle

variable [Transport τ]

/-- The counters of all flushes add up to what was registered before the latest one. -/
theorem Moves.sumAt_flushedCounters {transport : τ} {built : Nat} {r : Run τ}
    (h : Moves s (Run.new s transport built) r) (key label : Text) :
    sumAt (key, label) r.history.flushedCounters =
      r.history.beforeFlush.registered key label := by
  have hnew : Credited key label (Run.new s transport built) := ⟨counted_new transport built, rfl⟩
  exact (Moves.keeps (P := fun p => Credited key label p.1) (fun hw => hw.credited)
    (fun reading hr => hr.register reading) h hnew).credited

/-- When the task of a running shipper neither writes nor can do anything, every event that is old
enough was registered before the latest flush. -/
theorem Moves.flushed_of_idle {transport : τ} {built : Nat} {r : Run τ}
    (h : Moves s (Run.new s transport built) r) (hrunning : r.isRunning = true)
    (hcancelled : r.cancelled = false) (hidle : r.advance? s = none)
    (hfree : r.task.pending? = none) {later t reading sampling earlier}
    (hsplit : r.history = later ++ ⟨t, .registered reading sampling⟩ :: earlier)
    (hage : t + (s.settings.interval + s.settings.checkInterval) ≤ r.now) :
    ⟨t, .registered reading sampling⟩ :: earlier <:+ r.history.beforeFlush := by
  have hnew := Run.coherent_new s transport built
  obtain ⟨-, hrecent⟩ := (h.attentive hnew (Run.attentive_new transport built)).of_idle
    (h.coherent hnew) hrunning hcancelled hidle hfree
  have hspaced := h.spaced (spaced_new transport built)
  refine History.suffix_beforeFlush hsplit rfl ?_
  -- an event since the latest flush would be too young
  intro hsince
  have hlast : r.reporting.lastFlush ≤ t := hspaced.recent _ hsince
  omega

end Idle

/-! ## Writes that take no time -/

namespace Run

/-- Writes take no time. -/
def WritesAtOnce (r : Run τ) : Prop := ∀ n, r.pace n = 0

/-- Writes take no time, and none that began goes on. -/
structure Prompt (r : Run τ) : Prop where
  writesAtOnce : r.WritesAtOnce
  ends_le : ∀ lines ends next, r.task = .writing lines ends next → ends ≤ r.now

theorem prompt_new (s : Shipper) (transport : τ) (built : Nat) :
    (Run.new s transport built).Prompt where
  writesAtOnce := fun _ => rfl
  ends_le := nofun

/-- A new task does not write. -/
theorem Prompt.start {r : Run τ} (h : r.Prompt) (inRuntime : Bool) :
    (r.start inRuntime).1.Prompt := by
  rcases r.start_cases inRuntime with heq | ⟨-, heq⟩
  · rw [heq]
    exact h
  · rw [heq]
    exact ⟨h.writesAtOnce, nofun⟩

end Run

/-- Whether a step neither stops the shipper nor changes how long writes take. -/
def Step.isSteady : Step τ → Bool
  | .stop | .pace _ => false
  | _ => true

section Prompt

variable [Transport τ]

/-- Moves one after the other, during which writes take no time. -/
abbrev PromptMoves (s : Shipper) : Run τ → Run τ → Prop :=
  Relation.ReflTransGen fun r r' => Move s r r' ∧ r'.WritesAtOnce

theorem PromptMoves.moves {r r' : Run τ} (h : PromptMoves s r r') : Moves s r r' :=
  Relation.ReflTransGen.mono (fun _ _ hm => hm.1) _ _ h

namespace Run

namespace Prompt

variable {r : Run τ}

theorem send (h : r.WritesAtOnce) (lines : List Rendered) (next : Next) :
    (r.send lines next).Prompt := by
  obtain ⟨transport, task, writes, added, heq, -, -, hends⟩ := r.send_eq lines next
  rw [heq]
  refine ⟨h, ?_⟩
  intro lines' ends next' htask
  rw [hends lines' ends next' htask, h]
  exact Nat.le_refl r.now

theorem pass (h : r.WritesAtOnce) (forced : Bool) (next : Next) : (r.pass s forced next).Prompt := by
  obtain ⟨_, _, _, _, _, heq, -⟩ := r.gathered_eq s forced
  rw [pass_eq]
  refine send ?_ _ next
  rw [heq]
  exact h

theorem finish (h : r.WritesAtOnce) : (r.finish s).Prompt := by
  unfold Run.finish
  split
  · exact ⟨h, nofun⟩
  · exact pass (r := { r with finalFlushed := true }) h true .close

/-- Whatever the flush task does takes no time. -/
theorem advance (h : r.Prompt) {next : Run τ} (ha : r.Advance s next) : next.Prompt := by
  cases ha with
  | begin htask => exact ⟨h.writesAtOnce, nofun⟩
  | finish htask hcancelled =>
    exact finish (r := r.note (.noticed .shuttingDown)) h.writesAtOnce
  | @wake _ due woken htask hcancelled hwakeups hwoken =>
    refine send ?_ _ _
    rw [woken.collect_eq, hwoken]
    exact h.writesAtOnce
  | tick htask hcancelled hwakeups hdue => exact pass h.writesAtOnce false _
  | wait htask hcancelled hwakeups hdue => exact ⟨h.writesAtOnce, nofun⟩
  | @complete lines ends following htask hends =>
    obtain ⟨_, task, _, heq, -, hpending, -⟩ := r.complete_eq lines following
    rw [heq]
    refine ⟨h.writesAtOnce, ?_⟩
    rintro lines' ends' next' rfl
    cases hpending

/-- A task that can do nothing does not write. -/
theorem pending?_eq_none (h : r.Prompt) (hidle : r.advance? s = none) :
    r.task.pending? = none := by
  cases htask : r.task with
  | writing lines ends next =>
    unfold advance? at hidle
    rw [htask] at hidle
    dsimp only at hidle
    rw [if_pos (h.ends_le lines ends next htask)] at hidle
    cases hidle
  | _ => rfl

end Prompt

end Run

/-- As long as writes take no time, none goes on. -/
theorem Move.prompt {r r' : Run τ} (hm : Move s r r') (h : r.Prompt) (hr' : r'.WritesAtOnce) :
    r'.Prompt := by
  cases hm with
  | register reading =>
    obtain ⟨_, heq⟩ := r.register_eq s reading
    rw [heq] at hr' ⊢
    exact { h with writesAtOnce := hr' }
  | start inRuntime => exact h.start inRuntime
  | cancel => exact { h with }
  | requestStop =>
    rcases r.requestStop_cases s with ⟨-, heq⟩ | ⟨-, heq⟩ | ⟨-, heq⟩
    · rw [heq]
      exact Run.Prompt.finish (r := { r with lifecycle := .stopped }) h.writesAtOnce
    · rw [heq]
      exact { h with }
    · rw [heq]
      exact h
  | concludeStop =>
    rcases r.concludeStop_cases s with ⟨-, heq⟩ | heq
    · rw [heq]
      exact Run.Prompt.finish h.writesAtOnce
    · rw [heq]
      exact h
  | advance hnext => exact h.advance (Run.advance_of_advance? hnext)
  | elapse instant =>
    refine ⟨h.writesAtOnce, ?_⟩
    intro lines ends next htask
    exact Nat.le_trans (h.ends_le lines ends next htask) (Nat.le_max_left _ _)
  | pace durations => exact ⟨hr', h.ends_le⟩
  | disturb change => exact { h with }

namespace PromptMoves

theorem prompt {r r' : Run τ} (h : PromptMoves s r r') (hr : r.Prompt) : r'.Prompt := by
  induction h with
  | refl => exact hr
  | tail _ hm ih => exact hm.1.prompt ih hm.2

section Steps

variable {r : Run τ} (s)

theorem advanceFor (n : Nat) (hr : r.Prompt) : PromptMoves s r (r.advanceFor s n) := by
  induction n generalizing r with
  | zero => exact .refl
  | succ n ih =>
    unfold Run.advanceFor
    split
    · exact .refl
    · rename_i next hnext
      have hprompt : next.Prompt := hr.advance (Run.advance_of_advance? hnext)
      exact .head ⟨.advance hnext, hprompt.writesAtOnce⟩ (ih hprompt)

/-- Letting time pass and then doing what can be done. -/
theorem elapse_settle (instant : Nat) (hr : r.Prompt) :
    PromptMoves s r ((r.elapse instant).settle s) := by
  have helapsed : (r.elapse instant).Prompt :=
    Move.prompt (s := s) (.elapse r instant) hr hr.writesAtOnce
  exact .head ⟨.elapse r instant, hr.writesAtOnce⟩ (advanceFor s _ helapsed)

theorem sleepFor (target n : Nat) (hr : r.Prompt) :
    PromptMoves s r (r.sleepFor s target n) := by
  induction n generalizing r with
  | zero => exact .refl
  | succ n ih =>
    unfold Run.sleepFor
    split
    · exact .refl
    · rename_i instant _
      split
      · have hmoves := elapse_settle s instant hr
        exact hmoves.trans (ih (hmoves.prompt hr))
      · exact .refl

theorem sleep (duration : Nat) (hr : r.Prompt) : PromptMoves s r (r.sleep s duration) := by
  have hsettled : PromptMoves s r (r.settle s) := advanceFor s _ hr
  have hslept : PromptMoves s r ((r.settle s).sleepFor s (r.now + duration) duration) :=
    hsettled.trans (sleepFor s _ _ (hsettled.prompt hr))
  exact hslept.trans (elapse_settle s _ (hslept.prompt hr))

/-- Steps that neither stop the shipper nor change how long writes take are made of such moves. -/
theorem step (step : Step τ) (hstep : step.isSteady = true) (hr : r.Prompt) :
    PromptMoves s r (r.step s step).1 := by
  cases step with
  | register reading =>
    refine .single ⟨.register r reading, ?_⟩
    obtain ⟨_, heq⟩ := r.register_eq s reading
    show ((r.register s reading).1).WritesAtOnce
    rw [heq]
    exact hr.writesAtOnce
  | start inRuntime =>
    refine .single ⟨.start r inRuntime, ?_⟩
    exact (hr.start inRuntime).writesAtOnce
  | cancel => exact .single ⟨.cancel r, hr.writesAtOnce⟩
  | settle => exact advanceFor s _ hr
  | sleep duration => exact sleep s duration hr
  | disturb change => exact .single ⟨.disturb r change trivial, hr.writesAtOnce⟩
  | stop => cases hstep
  | pace durations => cases hstep

theorem exec (steps : List (Step τ)) (hsteps : ∀ step ∈ steps, step.isSteady = true)
    (hr : r.Prompt) : PromptMoves s r (r.exec s steps) := by
  induction steps generalizing r with
  | nil => exact .refl
  | cons first rest ih =>
    obtain ⟨hfirst, hrest⟩ := List.forall_mem_cons.1 hsteps
    have hmoves := step s first hfirst hr
    exact hmoves.trans (ih hrest (hmoves.prompt hr))

end Steps

/-- **An event does not wait long for a flush.**  Take any run of a shipper whose writes take no
time.  Whenever the shipper was started, was neither told to end nor stopped, and nothing can happen
at the present instant, the counters of all flushes together report exactly what was registered
before the latest flush, and every event that was registered at least the interval and one check
interval ago is among it. -/
theorem flushed_in_time (transport : τ) (built : Nat) {r : Run τ}
    (h : PromptMoves s (Run.new s transport built) r) (hrunning : r.isRunning = true)
    (hcancelled : r.cancelled = false) (hidle : r.advance? s = none) :
    (∀ key label, sumAt (key, label) r.history.flushedCounters =
      r.history.beforeFlush.registered key label) ∧
    ∀ later t reading sampling earlier,
      r.history = later ++ ⟨t, .registered reading sampling⟩ :: earlier →
      t + (s.settings.interval + s.settings.checkInterval) ≤ r.now →
      ⟨t, .registered reading sampling⟩ :: earlier <:+ r.history.beforeFlush := by
  constructor
  · exact h.moves.sumAt_flushedCounters
  · intro later t reading sampling earlier hsplit hage
    have hfree := (h.prompt (Run.prompt_new s transport built)).pending?_eq_none hidle
    exact h.moves.flushed_of_idle hrunning hcancelled hidle hfree hsplit hage

/-- An event and a fatal one, with every write failing: when the shipper was idle at 1500, and the
first had waited as long as it may, it had been flushed. -/
theorem flushed_in_time_of_failures :
    let s : Shipper :=
      { Shipper.plain with
        settings := { entity := "host", interval := 1000, checkInterval := 400 }
        checkInterval_pos := by decide }
    let event : Reading :=
      { key := "app", label := "ERROR", severity := .error, rendered := .ok "boom" }
    let r := (Run.new s (⟨9, true⟩ : Scripted) 0).exec s
      [.sleep 100, .register event, .start true, .sleep 750, .register { event with fatal := true },
        .sleep 650]
    r.isRunning = true ∧ r.cancelled = false ∧ r.advance? s = none ∧
      ∃ later reading sampling earlier,
        r.history = later ++ ⟨100, .registered reading sampling⟩ :: earlier ∧
        100 + (1000 + 400) ≤ r.now ∧
        ⟨100, .registered reading sampling⟩ :: earlier <:+ r.history.beforeFlush := by
  intro s event r
  have hmoves : PromptMoves s (Run.new s (⟨9, true⟩ : Scripted) 0) r :=
    exec s _ (by decide) (Run.prompt_new s _ 0)
  have hrunning : r.isRunning = true := by decide +kernel
  have hcancelled : r.cancelled = false := by decide +kernel
  have hidle : r.advance? s = none := Option.isNone_iff_eq_none.1 (by decide +kernel)
  have hnow : 100 + (1000 + 400) ≤ r.now := by decide +kernel
  have hregistered : (r.history.any fun e => e.instant == 100 && e.occurrence.event?.isSome) =
      true := by decide +kernel
  obtain ⟨⟨t, o⟩, he, ho⟩ := List.any_eq_true.1 hregistered
  obtain ⟨later, earlier, hsplit⟩ := List.append_of_mem he
  obtain ⟨ht, ho⟩ := Bool.and_eq_true_iff.1 ho
  obtain rfl : t = 100 := eq_of_beq ht
  cases o with
  | registered reading sampling =>
    refine ⟨hrunning, hcancelled, hidle, later, reading, sampling, earlier, hsplit, hnow, ?_⟩
    exact (flushed_in_time (⟨9, true⟩ : Scripted) 0 hmoves hrunning hcancelled hidle).2
      later 100 reading sampling earlier hsplit hnow
  | _ => cases ho

end PromptMoves

end Prompt

end LogShipper
