import LogShipper.Proofs.Aggregator.Coherence
import LogShipper.Proofs.Aggregator.Spacing

/-!
# What a task that waits has seen to

A task that waits has taken all wake-ups, and its next tick lies ahead.  `Run.Attentive` says what
follows from the one and the other.  As long as a fatal sample waits there is a wake-up to take,
because each of them leaves one and a wake-up is only taken to bring all samples away.  And the
next tick is due at the latest one check interval after an instant at which less than the interval
had passed since the latest flush, because every pass flushes otherwise.

Every move keeps it (`Moves.attentive`), and `Run.Attentive.of_idle` draws the conclusions.
-/

namespace LogShipper

open Wire Transport

variable {τ : Type} {s : Shipper}

namespace Run

/-- What the flush task has yet to see to, and by when. -/
structure Attentive (s : Shipper) (r : Run τ) : Prop where
  /-- Nobody makes the last pass while the shipper runs. -/
  unfinished : r.cancelled = false → r.lifecycle = .running → r.finalFlushed = false
  /-- The next tick is due already, or soon enough after the latest flush. -/
  timely : ∀ due, r.task.due? = some due → due ≤ r.now ∨
    due ≤ r.reporting.lastFlush + (s.settings.interval + s.settings.checkInterval)
  /-- Where fatal samples wait, a wake-up does. -/
  alert : r.intake.urgent ≠ [] → 0 < r.wakeups

theorem attentive_new (transport : τ) (now : Nat) : (Run.new s transport now).Attentive s where
  unfinished := nofun
  timely := nofun
  alert := fun h => absurd rfl h

/-! ## Waking -/

/-- After a wake-up there is one to take. -/
theorem wakeups_wake_pos (r : Run τ) : 0 < r.wake.wakeups := by
  unfold wake
  split
  · exact Nat.lt_min.2 ⟨Nat.succ_pos _, Nat.two_pos⟩
  · exact Nat.one_pos

/-- A fatal sample that is captured leaves a wake-up. -/
theorem alert_register (r : Run τ) (reading : Reading) (h : r.intake.urgent ≠ [] → 0 < r.wakeups) :
    (r.register s reading).1.intake.urgent ≠ [] → 0 < (r.register s reading).1.wakeups := by
  rw [intake_register, r.intake.urgent_register, ← r.intake.urgent?_register s r.now reading]
  unfold register
  dsimp only
  cases (r.intake.register s r.now reading).2 with
  | urgent sample => exact fun _ => wakeups_wake_pos _
  | _ =>
    intro hurgent
    exact h (by simpa [Sampling.urgent?] using hurgent)

/-! ## Gathering -/

@[simp] theorem urgent_collect (r : Run τ) : (r.collect s).1.intake.urgent = [] := by
  rw [collect_eq]
  rfl

theorem urgent_gathered (r : Run τ) (forced : Bool) : (r.gathered s forced).1.intake.urgent = [] :=
  urgent_collect _

/-- After a pass no more than the interval has passed since the latest flush. -/
theorem now_le_lastFlush_gathered (r : Run τ) (forced : Bool) :
    r.now ≤ (r.gathered s forced).1.reporting.lastFlush + s.settings.interval := by
  let announced := ((r.note (.passed forced)).announce s).1
  have hreporting : (r.gathered s forced).1.reporting =
      (announced.flushIfDue s forced).1.reporting := by
    show ((announced.flushIfDue s forced).1.collect s).1.reporting = _
    rw [collect_eq]
  rw [hreporting]
  unfold flushIfDue
  split
  · rw [flush_eq]
    exact Nat.le_add_right r.now _
  · rename_i hnot
    have hearly : announced.reporting.timeDue s announced.now = false := by
      rw [Bool.or_eq_true, not_or] at hnot
      have hdue := hnot.2
      unfold Reporting.isDue at hdue
      rw [Bool.or_eq_true, not_or, Bool.not_eq_true] at hdue
      exact hdue.1
    have hpassed := of_decide_eq_false hearly
    show r.now ≤ announced.reporting.lastFlush + s.settings.interval
    have hnow : announced.now = r.now := rfl
    omega

/-- The next tick is at most one check interval away. -/
theorem nextTick_le {due now : Nat} (h : due ≤ now) :
    nextTick s due now ≤ now + s.settings.checkInterval := by
  unfold nextTick
  split
  · exact Nat.le_refl _
  · exact Nat.add_le_add_right h _

namespace Attentive

variable [Transport τ] {r : Run τ}

/-- Sending lines after the samples were brought away. -/
theorem send (hunfinished : r.cancelled = false → r.lifecycle = .running → r.finalFlushed = false)
    {next : Next} (htimely : ∀ due, next.due? = some due → due ≤ r.now ∨
      due ≤ r.reporting.lastFlush + (s.settings.interval + s.settings.checkInterval))
    (hurgent : r.intake.urgent = []) (lines : List Rendered) :
    (r.send lines next).Attentive s := by
  obtain ⟨transport, task, writes, added, heq, hdue, -, -⟩ := r.send_eq lines next
  rw [heq]
  refine ⟨hunfinished, ?_, fun h => absurd hurgent h⟩
  intro due htask
  exact htimely due (hdue.symm.trans htask)

/-- A pass, after which the next tick is at most one check interval away. -/
theorem pass (hunfinished : r.cancelled = false → r.lifecycle = .running → r.finalFlushed = false)
    {next : Next} (hnext : ∀ due, next.due? = some due → due ≤ r.now + s.settings.checkInterval)
    (forced : Bool) : (r.pass s forced next).Attentive s := by
  have hlast := r.now_le_lastFlush_gathered (s := s) forced
  have hurgent := r.urgent_gathered (s := s) forced
  rw [pass_eq]
  generalize hlines : (r.gathered s forced).2 = lines
  obtain ⟨_, _, _, _, _, heq, -⟩ := r.gathered_eq s forced
  refine send ?_ ?_ hurgent lines
  · rw [heq]
    exact hunfinished
  · intro due hdue
    have := hnext due hdue
    exact .inr (by omega)

/-- The last pass. -/
theorem finish (h : r.Attentive s) (hover : r.cancelled = false → r.lifecycle ≠ .running) :
    (r.finish s).Attentive s := by
  unfold Run.finish
  split
  · exact { h with timely := nofun }
  · refine pass (r := { r with finalFlushed := true }) (fun hc hl => absurd hl (hover hc)) ?_ true
    rintro _ ⟨⟩

/-- Whatever the flush task does, it stays attentive. -/
theorem advance (h : r.Attentive s) {next : Run τ} (ha : r.Advance s next) : next.Attentive s := by
  cases ha with
  | begin htask =>
    refine { h with timely := ?_ }
    rintro due ⟨⟩
    exact .inl (Nat.le_refl r.now)
  | finish htask hcancelled =>
    have hnoted : (r.note (.noticed .shuttingDown)).Attentive s := { h with }
    exact hnoted.finish fun hc => absurd (hc.symm.trans hcancelled) nofun
  | @wake _ due woken htask hcancelled hwakeups hwoken =>
    have hcollected := woken.collect_eq s
    refine send ?_ ?_ (urgent_collect woken) _
    · rw [hcollected, hwoken]
      exact h.unfinished
    · -- a wake-up moves neither the next tick nor the latest flush
      rintro due' ⟨⟩
      rw [hcollected, hwoken]
      exact h.timely due (by rw [htask]; rfl)
  | @tick _ due htask hcancelled hwakeups hdue =>
    refine pass h.unfinished ?_ false
    rintro due' ⟨⟩
    exact nextTick_le hdue
  | @wait due htask hcancelled hwakeups hdue =>
    refine { h with timely := ?_ }
    rintro due' ⟨⟩
    exact h.timely due (by rw [htask]; rfl)
  | @complete lines ends following htask hends =>
    obtain ⟨transport, task, added, heq, hdue, -, -⟩ := r.complete_eq lines following
    rw [heq]
    refine { h with timely := ?_ }
    intro due htask'
    refine h.timely due ?_
    rw [htask]
    exact hdue.symm.trans htask'

end Attentive

end Run

section Runs

variable [Transport τ] {r : Run τ}

/-- Every move leaves the task attentive. -/
theorem Move.attentive {r' : Run τ} (hm : Move s r r') (hc : r.Coherent) (h : r.Attentive s) :
    r'.Attentive s := by
  cases hm with
  | register reading =>
    have halert := r.alert_register (s := s) reading h.alert
    obtain ⟨wakeups, heq⟩ := r.register_eq s reading
    rw [heq] at halert ⊢
    exact ⟨h.unfinished, h.timely, halert⟩
  | start inRuntime =>
    rcases r.start_cases inRuntime with heq | ⟨hidle, heq⟩
    · rw [heq]
      exact h
    · rw [heq]
      refine ⟨fun _ _ => ?_, nofun, h.alert⟩
      show r.finalFlushed = false
      rw [hc.finalFlushed_eq, hc.absent_iff.2 hidle]
      rfl
  | cancel => exact { h with unfinished := nofun }
  | requestStop =>
    rcases r.requestStop_cases s with ⟨-, heq⟩ | ⟨-, heq⟩ | ⟨-, heq⟩
    · have hstopped : ({ r with lifecycle := .stopped } : Run τ).Attentive s :=
        { h with unfinished := nofun }
      exact heq ▸ hstopped.finish nofun
    · rw [heq]
      exact { h with unfinished := nofun }
    · rw [heq]
      exact h
  | concludeStop =>
    rw [hc.concludeStop_eq s]
    exact h
  | advance hnext => exact h.advance (Run.advance_of_advance? hnext)
  | elapse instant =>
    refine { h with timely := fun due hdue => ?_ }
    exact (h.timely due hdue).imp_left fun hle => Nat.le_trans hle (Nat.le_max_left _ _)
  | pace durations => exact { h with }
  | disturb change => exact { h with }

theorem Moves.attentive {r₀ : Run τ} (h : Moves s r₀ r) (hc : r₀.Coherent) (hr : r₀.Attentive s) :
    r.Attentive s := by
  induction h with
  | refl => exact hr
  | tail hfirst hlast ih => exact hlast.attentive (Moves.coherent hfirst hc) ih

/-- A shipper that runs, was not told to end, and whose task neither writes nor can do anything: no
fatal sample waits, and its latest flush was not long ago. -/
theorem Run.Attentive.of_idle (h : r.Attentive s) (hc : r.Coherent) (hrunning : r.isRunning = true)
    (hcancelled : r.cancelled = false) (hidle : r.advance? s = none)
    (hfree : r.task.pending? = none) :
    r.intake.urgent = [] ∧
      r.now < r.reporting.lastFlush + (s.settings.interval + s.settings.checkInterval) := by
  have hlife : r.lifecycle = .running := of_decide_eq_true hrunning
  have habsent : r.task ≠ .absent := by
    intro htask
    cases (hc.absent_iff.1 htask).symm.trans hlife
  have hended : r.task ≠ .ended := by
    intro htask
    have hfinal := hc.finalFlushed_eq
    rw [h.unfinished hcancelled hlife, htask] at hfinal
    cases hfinal
  obtain ⟨due, htask, hwakeups, hahead⟩ := Run.waits_of_idle hidle habsent hended hfree hcancelled
  constructor
  · refine Decidable.byContradiction fun hurgent => ?_
    have hpermit := h.alert hurgent
    rw [hwakeups] at hpermit
    exact absurd hpermit (Nat.lt_irrefl 0)
  · rcases h.timely due (by rw [htask]; rfl) with hpast | hsoon
    · exact absurd hahead (Nat.not_lt.2 hpast)
    · exact Nat.lt_of_lt_of_le hahead hsoon

end Runs

end LogShipper
