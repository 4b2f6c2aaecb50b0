import LogShipper.Proofs.Aggregator.Failures

/-!
# Runs that go alike

Where lines are sent shows in their texts, because the settings line announces the transport.
Nothing else in a run depends on it.  Shippers whose settings differ in nothing but the destination
decide the same, gather the same lines and write at the same instants: their runs stay the same but
for the texts that are written and for what the history tells (`Run.Alike.exec`).

The runs compared here are those on which nothing fails; any other is led back to such a run by
`Run.faultless`.
-/

namespace LogShipper

open Wire Transport

/-! ## Rendering -/

/-- Whether a line can be written does not depend on the renderer. -/
theorem Wire.Renderer.isOk_render_eq (renderer renderer' : Renderer) (line : Line) :
    (renderer.render line).isOk = (renderer'.render line).isOk := by
  cases line with
  | settings | runtime => rfl
  | counter key label value => rcases key with _ | _ <;> rcases label with _ | _ <;> rfl
  | total label value => rcases label with _ | _ <;> rfl
  | message sample => rcases sample with ⟨_ | _, _ | _, _⟩ <;> rfl

/-- The lines that can be written are written. -/
theorem Shipper.map_line_renderAll (s : Shipper) (lines : List Line) :
    (s.renderAll lines).1.map Rendered.line =
      lines.filter fun line => (s.renderer.render line).isOk := by
  induction lines with
  | nil => rfl
  | cons line lines ih =>
    rw [s.renderAll_cons, List.filter_cons, ← ih]
    cases s.renderer.render line with
    | ok text => rfl
    | error e => rfl

/-- Every shipper writes the same lines, if not with the same text. -/
theorem Shipper.map_line_renderAll_eq (s s' : Shipper) (lines : List Line) :
    (s.renderAll lines).1.map Rendered.line = (s'.renderAll lines).1.map Rendered.line := by
  rw [map_line_renderAll, map_line_renderAll]
  apply List.filter_congr
  intro line _
  exact s.renderer.isOk_render_eq s'.renderer line

/-! ## Runs that go alike -/

/-- The shippers are set alike, but for where lines are sent. -/
def Shipper.Alike (s s' : Shipper) : Prop :=
  s'.settings = { s.settings with destination := s'.settings.destination }

/-- The tasks are doing the same, perhaps with other texts of the lines that are written. -/
def Task.Alike (t t' : Task) : Prop :=
  t' = t ∨ ∃ lines lines' ends next, t = .writing lines ends next ∧ t' = .writing lines' ends next

/-- The runs are the same but for the texts that are written and for what the history tells. -/
def Run.Alike (r r' : Run Faultless) : Prop :=
  ∃ task history, r.task.Alike task ∧ r' = { r with task, history }

namespace Run

variable {s s' : Shipper} {r r' : Run Faultless}

theorem alike_new (hs : s.Alike s') (now : Nat) :
    (Run.new s Faultless.mk now).Alike (Run.new s' Faultless.mk now) := by
  refine ⟨.absent, [], .inl rfl, ?_⟩
  unfold Run.new Intake.new Reporting.new Settings.seed
  rw [hs]
  rfl

namespace Alike

section Fields

variable (h : r.Alike r')

include h

theorem now_eq : r'.now = r.now := by
  obtain ⟨_, _, _, rfl⟩ := h
  rfl

theorem intake_eq : r'.intake = r.intake := by
  obtain ⟨_, _, _, rfl⟩ := h
  rfl

theorem lifecycle_eq : r'.lifecycle = r.lifecycle := by
  obtain ⟨_, _, _, rfl⟩ := h
  rfl

theorem cancelled_eq : r'.cancelled = r.cancelled := by
  obtain ⟨_, _, _, rfl⟩ := h
  rfl

theorem finalFlushed_eq : r'.finalFlushed = r.finalFlushed := by
  obtain ⟨_, _, _, rfl⟩ := h
  rfl

theorem wakeups_eq : r'.wakeups = r.wakeups := by
  obtain ⟨_, _, _, rfl⟩ := h
  rfl

theorem task : r.task.Alike r'.task := by
  obtain ⟨_, _, htask, rfl⟩ := h
  exact htask

/-- Doing the same from now on. -/
theorem setTask (t : Task) : Run.Alike { r with task := t } { r' with task := t } := by
  obtain ⟨_, history', _, rfl⟩ := h
  exact ⟨t, history', .inl rfl, rfl⟩

theorem timer?_eq : r'.timer? = r.timer? := by
  unfold Run.timer?
  rcases h.task with heq | ⟨_, _, _, _, heq, heq'⟩
  · rw [heq]
  · rw [heq, heq']

/-- As much is left to do. -/
theorem activity_eq : r'.activity = r.activity := by
  unfold Run.activity
  rw [h.now_eq, h.wakeups_eq]
  rcases h.task with heq | ⟨_, _, _, next, heq, heq'⟩
  · rw [heq]
  · rw [heq, heq']
    cases next <;> rfl

end Fields

/-! ### Notes -/

/-- Whatever is noted, the runs are as alike as before. -/
theorem note (h : r.Alike r') (o o' : Occurrence) : (r.note o).Alike (r'.note o') := by
  obtain ⟨task, history, htask, rfl⟩ := h
  exact ⟨task, _, htask, rfl⟩

/-! ### Registering and gathering -/

theorem wake (h : r.Alike r') : r.wake.Alike r'.wake := by
  obtain ⟨task', history', htask, rfl⟩ := h
  rcases r with ⟨_, _, _, _, task, _, _, _, _, _, _, _⟩
  -- whether a wake-up is taken at once depends on whether the task waits: both do or none
  rcases htask with rfl | ⟨lines, lines', ends, next, rfl, rfl⟩
  · rcases task' with _ | _ | ⟨_ | _, _⟩ | _ | _ <;> exact ⟨_, _, .inl rfl, rfl⟩
  · exact ⟨_, _, .inr ⟨lines, lines', ends, next, rfl, rfl⟩, rfl⟩

theorem register (hs : s.Alike s') (h : r.Alike r') (reading : Reading) :
    (r.register s reading).1.Alike (r'.register s' reading).1 := by
  -- an event looks up nothing in the settings but whether samples are sent at all
  have hregister : ∀ i : Intake, i.register s' r.now reading = i.register s r.now reading := by
    intro i
    unfold Intake.register
    rw [hs]
  obtain ⟨task', history', htask, rfl⟩ := h
  unfold Run.register
  dsimp only
  rw [hregister]
  rcases r.intake.register s r.now reading with ⟨intake, sampling⟩
  have hregistered : Run.Alike
      (Run.note { r with intake } (.registered reading sampling))
      (Run.note { r with intake, task := task', history := history' }
        (.registered reading sampling)) := ⟨task', _, htask, rfl⟩
  cases sampling with
  | urgent sample => exact hregistered.wake
  | _ => exact hregistered

/-- The runs are alike, and the lines put together so far are the same but for their texts. -/
def WithLines (p p' : Run Faultless × List Rendered) : Prop :=
  p.1.Alike p'.1 ∧ p.2.map Rendered.line = p'.2.map Rendered.line

theorem collect (h : r.Alike r') (s s' : Shipper) :
    WithLines (r.collect s) (r'.collect s') := by
  obtain ⟨task', history', htask, rfl⟩ := h
  refine ⟨?_, s.map_line_renderAll_eq s' _⟩
  rw [collect_eq, collect_eq]
  exact ⟨task', _, htask, rfl⟩

theorem announce (h : r.Alike r') (s s' : Shipper) :
    WithLines (r.announce s) (r'.announce s') := by
  obtain ⟨task', history', htask, rfl⟩ := h
  exact ⟨⟨task', history', htask, rfl⟩, s.map_line_renderAll_eq s' _⟩

theorem flush (h : r.Alike r') (forced : Bool) :
    WithLines (r.flush s forced) (r'.flush s' forced) := by
  obtain ⟨task', history', htask, rfl⟩ := h
  refine ⟨?_, s.map_line_renderAll_eq s' _⟩
  rw [flush_eq, flush_eq]
  exact ⟨task', _, htask, rfl⟩

theorem flushIfDue (hs : s.Alike s') (h : r.Alike r') (forced : Bool) :
    WithLines (r.flushIfDue s forced) (r'.flushIfDue s' forced) := by
  have hdue : r'.reporting.isDue s' r'.now r'.intake.eventsSinceFlush =
      r.reporting.isDue s r.now r.intake.eventsSinceFlush := by
    obtain ⟨task', history', htask, rfl⟩ := h
    unfold Reporting.isDue Reporting.timeDue Reporting.burstDue
    rw [hs]
  unfold Run.flushIfDue
  rw [hdue]
  split
  · exact h.flush forced
  · exact ⟨h, rfl⟩

theorem gathered (hs : s.Alike s') (h : r.Alike r') (forced : Bool) :
    WithLines (r.gathered s forced) (r'.gathered s' forced) := by
  obtain ⟨hannounced, hannouncedLines⟩ :=
    (h.note (.passed forced) (.passed forced)).announce s s'
  obtain ⟨hflushed, hflushedLines⟩ := hannounced.flushIfDue hs forced
  obtain ⟨hcollected, hcollectedLines⟩ := hflushed.collect s s'
  refine ⟨hcollected, ?_⟩
  unfold Run.gathered
  rw [List.map_append, List.map_append, List.map_append, List.map_append, hannouncedLines,
    hflushedLines, hcollectedLines]

/-! ### Writing and closing -/

theorem proceed (h : r.Alike r') (next : Next) : (r.proceed next).Alike (r'.proceed next) := by
  obtain ⟨task', history', htask, rfl⟩ := h
  cases next with
  | resume due => exact ⟨_, _, .inl rfl, rfl⟩
  | close => exact ⟨_, _, .inl rfl, rfl⟩

/-- Both runs have something to write, or none has. -/
theorem send {p p' : Run Faultless × List Rendered} (h : WithLines p p') (next : Next) :
    (p.1.send p.2 next).Alike (p'.1.send p'.2 next) := by
  obtain ⟨halike, hlines⟩ := h
  have hempty : p'.2.isEmpty = p.2.isEmpty := by
    rw [← List.isEmpty_map, ← hlines, List.isEmpty_map]
  unfold Run.send
  rw [hempty]
  split
  · exact halike.proceed next
  · obtain ⟨task', history', htask, heq⟩ := halike
    rw [heq]
    exact ⟨_, _, .inr ⟨p.2, p'.2, _, next, rfl, rfl⟩, rfl⟩

theorem pass (hs : s.Alike s') (h : r.Alike r') (forced : Bool) (next : Next) :
    (r.pass s forced next).Alike (r'.pass s' forced next) := by
  rw [pass_eq, pass_eq]
  exact send (h.gathered hs forced) next

theorem finish (hs : s.Alike s') (h : r.Alike r') : (r.finish s).Alike (r'.finish s') := by
  unfold Run.finish
  by_cases hfinal : r.finalFlushed = true
  · rw [if_pos hfinal, if_pos (h.finalFlushed_eq.trans hfinal)]
    exact h.setTask .ended
  · rw [if_neg hfinal, if_neg (h.finalFlushed_eq ▸ hfinal)]
    refine pass hs ?_ true .close
    obtain ⟨task', history', htask, rfl⟩ := h
    exact ⟨task', history', htask, rfl⟩

theorem complete (h : r.Alike r') (lines lines' : List Rendered) (next : Next) :
    (r.complete lines next).Alike (r'.complete lines' next) :=
  (h.note (.delivered lines) (.delivered lines')).proceed next

/-- A task that looks does the same next thing. -/
theorem advance?_of_looking (hs : s.Alike s') (h : r.Alike r') {waits : Bool} {due : Nat}
    (htask : r.task = .looking waits due) (htask' : r'.task = .looking waits due) :
    Option.Rel Run.Alike (r.advance? s) (r'.advance? s') := by
  unfold Run.advance?
  rw [htask, htask']
  dsimp only
  by_cases hcancelled : r.cancelled = true
  · have hcancelled' : r'.cancelled = true := h.cancelled_eq.trans hcancelled
    rw [if_pos hcancelled, if_pos hcancelled']
    exact .some ((h.note _ _).finish hs)
  have hcancelled' : ¬r'.cancelled = true := h.cancelled_eq ▸ hcancelled
  rw [if_neg hcancelled, if_neg hcancelled']
  by_cases hwoken : 0 < r.wakeups
  · have hwoken' : 0 < r'.wakeups := h.wakeups_eq ▸ hwoken
    rw [if_pos hwoken, if_pos hwoken']
    refine .some (send (collect ?_ s s') (.resume due))
    obtain ⟨_, history', _, rfl⟩ := h
    exact ⟨_, history', .inl rfl, rfl⟩
  have hwoken' : ¬0 < r'.wakeups := h.wakeups_eq ▸ hwoken
  rw [if_neg hwoken, if_neg hwoken']
  by_cases hdue : due ≤ r.now
  · have hdue' : due ≤ r'.now := h.now_eq ▸ hdue
    have hnext : nextTick s' due r'.now = nextTick s due r.now := by
      unfold nextTick
      rw [hs, h.now_eq]
    rw [if_pos hdue, if_pos hdue', hnext]
    exact .some (h.pass hs false _)
  have hdue' : ¬due ≤ r'.now := h.now_eq ▸ hdue
  rw [if_neg hdue, if_neg hdue']
  cases waits with
  | false => exact .some (h.setTask _)
  | true => exact .none

/-- The tasks do the same next thing. -/
theorem advance? (hs : s.Alike s') (h : r.Alike r') :
    Option.Rel Run.Alike (r.advance? s) (r'.advance? s') := by
  have hwriting : ∀ {lines lines' : List Rendered} {ends : Nat} {next : Next},
      r.task = .writing lines ends next → r'.task = .writing lines' ends next →
        Option.Rel Run.Alike (r.advance? s) (r'.advance? s') := by
    intro lines lines' ends next htask htask'
    unfold Run.advance?
    rw [htask, htask', h.now_eq]
    dsimp only
    split
    · exact .some (h.complete lines lines' next)
    · exact .none
  rcases h.task with heq | ⟨_, _, _, _, htask, htask'⟩
  · cases htask : r.task with
    | absent | ended =>
      unfold Run.advance?
      rw [heq, htask]
      exact .none
    | spawned =>
      have hnext : r'.advance? s' = some { r' with task := .looking false r'.now } := by
        unfold Run.advance?
        rw [heq, htask]
      have hnext' : r.advance? s = some { r with task := .looking false r'.now } := by
        unfold Run.advance?
        rw [htask, h.now_eq]
      rw [hnext, hnext']
      exact .some (h.setTask _)
    | looking waits due => exact h.advance?_of_looking hs htask (heq.trans htask)
    | writing lines ends next => exact hwriting htask (heq.trans htask)
  · exact hwriting htask htask'

/-! ### Starting, stopping and the clock -/

theorem start (h : r.Alike r') (inRuntime : Bool) :
    (r.start inRuntime).1.Alike (r'.start inRuntime).1 := by
  unfold Run.start
  rw [h.lifecycle_eq]
  cases inRuntime with
  | false => exact h
  | true =>
    cases r.lifecycle with
    | running | stopped => exact h
    | idle =>
      obtain ⟨task', history', htask, rfl⟩ := h
      exact ⟨.spawned, _, .inl rfl, rfl⟩

theorem cancel (h : r.Alike r') : r.cancel.Alike r'.cancel := by
  obtain ⟨task', history', htask, rfl⟩ := h
  exact ⟨task', history', htask, rfl⟩

theorem requestStop (hs : s.Alike s') (h : r.Alike r') :
    (r.requestStop s).Alike (r'.requestStop s') := by
  have hstopped : Run.Alike { r with lifecycle := .stopped } { r' with lifecycle := .stopped } := by
    obtain ⟨task', history', htask, rfl⟩ := h
    exact ⟨task', history', htask, rfl⟩
  unfold Run.requestStop
  rw [h.lifecycle_eq]
  cases r.lifecycle with
  | idle => exact hstopped.finish hs
  | running => exact hstopped.cancel
  | stopped => exact h

theorem concludeStop (hs : s.Alike s') (h : r.Alike r') :
    (r.concludeStop s).Alike (r'.concludeStop s') := by
  unfold Run.concludeStop
  rcases h.task with heq | ⟨lines, lines', ends, next, heq, heq'⟩
  · rw [heq]
    cases r.task with
    | ended => exact h.finish hs
    | _ => exact h
  · rw [heq, heq']
    exact h

theorem advanceFor (hs : s.Alike s') (h : r.Alike r') (n : Nat) :
    (r.advanceFor s n).Alike (r'.advanceFor s' n) := by
  induction n generalizing r r' with
  | zero => exact h
  | succ n ih =>
    have hnext := h.advance? hs
    unfold Run.advanceFor
    generalize r.advance? s = next at hnext ⊢
    generalize r'.advance? s' = next' at hnext ⊢
    cases hnext with
    | some hnext => exact ih hnext
    | none => exact h

theorem settle (hs : s.Alike s') (h : r.Alike r') : (r.settle s).Alike (r'.settle s') := by
  unfold Run.settle
  rw [h.activity_eq]
  exact h.advanceFor hs _

theorem elapse (h : r.Alike r') (instant : Nat) : (r.elapse instant).Alike (r'.elapse instant) := by
  obtain ⟨task', history', htask, rfl⟩ := h
  exact ⟨task', history', htask, rfl⟩

theorem sleepFor (hs : s.Alike s') (h : r.Alike r') (target n : Nat) :
    (r.sleepFor s target n).Alike (r'.sleepFor s' target n) := by
  induction n generalizing r r' with
  | zero => exact h
  | succ n ih =>
    unfold Run.sleepFor
    rw [h.timer?_eq, h.now_eq]
    cases r.timer? with
    | none => exact h
    | some instant =>
      dsimp only
      split
      · exact ih ((h.elapse instant).settle hs)
      · exact h

theorem sleep (hs : s.Alike s') (h : r.Alike r') (duration : Nat) :
    (r.sleep s duration).Alike (r'.sleep s' duration) := by
  unfold Run.sleep
  rw [h.now_eq]
  exact (((h.settle hs).sleepFor hs _ duration).elapse _).settle hs

theorem awaitWrites (hs : s.Alike s') (h : r.Alike r') (n : Nat) :
    (r.awaitWrites s n).Alike (r'.awaitWrites s' n) := by
  induction n generalizing r r' with
  | zero => exact h
  | succ n ih =>
    unfold Run.awaitWrites
    rcases h.task with heq | ⟨lines, lines', ends, next, heq, heq'⟩
    · rw [heq]
      cases r.task with
      | writing lines ends next => exact ih ((h.elapse ends).settle hs)
      | _ => exact h
    · rw [heq, heq']
      exact ih ((h.elapse ends).settle hs)

theorem stop (hs : s.Alike s') (h : r.Alike r') : (r.stop s).Alike (r'.stop s') := by
  have hawaited := ((h.requestStop hs).settle hs).awaitWrites hs 2
  unfold Run.stop Run.isRunning
  dsimp only
  rw [h.lifecycle_eq]
  split
  · exact ((hawaited.concludeStop hs).settle hs).awaitWrites hs 1
  · exact hawaited

/-! ### Whole runs -/

theorem step (hs : s.Alike s') (h : r.Alike r') (step : Step Faultless) :
    (r.step s step).1.Alike (r'.step s' step).1 := by
  cases step with
  | register reading => exact h.register hs reading
  | start inRuntime => exact h.start inRuntime
  | cancel => exact h.cancel
  | stop => exact h.stop hs
  | settle => exact h.settle hs
  | sleep duration => exact h.sleep hs duration
  | pace durations | disturb change =>
    obtain ⟨task', history', htask, rfl⟩ := h
    exact ⟨task', history', htask, rfl⟩

theorem exec (hs : s.Alike s') (h : r.Alike r') (steps : List (Step Faultless)) :
    (r.exec s steps).Alike (r'.exec s' steps) := by
  induction steps generalizing r r' with
  | nil => exact h
  | cons first rest ih => exact ih (h.step hs first)

end Alike

end Run

end LogShipper
