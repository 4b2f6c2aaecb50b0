import LogShipper.Proofs.Aggregator.Effects
import LogShipper.Proofs.Aggregator.Moves
import LogShipper.Transport.Scripted

/-!
# Failures disturb nothing

A shipper does not look at what became of a write, nor at how the transport was closed: it reports
the failure and goes on.  To say so of whole runs, a run is compared with the one that it would be
if nothing failed (`Run.faultless`).  There the transport is one on which everything succeeds, each
lost write was delivered, and the reports of failures are left out; nothing else is changed.

Each operation of a run, done on the faultless run, leads to the faultless run of what it leads to,
and answers the same.  Two runs that differ only in their failures have the same faultless run, and
so nothing tells them apart but what was left out (`Run.watch_eq_of_failures`).
-/

namespace LogShipper

open Wire Transport

/-! ## Leaving failures out -/

namespace Transport

/-- A transport on which nothing fails. -/
structure Faultless where

instance : Transport Faultless where
  write t payload := { transport := t, result := .ok payload.length }
  close t := (t, .ok ())
  isOpen _ := true

end Transport

/-- What an occurrence would be if nothing failed; a report of a failure would not be. -/
def Occurrence.faultless? : Occurrence → Option Occurrence
  | .lost lines _ => some (.delivered lines)
  | .closed _ => some (.closed (.ok ()))
  | .noticed (.sendFailed ..) | .noticed (.closeFailed _) | .noticed (.transport _) => none
  | o => some o

/-- What would have happened if nothing had failed. -/
def History.faultless (h : History) : History :=
  h.filterMap fun e => e.occurrence.faultless?.map fun o => ⟨e.instant, o⟩

variable {τ : Type}

/-- The run as it would be if nothing failed. -/
def Run.faultless (r : Run τ) : Run Faultless where
  now := r.now
  intake := r.intake
  reporting := r.reporting
  transport := {}
  task := r.task
  lifecycle := r.lifecycle
  cancelled := r.cancelled
  finalFlushed := r.finalFlushed
  wakeups := r.wakeups
  writes := r.writes
  pace := r.pace
  history := r.history.faultless

/-- The step as it would be if nothing failed. -/
def Step.faultless : Step τ → Step Faultless
  | .register reading => .register reading
  | .start inRuntime => .start inRuntime
  | .cancel => .cancel
  | .stop => .stop
  | .settle => .settle
  | .sleep duration => .sleep duration
  | .pace durations => .pace durations
  | .disturb _ => .disturb id

namespace Run

section Fields

variable (r : Run τ)

@[simp] theorem now_faultless : r.faultless.now = r.now := rfl
@[simp] theorem intake_faultless : r.faultless.intake = r.intake := rfl
@[simp] theorem task_faultless : r.faultless.task = r.task := rfl
@[simp] theorem lifecycle_faultless : r.faultless.lifecycle = r.lifecycle := rfl

end Fields

/-! ## Notes -/

section Notes

variable (r : Run τ)

theorem faultless_note {o : Occurrence} (ho : o.faultless? = some o) :
    (r.note o).faultless = r.faultless.note o := by
  simp [note, faultless, History.faultless, ho]

/-- Reports of failures are left out. -/
theorem faultless_note_of_none {o : Occurrence} (ho : o.faultless? = none) :
    (r.note o).faultless = r.faultless := by
  simp [note, faultless, History.faultless, ho]

theorem faultless_noteAll {notices : List Notice}
    (h : ∀ n ∈ notices, (Occurrence.noticed n).faultless? = some (.noticed n)) :
    (r.noteAll notices).faultless = r.faultless.noteAll notices := by
  induction notices generalizing r with
  | nil => rfl
  | cons n notices ih =>
    obtain ⟨hfirst, hrest⟩ := List.forall_mem_cons.1 h
    show ((r.note (.noticed n)).noteAll notices).faultless = _
    rw [ih _ hrest, r.faultless_note hfirst]
    rfl

theorem faultless_noteAll_transport (notices : List TransportNotice) :
    (r.noteAll (notices.map .transport)).faultless = r.faultless := by
  induction notices generalizing r with
  | nil => rfl
  | cons n notices ih => exact (ih _).trans (r.faultless_note_of_none rfl)

end Notes

/-! ## Registering and gathering -/

section Gathering

variable (s : Shipper) (r : Run τ)

theorem faultless_wake : r.wake.faultless = r.faultless.wake := by
  rcases r with ⟨_, _, _, _, _ | _ | ⟨_ | _, _⟩ | _ | _⟩ <;> rfl

theorem faultless_register (reading : Reading) :
    (r.register s reading).1.faultless = (r.faultless.register s reading).1 := by
  simp only [register, now_faultless, intake_faultless]
  rcases r.intake.register s r.now reading with ⟨intake, sampling⟩
  cases sampling with
  | urgent sample => exact faultless_wake _
  | _ => rfl

/-- What rendering reports is no failure. -/
theorem faultless?_of_mem_renderAll {lines : List Line} {n : Notice}
    (h : n ∈ (s.renderAll lines).2) : (Occurrence.noticed n).faultless? = some (.noticed n) := by
  obtain ⟨_, _, rfl⟩ := s.skipped_of_mem_renderAll h
  rfl

theorem faultless_collect : (r.collect s).1.faultless = (r.faultless.collect s).1 := by
  refine faultless_noteAll _ (List.forall_mem_append.2 ⟨?_, fun n => faultless?_of_mem_renderAll s⟩)
  split
  · exact List.forall_mem_nil _
  · exact List.forall_mem_singleton.2 rfl

theorem faultless_flush (forced : Bool) :
    (r.flush s forced).1.faultless = (r.faultless.flush s forced).1 :=
  faultless_noteAll _ fun _ => faultless?_of_mem_renderAll s

theorem faultless_flushIfDue (forced : Bool) :
    (r.flushIfDue s forced).1.faultless = (r.faultless.flushIfDue s forced).1 ∧
      (r.flushIfDue s forced).2 = (r.faultless.flushIfDue s forced).2 := by
  by_cases hdue : forced || r.reporting.isDue s r.now r.intake.eventsSinceFlush
  · have hflush : r.flushIfDue s forced = r.flush s forced := if_pos hdue
    have hfaultless : r.faultless.flushIfDue s forced = r.faultless.flush s forced := if_pos hdue
    rw [hflush, hfaultless]
    exact ⟨r.faultless_flush s forced, rfl⟩
  · have hflush : r.flushIfDue s forced = (r, []) := if_neg hdue
    have hfaultless : r.faultless.flushIfDue s forced = (r.faultless, []) := if_neg hdue
    rw [hflush, hfaultless]
    exact ⟨rfl, rfl⟩

/-- A pass gathers the same lines. -/
theorem faultless_gathered (forced : Bool) :
    (r.gathered s forced).1.faultless = (r.faultless.gathered s forced).1 ∧
      (r.gathered s forced).2 = (r.faultless.gathered s forced).2 := by
  let announced := ((r.note (.passed forced)).announce s).1
  obtain ⟨hrun, hlines⟩ := announced.faultless_flushIfDue s forced
  have hcollected := (announced.flushIfDue s forced).1.faultless_collect s
  have hcollectedLines : ((announced.flushIfDue s forced).1.collect s).2 =
      ((announced.flushIfDue s forced).1.faultless.collect s).2 := rfl
  rw [hrun] at hcollected hcollectedLines
  refine ⟨hcollected, ?_⟩
  show _ ++ _ ++ _ = _ ++ _ ++ _
  rw [hlines, hcollectedLines]
  rfl

end Gathering

/-! ## Writing and closing -/

section Writing

variable [Transport τ] (s : Shipper) (r : Run τ)

/-- However the transport is closed, the task ends. -/
theorem faultless_proceed (next : Next) : (r.proceed next).faultless = r.faultless.proceed next := by
  cases next with
  | resume due => rfl
  | close =>
    unfold proceed
    dsimp only
    split
    · rfl
    · exact faultless_note_of_none _ rfl

theorem faultless_send (lines : List Rendered) (next : Next) :
    (r.send lines next).faultless = r.faultless.send lines next := by
  unfold send
  split
  · exact r.faultless_proceed next
  · rfl

theorem faultless_pass (forced : Bool) (next : Next) :
    (r.pass s forced next).faultless = r.faultless.pass s forced next := by
  obtain ⟨hrun, hlines⟩ := r.faultless_gathered s forced
  rw [pass_eq, pass_eq, faultless_send, hrun, hlines]

theorem faultless_finish : (r.finish s).faultless = r.faultless.finish s := by
  unfold finish
  split
  · rename_i hfinal
    exact (if_pos (show r.faultless.finalFlushed = true from hfinal)).symm
  · rename_i hfinal
    rw [if_neg (show ¬r.faultless.finalFlushed = true from hfinal)]
    exact faultless_pass s _ true .close

/-- However a write ends, the task goes on in the same way. -/
theorem faultless_complete (lines : List Rendered) (next : Next) :
    (r.complete lines next).faultless = r.faultless.complete lines next := by
  let written := Transport.write r.transport (payloadOf lines)
  have hnoticed : (({ r with transport := written.transport } : Run τ).noteAll
      (written.notices.map .transport)).faultless = r.faultless := faultless_noteAll_transport _ _
  unfold complete
  dsimp only
  rw [faultless_proceed]
  show proceed _ next = proceed (r.faultless.note (.delivered lines)) next
  congr 1
  rw [← hnoticed]
  split
  · exact faultless_note _ rfl
  · exact faultless_note_of_none _ rfl

/-- The task does the same next thing. -/
theorem faultless_advance? : r.faultless.advance? s = (r.advance? s).map faultless := by
  unfold advance?
  rw [task_faultless]
  cases r.task with
  | absent | spawned | ended => rfl
  | looking waits due =>
    dsimp only
    by_cases hcancelled : r.cancelled = true
    · have hcancelled' : r.faultless.cancelled = true := hcancelled
      rw [if_pos hcancelled, if_pos hcancelled', Option.map_some, faultless_finish,
        faultless_note _ rfl]
    have hcancelled' : ¬r.faultless.cancelled = true := hcancelled
    rw [if_neg hcancelled, if_neg hcancelled']
    by_cases hwoken : 0 < r.wakeups
    · have hwoken' : 0 < r.faultless.wakeups := hwoken
      rw [if_pos hwoken, if_pos hwoken', Option.map_some, faultless_send, faultless_collect]
      rfl
    have hwoken' : ¬0 < r.faultless.wakeups := hwoken
    rw [if_neg hwoken, if_neg hwoken']
    by_cases hdue : due ≤ r.now
    · have hdue' : due ≤ r.faultless.now := hdue
      rw [if_pos hdue, if_pos hdue', Option.map_some, faultless_pass]
      rfl
    have hdue' : ¬due ≤ r.faultless.now := hdue
    rw [if_neg hdue, if_neg hdue']
    cases waits <;> rfl
  | writing lines ends next =>
    dsimp only
    by_cases hends : ends ≤ r.now
    · have hends' : ends ≤ r.faultless.now := hends
      rw [if_pos hends, if_pos hends', Option.map_some, faultless_complete]
    · have hends' : ¬ends ≤ r.faultless.now := hends
      rw [if_neg hends, if_neg hends']
      rfl

/-! ## Starting, stopping and the clock -/

omit [Transport τ] in
theorem faultless_start (inRuntime : Bool) :
    (r.start inRuntime).1.faultless = (r.faultless.start inRuntime).1 ∧
      (r.start inRuntime).2 = (r.faultless.start inRuntime).2 := by
  unfold start
  rw [lifecycle_faultless]
  cases inRuntime with
  | false => exact ⟨rfl, rfl⟩
  | true => cases r.lifecycle <;> exact ⟨rfl, rfl⟩

theorem faultless_requestStop : (r.requestStop s).faultless = r.faultless.requestStop s := by
  unfold requestStop
  rw [lifecycle_faultless]
  cases r.lifecycle with
  | idle => exact faultless_finish s _
  | running | stopped => rfl

theorem faultless_concludeStop : (r.concludeStop s).faultless = r.faultless.concludeStop s := by
  unfold concludeStop
  rw [task_faultless]
  cases r.task with
  | ended => exact faultless_finish s r
  | _ => rfl

theorem faultless_advanceFor (n : Nat) :
    (r.advanceFor s n).faultless = r.faultless.advanceFor s n := by
  induction n generalizing r with
  | zero => rfl
  | succ n ih =>
    unfold advanceFor
    rw [faultless_advance?]
    cases r.advance? s with
    | none => rfl
    | some next => exact ih next

theorem faultless_settle : (r.settle s).faultless = r.faultless.settle s :=
  faultless_advanceFor s r r.activity

omit [Transport τ] in
theorem faultless_elapse (instant : Nat) :
    (r.elapse instant).faultless = r.faultless.elapse instant := rfl

theorem faultless_sleepFor (target n : Nat) :
    (r.sleepFor s target n).faultless = r.faultless.sleepFor s target n := by
  induction n generalizing r with
  | zero => rfl
  | succ n ih =>
    have htimer : r.faultless.timer? = r.timer? := rfl
    unfold sleepFor
    rw [htimer, now_faultless]
    cases r.timer? with
    | none => rfl
    | some instant =>
      dsimp only
      split
      · rw [ih, faultless_settle, faultless_elapse]
      · rfl

theorem faultless_sleep (duration : Nat) :
    (r.sleep s duration).faultless = r.faultless.sleep s duration := by
  let target := r.now + duration
  show (settle s (elapse target (sleepFor s target duration (r.settle s)))).faultless =
    settle s (elapse target (sleepFor s target duration (r.faultless.settle s)))
  rw [faultless_settle, faultless_elapse, faultless_sleepFor, faultless_settle]

theorem faultless_awaitWrites (n : Nat) :
    (r.awaitWrites s n).faultless = r.faultless.awaitWrites s n := by
  induction n generalizing r with
  | zero => rfl
  | succ n ih =>
    unfold awaitWrites
    rw [task_faultless]
    cases r.task with
    | writing lines ends next =>
      dsimp only
      rw [ih, faultless_settle, faultless_elapse]
    | _ => rfl

theorem faultless_stop : (r.stop s).faultless = r.faultless.stop s := by
  have hawaited : (awaitWrites s 2 ((r.requestStop s).settle s)).faultless =
      awaitWrites s 2 ((r.faultless.requestStop s).settle s) := by
    rw [faultless_awaitWrites, faultless_settle, faultless_requestStop]
  have hrunning : r.faultless.isRunning = r.isRunning := rfl
  unfold stop
  dsimp only
  rw [hrunning]
  split
  · rw [faultless_awaitWrites, faultless_settle, faultless_concludeStop, hawaited]
  · exact hawaited

end Writing

/-! ## Whole runs -/

section Steps

variable [Transport τ] (s : Shipper)

/-- A step on the faultless run leads to the faultless run of what the step leads to, and answers
the same. -/
theorem faultless_step (r : Run τ) (step : Step τ) :
    (r.step s step).1.faultless = (r.faultless.step s step.faultless).1 ∧
      (r.step s step).2 = (r.faultless.step s step.faultless).2 := by
  cases step with
  | register reading => exact ⟨r.faultless_register s reading, rfl⟩
  | start inRuntime =>
    obtain ⟨hrun, hresult⟩ := r.faultless_start inRuntime
    exact ⟨hrun, congrArg Answer.started hresult⟩
  | cancel => exact ⟨rfl, rfl⟩
  | stop => exact ⟨r.faultless_stop s, rfl⟩
  | settle => exact ⟨r.faultless_settle s, rfl⟩
  | sleep duration => exact ⟨r.faultless_sleep s duration, rfl⟩
  | pace durations => exact ⟨rfl, rfl⟩
  | disturb change => exact ⟨rfl, rfl⟩

theorem faultless_exec (r : Run τ) (steps : List (Step τ)) :
    (r.exec s steps).faultless = r.faultless.exec s (steps.map Step.faultless) := by
  induction steps generalizing r with
  | nil => rfl
  | cons step rest ih =>
    show ((r.step s step).1.exec s rest).faultless = _
    rw [ih, (r.faultless_step s step).1]
    rfl

end Steps

end Run

/-! ## What is seen of a run -/

/-- The payloads of the writes that began, each with its instant. -/
def History.payloads (h : History) : List (Nat × List UInt8) :=
  (h.filterMap fun e =>
    e.occurrence.attempt?.map fun lines => (e.instant, Run.payloadOf lines)).reverse

/-- What is seen of a run, apart from what became of its writes. -/
structure Observation where
  totalEvents : Nat
  waiting : Nat
  isRunning : Bool
  closings : Nat
  payloads : List (Nat × List UInt8)

namespace Run

/-- What is seen of the run. -/
def observation (r : Run τ) : Observation where
  totalEvents := r.intake.totalEvents
  waiting := r.intake.waiting
  isRunning := r.isRunning
  closings := r.history.closings.length
  payloads := r.history.payloads

/-- The answers to some steps, each with what is seen after the step. -/
def watch [Transport τ] (s : Shipper) (r : Run τ) : List (Step τ) → List (Answer × Observation)
  | [] => []
  | step :: rest =>
    let next := r.step s step
    (next.2, next.1.observation) :: next.1.watch s rest

end Run

/-- The writes of a history began whether or not they were lost. -/
theorem History.payloads_faultless (h : History) : h.faultless.payloads = h.payloads := by
  unfold payloads faultless
  rw [List.filterMap_filterMap]
  congr 2
  funext ⟨t, o⟩
  cases o with
  | noticed n => cases n <;> rfl
  | _ => rfl

/-- The transport was closed as often, whatever came of it. -/
theorem History.length_closings_faultless (h : History) :
    h.faultless.closings.length = h.closings.length := by
  have hclosings : (fun e : Entry => (e.occurrence.faultless?.map fun o => Entry.mk e.instant o).bind
      fun e => e.occurrence.closing?) =
      fun e => e.occurrence.closing?.map fun _ => Except.ok () := by
    funext ⟨t, o⟩
    cases o with
    | noticed n => cases n <;> rfl
    | _ => rfl
  unfold closings select faultless
  rw [List.filterMap_filterMap, hclosings, ← List.map_filterMap, List.length_reverse,
    List.length_map, List.length_reverse]

namespace Run

theorem observation_faultless (r : Run τ) : r.faultless.observation = r.observation := by
  unfold observation
  congr 1
  · exact r.history.length_closings_faultless
  · exact r.history.payloads_faultless

theorem watch_faultless [Transport τ] (s : Shipper) (r : Run τ) (steps : List (Step τ)) :
    r.faultless.watch s (steps.map Step.faultless) = r.watch s steps := by
  induction steps generalizing r with
  | nil => rfl
  | cons step rest ih =>
    obtain ⟨hrun, hanswer⟩ := r.faultless_step s step
    rw [List.map_cons, watch, watch, ← hrun, ← hanswer, ih, observation_faultless]

/-- **Failures disturb nothing.**  Two runs of a shipper may have any transports, and changes of
the transports may be any: as long as their steps are the same otherwise, each step has the same
answer, and after it the same number of events was registered, as many samples wait, both or none
is running, the transport was closed as often, and the same payloads were written at the same
instants.  Even the histories are the same but for what became of the writes and the closing, and
for the reports of failures. -/
theorem watch_eq_of_failures {τ₁ τ₂ : Type} [Transport τ₁] [Transport τ₂] (s : Shipper) (now : Nat)
    (transport₁ : τ₁) (transport₂ : τ₂) {steps₁ : List (Step τ₁)} {steps₂ : List (Step τ₂)}
    (h : steps₁.map Step.faultless = steps₂.map Step.faultless) :
    (Run.new s transport₁ now).watch s steps₁ = (Run.new s transport₂ now).watch s steps₂ ∧
    ((Run.new s transport₁ now).exec s steps₁).history.faultless =
      ((Run.new s transport₂ now).exec s steps₂).history.faultless := by
  have hnew : (Run.new s transport₁ now).faultless = (Run.new s transport₂ now).faultless := rfl
  constructor
  · rw [← watch_faultless, ← watch_faultless s _ steps₂, h, hnew]
  · have hexec : ((Run.new s transport₁ now).exec s steps₁).faultless =
        ((Run.new s transport₂ now).exec s steps₂).faultless := by
      rw [faultless_exec, faultless_exec, h, hnew]
    exact congrArg Run.history hexec

/-- The first write is lost, the last one too, and closing fails; beside it nothing fails. -/
theorem watch_eq_of_scripted_failures :
    let reading : Reading :=
      { key := "app", label := "ERROR", severity := .error, rendered := .ok "boom" }
    let steps (first second : Scripted → Scripted) : List (Step Scripted) :=
      [.start true, .register reading, .disturb first, .settle, .disturb second, .stop]
    let r := Run.new Shipper.plain ({} : Scripted) 0
    let failing := steps (Scripted.failNext 2) Scripted.failClose
    (r.exec Shipper.plain failing).history.countP (fun e => e.occurrence.isLoss) = 2 ∧
    r.watch Shipper.plain failing = r.watch Shipper.plain (steps id id) := by
  intro reading steps r failing
  have hsteps : failing.map Step.faultless = (steps id id).map Step.faultless := rfl
  have hwatch := watch_eq_of_failures Shipper.plain 0 ({} : Scripted) ({} : Scripted) hsteps
  exact ⟨by decide +kernel, hwatch.1⟩

end Run

end LogShipper
