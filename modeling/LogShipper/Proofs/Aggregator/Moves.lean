import LogShipper.Aggregator.Schedule
import LogShipper.Proofs.Aggregator.Task
import Mathlib.Logic.Relation

/-!
# The moves of a run

A `Step` may let many things happen, one after the other.  A `Move` is one of them: the world does
something to the shipper, or the flush task does the next thing that it can do.  Time may pass by
any amount, also beyond an instant at which the task is due, and events may be registered between
any two moves, so that the moves allow at least what the steps allow (`Moves.exec`).  What goes on
between two steps is a `Drift`: the task does its next thing, or time passes.

Anything may change the transport from outside.  Where only some such changes are to be allowed, the
moves are those of `MoveBy`.

Most moves of the flush task are made of several pieces of `Work`, which hand on the lines put
together so far: announcing, flushing, collecting, beginning the write.  `Moves.keeps` is the
induction by which an invariant of runs is proved: whatever holds with the lines put together so
far and is kept by each piece of work and by each registration holds at every moment.
-/

namespace LogShipper

open Wire Transport

variable {τ : Type}

section Moves

variable [Transport τ]

/-! ## Moves -/

/-- One thing that happens to a run, where some changes of the transport may come from outside. -/
inductive MoveBy (outside : (τ → τ) → Prop) (s : Shipper) : Run τ → Run τ → Prop
  /-- An event is registered. -/
  | register (r : Run τ) (reading : Reading) : MoveBy outside s r (r.register s reading).1
  /-- The flush task is started, or starting it is refused. -/
  | start (r : Run τ) (inRuntime : Bool) : MoveBy outside s r (r.start inRuntime).1
  /-- The task is told to end. -/
  | cancel (r : Run τ) : MoveBy outside s r r.cancel
  /-- Stopping begins. -/
  | requestStop (r : Run τ) : MoveBy outside s r (r.requestStop s)
  /-- Stopping goes on after the task has ended. -/
  | concludeStop (r : Run τ) : MoveBy outside s r (r.concludeStop s)
  /-- The task does its next thing. -/
  | advance {r next : Run τ} (h : r.advance? s = some next) : MoveBy outside s r next
  /-- Time passes. -/
  | elapse (r : Run τ) (instant : Nat) : MoveBy outside s r (r.elapse instant)
  /-- Writes take other times from now on. -/
  | pace (r : Run τ) (durations : Nat → Nat) : MoveBy outside s r { r with pace := durations }
  /-- Something outside changes the transport. -/
  | disturb (r : Run τ) (change : τ → τ) (h : outside change) :
    MoveBy outside s r { r with transport := change r.transport }

/-- One thing that happens to a run. -/
abbrev Move (s : Shipper) : Run τ → Run τ → Prop := MoveBy (fun _ => True) s

/-- Such moves one after the other. -/
abbrev MovesBy (outside : (τ → τ) → Prop) (s : Shipper) : Run τ → Run τ → Prop :=
  Relation.ReflTransGen (MoveBy outside s)

/-- Moves one after the other. -/
abbrev Moves (s : Shipper) : Run τ → Run τ → Prop := Relation.ReflTransGen (Move s)

variable {outside : (τ → τ) → Prop}

theorem MoveBy.move {s : Shipper} {r r' : Run τ} (h : MoveBy outside s r r') : Move s r r' := by
  cases h with
  | register reading => exact .register r reading
  | start inRuntime => exact .start r inRuntime
  | cancel => exact .cancel r
  | requestStop => exact .requestStop r
  | concludeStop => exact .concludeStop r
  | advance h => exact .advance h
  | elapse instant => exact .elapse r instant
  | pace durations => exact .pace r durations
  | disturb change => exact .disturb r change trivial

theorem MovesBy.moves {s : Shipper} {r r' : Run τ} (h : MovesBy outside s r r') : Moves s r r' :=
  Relation.ReflTransGen.mono (fun _ _ => MoveBy.move) _ _ h

/-! ## Drifting -/

/-- A move that nobody asks for: the task does its next thing, or time passes. -/
inductive Drift (s : Shipper) : Run τ → Run τ → Prop
  | advance {r next : Run τ} (h : r.advance? s = some next) : Drift s r next
  | elapse (r : Run τ) (instant : Nat) : Drift s r (r.elapse instant)

theorem Drift.move {s : Shipper} {r r' : Run τ} (h : Drift s r r') : MoveBy outside s r r' := by
  cases h with
  | advance hnext => exact .advance hnext
  | elapse instant => exact .elapse r instant

/-- Such moves one after the other. -/
abbrev Drifts (s : Shipper) : Run τ → Run τ → Prop := Relation.ReflTransGen (Drift s)

namespace Drifts

theorem moves {s : Shipper} {r r' : Run τ} (h : Drifts s r r') : MovesBy outside s r r' :=
  Relation.ReflTransGen.mono (fun _ _ => Drift.move) _ _ h

theorem advanceFor (s : Shipper) (n : Nat) (r : Run τ) : Drifts s r (r.advanceFor s n) := by
  induction n generalizing r with
  | zero => exact .refl
  | succ n ih =>
    unfold Run.advanceFor
    split
    · exact .refl
    · rename_i next h
      exact .head (.advance h) (ih next)

theorem settle (s : Shipper) (r : Run τ) : Drifts s r (r.settle s) := advanceFor s _ r

/-- Letting time pass and then doing what can be done. -/
theorem elapse_settle (s : Shipper) (r : Run τ) (instant : Nat) :
    Drifts s r ((r.elapse instant).settle s) :=
  .head (.elapse r instant) (settle s _)

theorem sleepFor (s : Shipper) (target n : Nat) (r : Run τ) :
    Drifts s r (r.sleepFor s target n) := by
  induction n generalizing r with
  | zero => exact .refl
  | succ n ih =>
    unfold Run.sleepFor
    split
    · exact .refl
    · split
      · exact (elapse_settle s r _).trans (ih _)
      · exact .refl

theorem sleep (s : Shipper) (duration : Nat) (r : Run τ) : Drifts s r (r.sleep s duration) :=
  ((settle s r).trans (sleepFor s _ _ _)).trans (elapse_settle s _ _)

theorem awaitWrites (s : Shipper) (n : Nat) (r : Run τ) : Drifts s r (r.awaitWrites s n) := by
  induction n generalizing r with
  | zero => exact .refl
  | succ n ih =>
    unfold Run.awaitWrites
    split
    · exact (elapse_settle s r _).trans (ih _)
    · exact .refl

/-- Settling and waiting for the ends of writes. -/
theorem settle_awaitWrites (s : Shipper) (n : Nat) (r : Run τ) :
    Drifts s r ((r.settle s).awaitWrites s n) :=
  (settle s r).trans (awaitWrites s n _)

theorem keeps {s : Shipper} {P : Run τ → Prop} (hdrift : ∀ {r r'}, Drift s r r' → P r → P r')
    {r r' : Run τ} (h : Drifts s r r') (hr : P r) : P r' := by
  induction h with
  | refl => exact hr
  | tail _ hlast ih => exact hdrift hlast ih

end Drifts

/-- Stopping is asked for, and perhaps concluded; the rest comes by itself.  What holds after the
asking and is kept by all else holds in the end. -/
theorem Run.stop_keeps {s : Shipper} {P : Run τ → Prop}
    (hdrift : ∀ {r r'}, Drift s r r' → P r → P r')
    (hconclude : ∀ {r : Run τ}, P r → P (r.concludeStop s)) {r : Run τ}
    (hrequest : P (r.requestStop s)) : P (r.stop s) := by
  have hawaited : P (((r.requestStop s).settle s).awaitWrites s 2) :=
    (Drifts.settle_awaitWrites s 2 _).keeps hdrift hrequest
  unfold stop
  dsimp only
  split
  · exact (Drifts.settle_awaitWrites s 1 _).keeps hdrift (hconclude hawaited)
  · exact hawaited

/-! ## Steps are made of moves -/

/-- A step that changes the transport from outside in one of some ways at most. -/
def Step.IsBy (outside : (τ → τ) → Prop) : Step τ → Prop
  | .disturb change => outside change
  | _ => True

omit [Transport τ] in
/-- Every step changes the transport in some way. -/
theorem Step.isBy_true (step : Step τ) : step.IsBy fun _ => True := by
  cases step <;> trivial

namespace MovesBy

theorem stop (s : Shipper) (r : Run τ) : MovesBy outside s r (r.stop s) :=
  Run.stop_keeps (P := MovesBy outside s r) (fun hdrift h => h.tail hdrift.move)
    (fun h => h.tail (.concludeStop _)) (.single (.requestStop r))

/-- Every step is made of moves. -/
theorem step (s : Shipper) (r : Run τ) {step : Step τ} (h : step.IsBy outside) :
    MovesBy outside s r (r.step s step).1 := by
  cases step with
  | register reading => exact .single (.register r reading)
  | start inRuntime => exact .single (.start r inRuntime)
  | cancel => exact .single (.cancel r)
  | stop => exact stop s r
  | settle => exact (Drifts.settle s r).moves
  | sleep duration => exact (Drifts.sleep s duration r).moves
  | pace durations => exact .single (.pace r durations)
  | disturb change => exact .single (.disturb r change h)

/-- Steps in order are made of moves. -/
theorem exec (s : Shipper) (r : Run τ) {steps : List (Step τ)}
    (h : ∀ step ∈ steps, step.IsBy outside) : MovesBy outside s r (r.exec s steps) := by
  induction steps generalizing r with
  | nil => exact .refl
  | cons first rest ih =>
    obtain ⟨hfirst, hrest⟩ := List.forall_mem_cons.1 h
    exact (step s r hfirst).trans (ih _ hrest)

end MovesBy

namespace Moves

theorem stop (s : Shipper) (r : Run τ) : Moves s r (r.stop s) := MovesBy.stop s r

theorem step (s : Shipper) (r : Run τ) (step : Step τ) : Moves s r (r.step s step).1 :=
  MovesBy.step s r step.isBy_true

theorem exec (s : Shipper) (r : Run τ) (steps : List (Step τ)) : Moves s r (r.exec s steps) :=
  MovesBy.exec s r fun step _ => step.isBy_true

end Moves

end Moves

/-! ## Work -/

/-- Whether an occurrence neither tells of an event, a flush, a collection or the beginning of a
write, nor reports drops. -/
def Occurrence.isQuiet : Occurrence → Bool
  | .registered .. | .flushed .. | .collected _ | .attempted _ | .noticed (.dropped ..) => false
  | _ => true

namespace Occurrence

variable {o : Occurrence}

theorem event?_of_isQuiet (h : o.isQuiet = true) : o.event? = none := by
  cases o <;> first | rfl | cases h

theorem attempt?_of_isQuiet (h : o.isQuiet = true) : o.attempt? = none := by
  cases o <;> first | rfl | cases h

theorem isFlush_of_isQuiet (h : o.isQuiet = true) : o.isFlush = false := by
  cases o <;> first | rfl | cases h

end Occurrence

/-- A piece of work inside a move, with the lines put together before it and after it. -/
inductive Work (s : Shipper) : Run τ × List Rendered → Run τ × List Rendered → Prop
  | announce (r : Run τ) (lines : List Rendered) :
    Work s (r, lines) ((r.announce s).1, lines ++ (r.announce s).2)
  | flush (r : Run τ) (lines : List Rendered) (forced : Bool)
    (h : forced || r.reporting.isDue s r.now r.intake.eventsSinceFlush) :
    Work s (r, lines) ((r.flush s forced).1, lines ++ (r.flush s forced).2)
  | collect (r : Run τ) (lines : List Rendered) :
    Work s (r, lines) ((r.collect s).1, lines ++ (r.collect s).2)
  /-- The lines go into a write. -/
  | attempt (r : Run τ) (lines : List Rendered) : Work s (r, lines) (r.note (.attempted lines), [])
  | note (r : Run τ) (lines : List Rendered) (o : Occurrence) (h : o.isQuiet) :
    Work s (r, lines) (r.note o, lines)
  /-- The task, the transport and the clock go on. -/
  | control {r r' : Run τ} (lines : List Rendered) (intake : r'.intake = r.intake)
    (reporting : r'.reporting = r.reporting) (history : r'.history = r.history)
    (now : r.now ≤ r'.now) : Work s (r, lines) (r', lines)

/-- Pieces of work one after the other. -/
abbrev Works (s : Shipper) : Run τ × List Rendered → Run τ × List Rendered → Prop :=
  Relation.ReflTransGen (Work s)

namespace Works

variable {s : Shipper} {lines : List Rendered}

/-- A change of the task, the transport and the clock. -/
theorem control (r r' : Run τ) (intake : r'.intake = r.intake := by rfl)
    (reporting : r'.reporting = r.reporting := by rfl) (history : r'.history = r.history := by rfl)
    (now : r.now ≤ r'.now := by exact Nat.le_refl _) : Works s (r, lines) (r', lines) :=
  .single (.control lines intake reporting history now)

theorem note (r : Run τ) (o : Occurrence) (h : o.isQuiet := by rfl) :
    Works s (r, lines) (r.note o, lines) :=
  .single (.note r lines o h)

/-- The notices of a transport. -/
theorem noteAll (r : Run τ) (notices : List TransportNotice) :
    Works s (r, lines) (r.noteAll (notices.map .transport), lines) := by
  induction notices generalizing r with
  | nil => exact .refl
  | cons n notices ih => exact (note r (.noticed (.transport n))).trans (ih _)

theorem flushIfDue (r : Run τ) (forced : Bool) :
    Works s (r, lines) ((r.flushIfDue s forced).1, lines ++ (r.flushIfDue s forced).2) := by
  unfold Run.flushIfDue
  split
  · rename_i hdue
    exact .single (.flush r lines forced hdue)
  · simpa using Relation.ReflTransGen.refl

theorem start (r : Run τ) (inRuntime : Bool) : Works s (r, []) ((r.start inRuntime).1, []) := by
  rcases r.start_cases inRuntime with heq | ⟨-, heq⟩
  · rw [heq]
  · rw [heq]
    exact (control r { r with lifecycle := .running, task := .spawned }).trans (note _ _)

variable [Transport τ]

theorem proceed (r : Run τ) (next : Next) : Works s (r, lines) (r.proceed next, lines) := by
  cases next with
  | resume due => exact control r _
  | close =>
    unfold Run.proceed
    dsimp only
    let closing : Run τ := { r with transport := (Transport.close r.transport).1, task := .ended }
    have hclosed : Works s (r, lines) (closing.note (.closed (Transport.close r.transport).2), lines) :=
      (control r closing).trans (note closing _)
    split
    · exact hclosed
    · exact hclosed.trans (note _ _)

/-- All lines put together go into the write. -/
theorem send (r : Run τ) (next : Next) : Works s (r, lines) (r.send lines next, []) := by
  unfold Run.send
  split
  · rename_i hempty
    obtain rfl := List.isEmpty_iff.1 hempty
    exact proceed r next
  · let writing : Run τ :=
      { r with task := .writing lines (r.now + r.pace r.writes) next, writes := r.writes + 1 }
    exact (control r writing).tail (.attempt writing lines)

theorem pass (r : Run τ) (forced : Bool) (next : Next) :
    Works s (r, []) (r.pass s forced next, []) := by
  unfold Run.pass
  dsimp only
  have hpassed : Works s (r, []) (r.note (.passed forced), []) := note r _
  have hannounced := hpassed.tail (.announce _ _)
  have hflushed := hannounced.trans (flushIfDue _ forced)
  exact (hflushed.tail (.collect _ _)).trans (send _ next)

theorem finish (r : Run τ) : Works s (r, []) (r.finish s, []) := by
  unfold Run.finish
  split
  · exact control r _
  · exact (control r { r with finalFlushed := true }).trans (pass _ true .close)

theorem complete (r : Run τ) (written : List Rendered) (next : Next) :
    Works s (r, lines) (r.complete written next, lines) := by
  unfold Run.complete
  dsimp only
  let result := Transport.write r.transport (Run.payloadOf written)
  let changed : Run τ := { r with transport := result.transport }
  have hnotices : Works s (r, lines) (changed.noteAll (result.notices.map .transport), lines) :=
    (control r changed).trans (noteAll changed _)
  refine Relation.ReflTransGen.trans ?_ (proceed _ next)
  split
  · exact hnotices.trans (note _ _)
  · exact (hnotices.trans (note _ _)).trans (note _ _)

/-- What the flush task does is work. -/
theorem advance {r next : Run τ} (ha : r.Advance s next) : Works s (r, []) (next, []) := by
  cases ha with
  | begin htask => exact control r _
  | finish htask hcancelled => exact (note r _).trans (finish _)
  | @wake _ due woken htask hcancelled hwakeups hwoken =>
    subst hwoken
    exact ((control r _).tail (.collect _ [])).trans (send _ _)
  | tick htask hcancelled hwakeups hdue => exact pass r false _
  | wait htask hcancelled hwakeups hdue => exact control r _
  | complete htask hends => exact complete r _ _

theorem requestStop (r : Run τ) : Works s (r, []) (r.requestStop s, []) := by
  rcases r.requestStop_cases s with ⟨-, heq⟩ | ⟨-, heq⟩ | ⟨-, heq⟩
  · rw [heq]
    exact (control r { r with lifecycle := .stopped }).trans (finish _)
  · rw [heq]
    exact control r _
  · rw [heq]

theorem concludeStop (r : Run τ) : Works s (r, []) (r.concludeStop s, []) := by
  rcases r.concludeStop_cases s with ⟨-, heq⟩ | heq
  · rw [heq]
    exact finish r
  · rw [heq]

end Works

/-- A move registers an event, or it is made of work that leaves no line behind. -/
theorem Move.works [Transport τ] {s : Shipper} {r r' : Run τ} (h : Move s r r') :
    (∃ reading, r' = (r.register s reading).1) ∨ Works s (r, []) (r', []) := by
  cases h with
  | register reading => exact .inl ⟨reading, rfl⟩
  | start inRuntime => exact .inr (.start r inRuntime)
  | cancel => exact .inr (.control r _)
  | requestStop => exact .inr (.requestStop r)
  | concludeStop => exact .inr (.concludeStop r)
  | advance h => exact .inr (.advance (Run.advance_of_advance? h))
  | elapse instant => exact .inr (.control r _ rfl rfl rfl (Nat.le_max_left _ _))
  | pace durations => exact .inr (.control r _)
  | disturb change => exact .inr (.control r _)

/-- Whatever each piece of work keeps, many keep. -/
theorem Works.keeps {s : Shipper} {P : Run τ × List Rendered → Prop}
    (hwork : ∀ {p p'}, Work s p p' → P p → P p') {p p' : Run τ × List Rendered}
    (h : Works s p p') (hp : P p) : P p' := by
  induction h with
  | refl => exact hp
  | tail _ hw ih => exact hwork hw ih

/-- Whatever each piece of work and each registration keeps holds at every moment of a run. -/
theorem Moves.keeps [Transport τ] {s : Shipper} {P : Run τ × List Rendered → Prop}
    (hwork : ∀ {p p'}, Work s p p' → P p → P p')
    (hregister : ∀ {r : Run τ} (reading : Reading), P (r, []) → P ((r.register s reading).1, []))
    {r r' : Run τ} (h : Moves s r r') (hr : P (r, [])) : P (r', []) := by
  induction h with
  | refl => exact hr
  | tail _ hm ih =>
    rcases hm.works with ⟨reading, rfl⟩ | hworks
    · exact hregister reading ih
    · exact hworks.keeps hwork ih

/-! ## A shipper to look at -/

/-- The shipper of a host for which nothing else was chosen. -/
def Shipper.plain : Shipper where
  settings := { entity := "host" }
  destination := .tcp "localhost" Destination.defaultTcpPort
  renderer :=
    { entity := "host"
      tags := []
      counterMetric := "log_event_counter"
      totalMetric := "log_event_total_counter"
      command := "agent"
      settings := settingsProperties { entity := "host" }
      runtime := [] }
  checkInterval_pos := by decide

end LogShipper
