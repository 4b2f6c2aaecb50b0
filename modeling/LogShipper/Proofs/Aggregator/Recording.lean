import LogShipper.Proofs.Aggregator.Moves
import LogShipper.Transport.Recorded

/-!
# Recording changes nothing

A run whose transport keeps a record does the same as the run without it: each function of a run
commutes with forgetting the record (`Run.forget`).  So the moves of a run are those of recorded
ones, seen without the record (`Moves.iff_exists_recorded`), and whatever is proved of the record of
every recorded run is true of what any run did to its transport.

What comes from outside may change the transport but not what was recorded of it; the recorded moves
are those that keep to this.
-/

namespace LogShipper

open Wire Transport

variable {τ : Type}

namespace Transport.Recorded

/-- A change of a recorded transport that is no use of it. -/
def KeepsUses (change : Recorded τ → Recorded τ) : Prop := ∀ t, (change t).uses = t.uses

theorem keepsUses_lift (change : τ → τ) : KeepsUses (lift change) := fun _ => rfl

end Transport.Recorded

/-- The moves of a run whose transport keeps a record. -/
abbrev RecordedMoves [Transport τ] (s : Shipper) : Run (Recorded τ) → Run (Recorded τ) → Prop :=
  MovesBy Recorded.KeepsUses s

/-! ## Steps -/

/-- The step on a transport that keeps a record. -/
def Step.recorded : Step τ → Step (Recorded τ)
  | .register reading => .register reading
  | .start inRuntime => .start inRuntime
  | .cancel => .cancel
  | .stop => .stop
  | .settle => .settle
  | .sleep duration => .sleep duration
  | .pace durations => .pace durations
  | .disturb change => .disturb (Recorded.lift change)

theorem Step.isBy_recorded (step : Step τ) : step.recorded.IsBy Recorded.KeepsUses := by
  cases step with
  | disturb change => exact Recorded.keepsUses_lift change
  | _ => trivial

/-- Steps in order are made of recorded moves. -/
theorem RecordedMoves.exec [Transport τ] (s : Shipper) (r : Run (Recorded τ))
    (steps : List (Step τ)) : RecordedMoves s r (r.exec s (steps.map Step.recorded)) :=
  MovesBy.exec s r (List.forall_mem_map.2 fun step _ => step.isBy_recorded)

/-! ## Forgetting the record -/

namespace Run

/-- The run without the record. -/
def forget (r : Run (Recorded τ)) : Run τ := { r with transport := r.transport.transport }

variable (s : Shipper) (r : Run (Recorded τ))

theorem forget_noteAll (notices : List Notice) :
    (r.noteAll notices).forget = r.forget.noteAll notices := by
  rw [noteAll_eq, noteAll_eq]
  rfl

theorem forget_wake : r.wake.forget = r.forget.wake := by
  unfold wake
  rw [show r.forget.task = r.task from rfl]
  split <;> rfl

theorem forget_register (reading : Reading) :
    (r.register s reading).1.forget = (r.forget.register s reading).1 := by
  unfold register
  rw [show r.forget.intake = r.intake from rfl, show r.forget.now = r.now from rfl]
  dsimp only
  split
  · exact forget_wake _
  · rfl

theorem forget_collect : (r.collect s).1.forget = (r.forget.collect s).1 := forget_noteAll ..

theorem forget_flush (forced : Bool) : (r.flush s forced).1.forget = (r.forget.flush s forced).1 :=
  forget_noteAll ..

theorem forget_flushIfDue (forced : Bool) :
    (r.flushIfDue s forced).1.forget = (r.forget.flushIfDue s forced).1 ∧
      (r.flushIfDue s forced).2 = (r.forget.flushIfDue s forced).2 := by
  unfold flushIfDue
  rw [show r.forget.reporting = r.reporting from rfl, show r.forget.now = r.now from rfl,
    show r.forget.intake = r.intake from rfl]
  split
  · exact ⟨forget_flush s r forced, rfl⟩
  · exact ⟨rfl, rfl⟩

theorem forget_start (inRuntime : Bool) :
    (r.start inRuntime).1.forget = (r.forget.start inRuntime).1 := by
  unfold start
  rw [show r.forget.lifecycle = r.lifecycle from rfl]
  split
  · rfl
  · split <;> rfl

variable [Transport τ]

theorem forget_proceed (next : Next) : (r.proceed next).forget = r.forget.proceed next := by
  cases next with
  | resume due => rfl
  | close =>
    have hclosed : Transport.close r.transport =
      (⟨(Transport.close r.forget.transport).1, .close (Transport.close r.forget.transport).2 ::
        r.transport.uses⟩, (Transport.close r.forget.transport).2) := rfl
    unfold proceed
    dsimp only
    rw [hclosed]
    dsimp only
    split <;> rfl

theorem forget_send (lines : List Rendered) (next : Next) :
    (r.send lines next).forget = r.forget.send lines next := by
  unfold send
  split
  · exact forget_proceed r next
  · rfl

theorem forget_pass (forced : Bool) (next : Next) :
    (r.pass s forced next).forget = r.forget.pass s forced next := by
  let announced := ((r.note (.passed forced)).announce s).1
  obtain ⟨hflushed, hlines⟩ := forget_flushIfDue s announced forced
  have hcollected : ((announced.flushIfDue s forced).1.collect s).2 =
      ((announced.forget.flushIfDue s forced).1.collect s).2 := by
    rw [← hflushed]
    rfl
  unfold pass
  dsimp only
  rw [forget_send, forget_collect, hflushed, hlines, hcollected]
  rfl

theorem forget_finish : (r.finish s).forget = r.forget.finish s := by
  unfold finish
  rw [show r.forget.finalFlushed = r.finalFlushed from rfl]
  split
  · rfl
  · exact forget_pass s _ true .close

theorem forget_complete (lines : List Rendered) (next : Next) :
    (r.complete lines next).forget = r.forget.complete lines next := by
  let written := Transport.write r.forget.transport (payloadOf lines)
  have hwritten : Transport.write r.transport (payloadOf lines) =
    { transport := ⟨written.transport,
        .write (payloadOf lines) (Recorded.error? written.result) :: r.transport.uses⟩
      notices := written.notices
      result := written.result } := rfl
  unfold complete
  dsimp only
  rw [forget_proceed, hwritten]
  dsimp only
  split
  · rename_i hresult
    rw [show (Transport.write r.forget.transport (payloadOf lines)).result = _ from hresult]
    exact congrArg (fun x : Run τ => (x.note (.delivered lines)).proceed next)
      (forget_noteAll _ _)
  · rename_i error hresult
    rw [show (Transport.write r.forget.transport (payloadOf lines)).result = _ from hresult]
    exact congrArg (fun x : Run τ => ((x.note (.lost lines error)).note
      (.noticed (.sendFailed lines.length error))).proceed next) (forget_noteAll _ _)

/-- The task does the same without the record. -/
theorem forget_advance? : (r.advance? s).map forget = r.forget.advance? s := by
  unfold advance?
  rw [show r.forget.task = r.task from rfl, show r.forget.cancelled = r.cancelled from rfl,
    show r.forget.wakeups = r.wakeups from rfl, show r.forget.now = r.now from rfl]
  split
  · rfl
  · rfl
  · rfl
  · rename_i waits due htask
    split
    · exact congrArg some (forget_finish s _)
    split
    · let woken : Run (Recorded τ) := { r with wakeups := r.wakeups - 1 }
      refine congrArg some ((forget_send (woken.collect s).1 _ _).trans ?_)
      rw [forget_collect]
      rfl
    split
    · exact congrArg some (forget_pass s r false _)
    split <;> rfl
  · rename_i lines ends next htask
    split
    · exact congrArg some (forget_complete r lines next)
    · rfl

theorem forget_requestStop : (r.requestStop s).forget = r.forget.requestStop s := by
  unfold requestStop
  rw [show r.forget.lifecycle = r.lifecycle from rfl]
  split
  · exact forget_finish s _
  · rfl
  · rfl

theorem forget_concludeStop : (r.concludeStop s).forget = r.forget.concludeStop s := by
  unfold concludeStop
  rw [show r.forget.task = r.task from rfl]
  split
  · exact forget_finish s r
  · rfl

end Run

/-! ## The same moves -/

variable [Transport τ] {s : Shipper}

/-- A recorded move is one without the record. -/
theorem MoveBy.forget {r r' : Run (Recorded τ)} (h : MoveBy Recorded.KeepsUses s r r') :
    Move s r.forget r'.forget := by
  cases h with
  | register reading => exact r.forget_register s reading ▸ .register r.forget reading
  | start inRuntime => exact r.forget_start inRuntime ▸ .start r.forget inRuntime
  | cancel => exact .cancel r.forget
  | requestStop => exact r.forget_requestStop s ▸ .requestStop r.forget
  | concludeStop => exact r.forget_concludeStop s ▸ .concludeStop r.forget
  | advance hnext =>
    refine .advance ?_
    rw [← r.forget_advance?, hnext]
    rfl
  | elapse instant => exact .elapse r.forget instant
  | pace durations => exact .pace r.forget durations
  | disturb change =>
    exact .disturb r.forget (fun _ => (change r.transport).transport) trivial

/-- A move can be made with a record. -/
theorem Move.exists_recorded {q : Run (Recorded τ)} {r r' : Run τ} (h : Move s r r')
    (hq : q.forget = r) : ∃ q', MoveBy Recorded.KeepsUses s q q' ∧ q'.forget = r' := by
  subst hq
  cases h with
  | register reading => exact ⟨_, .register q reading, q.forget_register s reading⟩
  | start inRuntime => exact ⟨_, .start q inRuntime, q.forget_start inRuntime⟩
  | cancel => exact ⟨_, .cancel q, rfl⟩
  | requestStop => exact ⟨_, .requestStop q, q.forget_requestStop s⟩
  | concludeStop => exact ⟨_, .concludeStop q, q.forget_concludeStop s⟩
  | advance hnext =>
    rw [← q.forget_advance?] at hnext
    obtain ⟨q', hq', rfl⟩ := Option.map_eq_some_iff.1 hnext
    exact ⟨q', .advance hq', rfl⟩
  | elapse instant => exact ⟨_, .elapse q instant, rfl⟩
  | pace durations => exact ⟨_, .pace q durations, rfl⟩
  | disturb change =>
    exact ⟨_, .disturb q (Recorded.lift change) (Recorded.keepsUses_lift change), rfl⟩

/-- **Recording changes nothing.**  The moves of a run are those of a recorded one, seen without the
record. -/
theorem Moves.iff_exists_recorded {q : Run (Recorded τ)} {r : Run τ} :
    Moves s q.forget r ↔ ∃ q', RecordedMoves s q q' ∧ q'.forget = r := by
  constructor
  · intro h
    induction h with
    | refl => exact ⟨q, .refl, rfl⟩
    | tail _ hlast ih =>
      obtain ⟨middle, hmoves, hmiddle⟩ := ih
      obtain ⟨q', hmove, hq'⟩ := hlast.exists_recorded hmiddle
      exact ⟨q', hmoves.tail hmove, hq'⟩
  · rintro ⟨q', h, rfl⟩
    induction h with
    | refl => exact .refl
    | tail _ hlast ih => exact ih.tail hlast.forget

end LogShipper
