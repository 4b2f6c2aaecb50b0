import LogShipper.Aggregator.Schedule

/-!
# Progress at an instant

Only so much can happen at one instant. Everything that the flush task does uses up some of the
`activity` of the run (`activity_lt_of_advance?`), because a wake-up is taken away, or the next tick
comes to lie later, or the task comes nearer to waiting. So `settle` leaves nothing undone
(`advance?_settle`).
-/

namespace LogShipper.Run

open Wire Transport

variable {τ : Type}

/-! ## What a pass leaves alone -/

/-- Noting notices changes nothing but the history. -/
theorem noteAll_eq (r : Run τ) (notices : List Notice) :
    r.noteAll notices =
      { r with history := (notices.reverse.map fun n => ⟨r.now, .noticed n⟩) ++ r.history } := by
  induction notices generalizing r with
  | nil => rfl
  | cons n notices ih =>
    rw [noteAll, List.foldl_cons, ← noteAll, ih]
    simp [note]

@[simp] theorem now_note (r : Run τ) (o : Occurrence) : (r.note o).now = r.now := rfl
@[simp] theorem wakeups_note (r : Run τ) (o : Occurrence) : (r.note o).wakeups = r.wakeups := rfl
@[simp] theorem task_note (r : Run τ) (o : Occurrence) : (r.note o).task = r.task := rfl

@[simp] theorem now_noteAll (r : Run τ) (notices : List Notice) :
    (r.noteAll notices).now = r.now := by rw [noteAll_eq]

@[simp] theorem wakeups_noteAll (r : Run τ) (notices : List Notice) :
    (r.noteAll notices).wakeups = r.wakeups := by rw [noteAll_eq]

@[simp] theorem now_collect (s : Shipper) (r : Run τ) : (r.collect s).1.now = r.now := by
  simp [collect]

@[simp] theorem wakeups_collect (s : Shipper) (r : Run τ) :
    (r.collect s).1.wakeups = r.wakeups := by simp [collect]

@[simp] theorem now_announce (s : Shipper) (r : Run τ) : (r.announce s).1.now = r.now := rfl

@[simp] theorem wakeups_announce (s : Shipper) (r : Run τ) :
    (r.announce s).1.wakeups = r.wakeups := rfl

@[simp] theorem now_flushIfDue (s : Shipper) (forced : Bool) (r : Run τ) :
    (r.flushIfDue s forced).1.now = r.now := by
  unfold flushIfDue
  split
  · simp [flush]
  · rfl

@[simp] theorem wakeups_flushIfDue (s : Shipper) (forced : Bool) (r : Run τ) :
    (r.flushIfDue s forced).1.wakeups = r.wakeups := by
  unfold flushIfDue
  split
  · simp [flush]
  · rfl

/-! ## How much can still happen -/

variable [Transport τ]

/-- The next tick is due later than the present one. -/
theorem lt_nextTick (s : Shipper) {due now : Nat} (h : due ≤ now) : due < nextTick s due now := by
  have := s.checkInterval_pos
  unfold nextTick
  split <;> omega

/-- What is left to do after a write of the flush task. -/
theorem activity_proceed (next : Next) (r : Run τ) :
    (r.proceed next).activity = match next with
      | .resume due => 3 * r.wakeups + 3 * (r.now + 1 - due) + 11
      | .close => 0 := by
  cases next with
  | resume due => rfl
  | close =>
    simp only [proceed]
    split <;> rfl

/-- What is left to do at the beginning of a write. -/
theorem activity_send_le (lines : List Rendered) (next : Next) (r : Run τ) :
    (r.send lines next).activity ≤ match next with
      | .resume due => 3 * r.wakeups + 3 * (r.now + 1 - due) + 12
      | .close => 1 := by
  unfold send
  split
  · rw [activity_proceed]
    cases next <;> simp
  · cases next <;> simp [activity, note]

theorem activity_pass_le (s : Shipper) (forced : Bool) (next : Next) (r : Run τ) :
    (r.pass s forced next).activity ≤ match next with
      | .resume due => 3 * r.wakeups + 3 * (r.now + 1 - due) + 12
      | .close => 1 := by
  unfold pass
  refine Nat.le_trans (activity_send_le ..) ?_
  cases next <;> simp

theorem activity_finish_le (s : Shipper) (r : Run τ) : (r.finish s).activity ≤ 1 := by
  unfold finish
  split
  · simp [activity]
  · exact activity_pass_le s true .close _

/-- The end of a write leaves what follows it. -/
theorem activity_complete (lines : List Rendered) (next : Next) (r : Run τ) :
    (r.complete lines next).activity = match next with
      | .resume due => 3 * r.wakeups + 3 * (r.now + 1 - due) + 11
      | .close => 0 := by
  unfold complete
  rw [activity_proceed]
  cases next with
  | resume due => dsimp only; split <;> simp
  | close => rfl

/-- Whatever the task does at an instant, less is left to do. -/
theorem activity_lt_of_advance? {s : Shipper} {r next : Run τ} (h : r.advance? s = some next) :
    next.activity < r.activity := by
  unfold advance? at h
  split at h
  · exact absurd h nofun
  · exact absurd h nofun
  · rename_i htask
    obtain rfl := Option.some.inj h
    simp [activity, htask]
  · rename_i waits due htask
    have hr : 10 + 3 * r.wakeups + 3 * (r.now + 1 - due) ≤ r.activity := by
      rw [activity, htask]
      cases waits <;> simp <;> omega
    split at h
    · obtain rfl := Option.some.inj h
      have := activity_finish_le s (r.note (.noticed .shuttingDown))
      omega
    split at h
    · obtain rfl := Option.some.inj h
      let woken : Run τ := { r with wakeups := r.wakeups - 1 }
      have hsend : _ ≤ 3 * _ + 3 * (_ + 1 - due) + 12 :=
        activity_send_le (woken.collect s).2 (.resume due) (woken.collect s).1
      rw [wakeups_collect, now_collect, show woken.wakeups = r.wakeups - 1 from rfl,
        show woken.now = r.now from rfl] at hsend
      exact Nat.lt_of_le_of_lt hsend (by omega)
    split at h
    · rename_i hdue
      obtain rfl := Option.some.inj h
      have hpass : _ ≤ 3 * _ + 3 * (_ + 1 - nextTick s due r.now) + 12 :=
        activity_pass_le s false (.resume (nextTick s due r.now)) r
      have := lt_nextTick s hdue
      omega
    split at h
    · exact absurd h nofun
    · rename_i hwaits
      obtain rfl := Option.some.inj h
      simp [activity, htask, hwaits]
  · rename_i lines ends following htask
    split at h
    · obtain rfl := Option.some.inj h
      rw [activity_complete, activity, htask]
      cases following <;> simp
    · exact absurd h nofun

/-! ## Settling -/

/-- With as many goes as there is activity, nothing is left undone. -/
theorem advance?_advanceFor (s : Shipper) {n : Nat} {r : Run τ} (h : r.activity ≤ n) :
    (advanceFor s n r).advance? s = none := by
  induction n generalizing r with
  | zero =>
    cases hnext : r.advance? s with
    | none => exact hnext
    | some next =>
      have := activity_lt_of_advance? hnext
      omega
  | succ n ih =>
    unfold advanceFor
    split
    · assumption
    · rename_i next hnext
      have := activity_lt_of_advance? hnext
      exact ih (by omega)

/-- After settling, nothing can happen at the instant. -/
@[simp] theorem advance?_settle (s : Shipper) (r : Run τ) : (r.settle s).advance? s = none :=
  advance?_advanceFor s (Nat.le_refl _)

/-- A run in which nothing can happen is left as it is. -/
theorem settle_of_advance?_eq_none {s : Shipper} {r : Run τ} (h : r.advance? s = none) :
    r.settle s = r := by
  unfold settle
  cases r.activity with
  | zero => rfl
  | succ n => rw [advanceFor, h]

end LogShipper.Run
