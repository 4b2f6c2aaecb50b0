import LogShipper.Proofs.Aggregator.Uses
import LogShipper.Transport.Scripted

/-!
# Shutdown

The transport of a shipper is closed at most once, and nothing is written afterwards: when the
transport is closed the task has ended, and no move brings it back (`Move.of_ended`).

Stopping also comes to an end.  Once a shipper is stopped, its task has few things left to do
(`Task.leftover`), and each thing that it does leaves fewer.  It can be in the middle of one write
and may have another one to make for the last pass, so that waiting for the ends of two writes is
enough (`Run.task_awaitWrites`).
-/

namespace LogShipper

open Wire Transport

variable {τ : Type} [Transport τ]

/-! ## After the task has ended -/

namespace Run

/-- Nothing is done by a task that has ended. -/
theorem advance?_of_ended (s : Shipper) {r : Run τ} (h : r.task = .ended) :
    r.advance? s = none := by
  unfold advance?
  rw [h]

theorem settle_of_ended (s : Shipper) {r : Run τ} (h : r.task = .ended) : r.settle s = r :=
  settle_of_advance?_eq_none (advance?_of_ended s h)

theorem awaitWrites_of_ended (s : Shipper) (n : Nat) {r : Run τ} (h : r.task = .ended) :
    r.awaitWrites s n = r := by
  cases n with
  | zero => rfl
  | succ n => unfold awaitWrites; rw [h]

end Run

/-- A task that has ended stays so, and nothing is written any more. -/
theorem Move.of_ended {s : Shipper} {r r' : Run τ} (hm : Move s r r') (h : r.Coherent)
    (hended : r.task = .ended) :
    r'.task = .ended ∧ r'.history.attempts = r.history.attempts := by
  have hbegun : r.lifecycle ≠ .idle := by
    intro hidle
    rw [h.absent_iff.2 hidle] at hended
    cases hended
  cases hm with
  | register reading => simpa [History.attempts, Occurrence.attempt?] using hended
  | start inRuntime =>
    rcases r.start_cases inRuntime with heq | ⟨hidle, -⟩
    · rw [heq]
      exact ⟨hended, rfl⟩
    · exact absurd hidle hbegun
  | requestStop =>
    rcases r.requestStop_cases s with ⟨hidle, -⟩ | ⟨-, heq⟩ | ⟨-, heq⟩
    · exact absurd hidle hbegun
    · rw [heq]
      exact ⟨hended, rfl⟩
    · rw [heq]
      exact ⟨hended, rfl⟩
  | concludeStop =>
    rw [h.concludeStop_eq s]
    exact ⟨hended, rfl⟩
  | advance hnext =>
    rw [Run.advance?_of_ended s hended] at hnext
    cases hnext
  | cancel => exact ⟨hended, rfl⟩
  | elapse instant => exact ⟨hended, rfl⟩
  | pace durations => exact ⟨hended, rfl⟩
  | disturb change => exact ⟨hended, rfl⟩

/-- The same for any number of moves. -/
theorem Moves.of_ended {s : Shipper} {r r' : Run τ} (hm : Moves s r r') (h : r.Coherent)
    (hended : r.task = .ended) :
    r'.task = .ended ∧ r'.history.attempts = r.history.attempts := by
  induction hm with
  | refl => exact ⟨hended, rfl⟩
  | tail hfirst hlast ih =>
    obtain ⟨htask, hattempts⟩ := ih
    obtain ⟨htask', hattempts'⟩ := hlast.of_ended (Moves.coherent hfirst h) htask
    exact ⟨htask', hattempts'.trans hattempts⟩

/-! ## Stopping comes to an end -/

/-- How many things a task that is told to end has left to do. -/
def Task.leftover : Task → Nat
  | .absent | .ended => 0
  | .writing _ _ .close => 1
  | .looking .. => 2
  | .spawned | .writing _ _ (.resume _) => 3

theorem Task.leftover_le (t : Task) : t.leftover ≤ 3 := by
  cases t with
  | writing lines ends next => cases next <;> simp [leftover]
  | _ => simp [leftover]

namespace Run

/-- A shipper that was stopped, with its parts in order. -/
structure Stopped (r : Run τ) : Prop where
  coherent : r.Coherent
  stopped : r.lifecycle = .stopped

/-! ### What a stopped task does -/

@[simp] theorem lifecycle_proceed (r : Run τ) (next : Next) :
    (r.proceed next).lifecycle = r.lifecycle := by
  cases next with
  | resume due => rfl
  | close => unfold proceed; dsimp only; split <;> rfl

@[simp] theorem lifecycle_send (r : Run τ) (lines : List Rendered) (next : Next) :
    (r.send lines next).lifecycle = r.lifecycle := by
  unfold send
  split
  · exact lifecycle_proceed r next
  · rfl

@[simp] theorem lifecycle_pass (s : Shipper) (r : Run τ) (forced : Bool) (next : Next) :
    (r.pass s forced next).lifecycle = r.lifecycle := by
  obtain ⟨_, _, _, _, _, heq, -⟩ := r.gathered_eq s forced
  rw [pass_eq, lifecycle_send, heq]

@[simp] theorem lifecycle_finish (s : Shipper) (r : Run τ) :
    (r.finish s).lifecycle = r.lifecycle := by
  unfold finish
  split
  · rfl
  · rw [lifecycle_pass]

@[simp] theorem lifecycle_complete (r : Run τ) (lines : List Rendered) (next : Next) :
    (r.complete lines next).lifecycle = r.lifecycle := by
  unfold complete
  dsimp only
  split <;> simp [note, noteAll_eq_noticed]

/-- After stopping has begun, the shipper counts as stopped. -/
theorem lifecycle_requestStop (s : Shipper) (r : Run τ) :
    (r.requestStop s).lifecycle = .stopped := by
  rcases r.requestStop_cases s with ⟨-, heq⟩ | ⟨-, heq⟩ | ⟨hstopped, heq⟩
  · rw [heq, lifecycle_finish]
  · rw [heq]
  · rw [heq, hstopped]

theorem leftover_proceed_le (r : Run τ) (next : Next) :
    (r.proceed next).task.leftover ≤ match next with
      | .resume _ => 2
      | .close => 0 := by
  cases next with
  | resume due => exact Nat.le_refl 2
  | close => unfold proceed; dsimp only; split <;> exact Nat.le_refl 0

/-- The last pass leaves at most its own write. -/
theorem leftover_finish_le (s : Shipper) (r : Run τ) : (r.finish s).task.leftover ≤ 1 := by
  unfold finish
  split
  · exact Nat.zero_le 1
  · unfold pass send
    dsimp only
    split
    · exact Nat.le_trans (leftover_proceed_le _ .close) (Nat.zero_le 1)
    · exact Nat.le_refl 1

namespace Stopped

variable {s : Shipper} {r : Run τ}

omit [Transport τ] in
/-- A stopped task was told to end, unless it makes the last pass. -/
theorem cancelled (h : r.Stopped) (hfinal : r.task.isFinal = false) : r.cancelled = true := by
  rcases h.coherent.stopping h.stopped with hcancelled | hflushed
  · exact hcancelled
  · rw [h.coherent.finalFlushed_eq, hfinal] at hflushed
    cases hflushed

/-- Whatever a stopped task does, fewer things are left to do. -/
theorem advance (h : r.Stopped) {next : Run τ} (hnext : r.advance? s = some next) :
    next.Stopped ∧ next.task.leftover < r.task.leftover := by
  have ha := advance_of_advance? hnext
  have hcoherent := h.coherent.advance ha
  have htold : ∀ {waits due}, r.task = .looking waits due → r.cancelled = false → False := by
    intro waits due htask hcancelled
    have := h.cancelled (by rw [htask]; rfl)
    rw [hcancelled] at this
    cases this
  cases ha with
  | begin htask => exact ⟨⟨hcoherent, h.stopped⟩, by simp [htask, Task.leftover]⟩
  | finish htask hcancelled =>
    refine ⟨⟨hcoherent, (lifecycle_finish s _).trans h.stopped⟩, ?_⟩
    rw [htask]
    exact Nat.lt_of_le_of_lt (leftover_finish_le s _) (Nat.lt_succ_self 1)
  | wake htask hcancelled => exact (htold htask hcancelled).elim
  | tick htask hcancelled => exact (htold htask hcancelled).elim
  | wait htask hcancelled => exact (htold htask hcancelled).elim
  | @complete lines ends following htask hends =>
    refine ⟨⟨hcoherent, (lifecycle_complete r _ _).trans h.stopped⟩, ?_⟩
    rw [htask]
    apply Nat.lt_of_le_of_lt (leftover_proceed_le _ following)
    cases following <;> simp [Task.leftover]

theorem advanceFor (h : r.Stopped) (n : Nat) :
    (r.advanceFor s n).Stopped ∧ (r.advanceFor s n).task.leftover ≤ r.task.leftover := by
  induction n generalizing r with
  | zero => exact ⟨h, Nat.le_refl _⟩
  | succ n ih =>
    unfold Run.advanceFor
    split
    · exact ⟨h, Nat.le_refl _⟩
    · rename_i next hnext
      obtain ⟨hstopped, hless⟩ := h.advance hnext
      obtain ⟨hstopped', hle⟩ := ih hstopped
      exact ⟨hstopped', Nat.le_trans hle (Nat.le_of_lt hless)⟩

/-- Settling does something if anything can be done. -/
theorem settle (h : r.Stopped) {next : Run τ} (hnext : r.advance? s = some next) :
    (r.settle s).Stopped ∧ (r.settle s).task.leftover < r.task.leftover := by
  have hactive := activity_lt_of_advance? hnext
  unfold Run.settle
  obtain ⟨n, hn⟩ : ∃ n, r.activity = n + 1 := ⟨r.activity - 1, by omega⟩
  rw [hn, Run.advanceFor, hnext]
  obtain ⟨hstopped, hless⟩ := h.advance hnext
  obtain ⟨hstopped', hle⟩ := hstopped.advanceFor n
  exact ⟨hstopped', Nat.lt_of_le_of_lt hle hless⟩

/-- A stopped task that can do nothing writes or has ended. -/
theorem task_of_settled (h : r.Stopped) (hsettled : r.advance? s = none) :
    (∃ lines ends next, r.task = .writing lines ends next) ∨ r.task = .ended := by
  have hcancelled := h.cancelled
  cases htask : r.task with
  | absent => cases (h.coherent.absent_iff.1 htask).symm.trans h.stopped
  | spawned =>
    unfold Run.advance? at hsettled
    rw [htask] at hsettled
    cases hsettled
  | looking waits due =>
    rw [htask] at hcancelled
    unfold Run.advance? at hsettled
    rw [htask] at hsettled
    dsimp only at hsettled
    rw [if_pos (hcancelled rfl)] at hsettled
    cases hsettled
  | writing lines ends next => exact .inl ⟨lines, ends, next, rfl⟩
  | ended => exact .inr rfl

/-- Waiting for the ends of enough writes. -/
theorem task_awaitWrites (h : r.Stopped) (hsettled : r.advance? s = none) {n : Nat}
    (hn : r.task.leftover ≤ 2 * n - 1) : (r.awaitWrites s n).task = .ended := by
  induction n generalizing r with
  | zero =>
    rcases h.task_of_settled hsettled with ⟨lines, ends, next, htask⟩ | hended
    · rw [htask] at hn
      cases next <;> simp [Task.leftover] at hn
    · exact hended
  | succ n ih =>
    rcases h.task_of_settled hsettled with ⟨lines, ends, next, htask⟩ | hended
    · let later := r.elapse ends
      have hlater : later.Stopped := ⟨{ h.coherent with }, h.stopped⟩
      have hdone : later.advance? s = some (later.complete lines next) := by
        unfold Run.advance?
        rw [show later.task = _ from htask]
        exact if_pos (Nat.le_max_right r.now ends)
      obtain ⟨hstopped, hless⟩ := hlater.settle hdone
      unfold Run.awaitWrites
      rw [htask]
      refine ih hstopped (advance?_settle s later) ?_
      -- a settled task has none, one or three things left to do
      change _ < r.task.leftover at hless
      rcases hstopped.task_of_settled (advance?_settle s later) with
          ⟨lines', ends', next', htask'⟩ | hended'
      · rw [htask'] at hless ⊢
        rw [htask] at hless hn
        cases next' <;> cases next <;> simp only [Task.leftover] at * <;> omega
      · rw [hended']
        exact Nat.zero_le _
    · rw [awaitWrites_of_ended s _ hended]
      exact hended

end Stopped

/-- When stopping returns, the task has ended. -/
theorem task_stop (s : Shipper) {r : Run τ} (h : r.Coherent) : (r.stop s).task = .ended := by
  let requested := r.requestStop s
  have hrequested : requested.Stopped := ⟨h.requestStop s, lifecycle_requestStop s r⟩
  obtain ⟨hstopped, -⟩ := hrequested.advanceFor (s := s) requested.activity
  have hended : ((requested.settle s).awaitWrites s 2).task = .ended := by
    refine hstopped.task_awaitWrites (advance?_settle s requested) ?_
    exact (requested.settle s).task.leftover_le
  have hawaited : ((requested.settle s).awaitWrites s 2).Coherent :=
    Moves.coherent (Drifts.awaitWrites s 2 _).moves hstopped.coherent
  unfold stop
  dsimp only
  split
  · rw [hawaited.concludeStop_eq s, settle_of_ended s hended, awaitWrites_of_ended s _ hended]
    exact hended
  · exact hended

end Run

/-! ## Closing the transport -/

/-- Once a shipper was stopped, its task has ended, and the transport was closed. -/
theorem Run.exec_of_stop_mem (s : Shipper) {steps : List (Step τ)} (hstop : .stop ∈ steps)
    {r : Run τ} (h : r.Coherent) : (r.exec s steps).task = .ended := by
  induction steps generalizing r with
  | nil => exact absurd hstop List.not_mem_nil
  | cons first rest ih =>
    have hfirst := Moves.coherent (Moves.step s r first) h
    rcases List.mem_cons.1 hstop with rfl | hrest
    · exact (Moves.of_ended (Moves.exec s _ rest) hfirst (r.task_stop s h)).1
    · exact ih hrest hfirst

omit [Transport τ] in
/-- The history of a task that has ended tells of one closing. -/
theorem Run.Coherent.length_closings {r : Run τ} (h : r.Coherent) (hended : r.task = .ended) :
    r.history.closings.length = 1 :=
  Nat.le_antisymm h.orderly.length_closings_le (List.length_pos_iff.2 (h.closed hended))

section Closed

variable {s : Shipper} {transport : τ} {now : Nat} {r r' : Run (Recorded τ)}

/-- The transport was closed as often as the history tells. -/
theorem RecordedMoves.closings_eq (h : RecordedMoves s (Run.new s (.of transport) now) r) :
    r.transport.closings = r.history.closings.length := by
  rw [← History.countP_isClose_uses, ← h.uses_eq]
  rfl

/-- Closing is the last use of the transport. -/
theorem RecordedMoves.eq_nil_of_uses (h : RecordedMoves s (Run.new s (.of transport) now) r)
    {later earlier : List Use} {result : Except TransportError Unit}
    (huses : r.transport.uses = later ++ .close result :: earlier) : later = [] := by
  rw [h.uses_eq] at huses
  exact (h.moves.coherent (Run.coherent_new s _ now)).orderly.eq_nil_of_uses huses

/-- Once the transport was closed, it is not used any more. -/
theorem RecordedMoves.uses_of_closed (h : RecordedMoves s (Run.new s (.of transport) now) r)
    (hclosed : r.transport.closings ≠ 0) (hr' : RecordedMoves s r r') :
    r'.transport.uses = r.transport.uses := by
  obtain ⟨use, huse, hclose⟩ := List.countP_pos_iff.1 (Nat.pos_of_ne_zero hclosed)
  obtain ⟨result, rfl⟩ : ∃ result, use = .close result := by
    cases use with
    | write payload error => cases hclose
    | close result => exact ⟨result, rfl⟩
  obtain ⟨later, earlier, hsplit⟩ := List.append_of_mem huse
  -- what the later moves record would stand after the closing
  obtain ⟨added, -, hadded⟩ := hr'.logs
  have hall : RecordedMoves s (Run.new s (.of transport) now) r' := h.trans hr'
  have hnone : added.uses ++ later = [] :=
    hall.eq_nil_of_uses (by rw [hadded, hsplit, List.append_assoc])
  rw [hadded, (List.append_eq_nil_iff.1 hnone).1, List.nil_append]

end Closed

/-- **The transport is closed exactly once.**  At every moment it was closed at most once, and
closing is the last use that was made of it: no payload was written afterwards, nor will one be, and
no write will begin.  It was closed once when the task has ended, which is what stopping waits for,
and so whenever a stop was among the steps. -/
theorem RecordedMoves.closed_once (s : Shipper) (transport : τ) (now : Nat)
    {r : Run (Recorded τ)} (h : RecordedMoves s (Run.new s (.of transport) now) r) :
    r.Attested ∧
    r.transport.closings ≤ 1 ∧
    (∀ later result earlier, r.transport.uses = later ++ .close result :: earlier → later = []) ∧
    (r.transport.closings ≠ 0 → ∀ r', RecordedMoves s r r' →
      r'.transport.uses = r.transport.uses ∧ r'.history.attempts = r.history.attempts) ∧
    (r.task = .ended → r.transport.closings = 1) ∧
    ∀ steps : List (Step τ), .stop ∈ steps →
      (r.exec s (steps.map Step.recorded)).transport.closings = 1 := by
  have hnew := Run.coherent_new s (Recorded.of transport) now
  have hr := h.moves.coherent hnew
  refine ⟨h.attested, ?_, fun _ _ _ => h.eq_nil_of_uses, ?_, ?_, ?_⟩
  · rw [h.closings_eq]
    exact hr.orderly.length_closings_le
  · intro hclosed r' hr'
    have hended : r.task = .ended := by
      refine Decidable.byContradiction fun hopen => hclosed ?_
      rw [h.closings_eq, History.closings_eq_nil_iff.2 (hr.isOpen hopen), List.length_nil]
    exact ⟨h.uses_of_closed hclosed hr', (hr'.moves.of_ended hr hended).2⟩
  · intro hended
    rw [h.closings_eq, hr.length_closings hended]
  · intro steps hstop
    have hrest := RecordedMoves.exec s r steps
    have hall : RecordedMoves s (Run.new s (.of transport) now)
        (r.exec s (steps.map Step.recorded)) := h.trans hrest
    rw [hall.closings_eq]
    refine (hrest.moves.coherent hr).length_closings ?_
    exact Run.exec_of_stop_mem s (List.mem_map_of_mem hstop) hr

/-- A shipper that is cancelled while its first write fails, and that cannot close its transport
in order, closes it once, however often it is stopped. -/
theorem RecordedMoves.closed_once_of_failures :
    let r := (Run.new Shipper.plain (.of (⟨1, true⟩ : Scripted)) 0).exec Shipper.plain
      ([.cancel, .pace fun _ => 50, .start true, .sleep 20].map Step.recorded)
    (r.exec Shipper.plain ([.stop, .cancel, .stop].map Step.recorded)).transport.closings = 1 := by
  intro r
  have hmoves : RecordedMoves Shipper.plain (Run.new Shipper.plain (.of ⟨1, true⟩) 0) r :=
    RecordedMoves.exec Shipper.plain _ _
  obtain ⟨-, -, -, -, -, hstopped⟩ := RecordedMoves.closed_once Shipper.plain _ 0 hmoves
  exact hstopped _ (by simp)

end LogShipper
