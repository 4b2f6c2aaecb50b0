import LogShipper.SampleQueue
import Mathlib.Algebra.GroupWithZero.Nat
import Mathlib.Data.List.DropRight

/-!
# The queue keeps the newest samples

A queue that counts what waits in it and keeps to its threshold goes on to do so, and a push does
one of two things (`SampleQueue.Valid.push_cases`): the sample joins the others, or as many as the
threshold allows are waiting and the oldest of them is dropped for it.

A `UsedQueue` is a queue with what its drains and its reports of drops have answered.  Whatever it
was used for, the newest of the samples pushed since the latest drain wait in it, as many as the
threshold allows, and each sample that was pushed was drained, dropped or is waiting
(`UsedQueue.newest_kept`).
-/

namespace LogShipper

universe u

variable {α : Type u}

namespace SampleQueue

section Valid

variable {α : Type}

/-- The queue counts what waits in it, and keeps to its threshold. -/
structure Valid (q : SampleQueue α) : Prop where
  waiting_eq : q.waiting = q.items.length
  le_threshold : q.items.length ≤ q.threshold
  threshold_pos : 0 < q.threshold

/-- A sample joins the others, or the oldest of as many as the threshold allows is dropped for it. -/
theorem Valid.push_cases {q : SampleQueue α} (h : q.Valid) (x : α) :
    (q.push x = ({ q with items := q.items ++ [x], waiting := q.waiting + 1 }, none) ∧
      q.items.length < q.threshold) ∨
    ∃ old rest, q.items = old :: rest ∧ q.items.length = q.threshold ∧
      q.push x = ({ q with items := rest ++ [x], dropped := q.dropped + 1 }, some old) := by
  have hle := h.le_threshold
  have hpos := h.threshold_pos
  unfold push
  rw [h.waiting_eq]
  split
  · have hfull : q.items.length = q.threshold := by omega
    cases hitems : q.items with
    | nil =>
      rw [hitems, List.length_nil] at hfull
      omega
    | cons old rest => exact .inr ⟨old, rest, rfl, hitems ▸ hfull, rfl⟩
  · exact .inl ⟨rfl, by omega⟩

theorem Valid.push {q : SampleQueue α} (h : q.Valid) (x : α) : (q.push x).1.Valid := by
  have hwaiting := h.waiting_eq
  rcases h.push_cases x with ⟨heq, hroom⟩ | ⟨old, rest, hitems, hfull, heq⟩
  · rw [heq]
    refine ⟨?_, ?_, h.threshold_pos⟩
    · simp [hwaiting]
    · simpa using Nat.succ_le_of_lt hroom
  · rw [heq]
    rw [hitems, List.length_cons] at hfull hwaiting
    refine ⟨?_, ?_, h.threshold_pos⟩
    · simp [hwaiting]
    · simp [hfull]

end Valid

/-- A push to a queue that counts what waits in it: the sample joins the others, or the threshold
does not allow for it and the oldest of all goes, perhaps the sample itself. -/
theorem push_of_waiting_eq (q : SampleQueue α) (h : q.waiting = q.items.length) (x : α) :
    (q.items.length < q.threshold ∧
      (q.push x).1 = { q with items := q.items ++ [x], waiting := q.waiting + 1 }) ∨
    (q.threshold ≤ q.items.length ∧
      (q.push x).1 = { q with items := (q.items ++ [x]).tail, dropped := q.dropped + 1 }) := by
  unfold push
  dsimp only
  split
  · rename_i hfull
    exact .inr ⟨h ▸ Nat.le_of_lt_succ hfull, rfl⟩
  · rename_i hroom
    exact .inl ⟨h ▸ Nat.not_lt.1 hroom, rfl⟩

end SampleQueue

/-! ## Uses of a queue -/

/-- What is done with a queue. -/
inductive QueueUse (α : Type u) where
  | push (x : α)
  | drain
  | takeDropped

namespace QueueUse

/-- The sample that is pushed. -/
def pushed? : QueueUse α → Option α
  | .push x => some x
  | .drain | .takeDropped => none

/-- Whether the queue is drained. -/
def isDrain : QueueUse α → Bool
  | .drain => true
  | .push _ | .takeDropped => false

/-- The samples that are pushed, oldest first. -/
def pushes (uses : List (QueueUse α)) : List α := uses.filterMap pushed?

/-- The samples that are pushed after the latest drain, oldest first. -/
def sinceDrain (uses : List (QueueUse α)) : List α := pushes (uses.rtakeWhile fun use => !use.isDrain)

theorem pushes_concat (uses : List (QueueUse α)) (use : QueueUse α) :
    pushes (uses ++ [use]) = pushes uses ++ use.pushed?.toList := by
  unfold pushes
  rw [List.filterMap_append]
  cases use <;> rfl

theorem sinceDrain_concat (uses : List (QueueUse α)) (use : QueueUse α) :
    sinceDrain (uses ++ [use]) =
      if use.isDrain then [] else sinceDrain uses ++ use.pushed?.toList := by
  unfold sinceDrain
  rw [List.rtakeWhile_concat]
  cases use with
  | drain => rfl
  | push x | takeDropped => exact pushes_concat _ _

end QueueUse

/-! ## A queue with its answers -/

/-- A queue with what it has answered. -/
structure UsedQueue (α : Type u) where
  queue : SampleQueue α
  /-- The samples that each drain took out, latest drain last. -/
  drains : List (List α)
  /-- The drops that were told each time they were asked for. -/
  reports : List Nat

namespace UsedQueue

open QueueUse

/-- A queue that was not used yet. -/
def new (threshold : Nat) : UsedQueue α := ⟨.new threshold, [], []⟩

/-- The queue after a use. -/
def after (q : UsedQueue α) : QueueUse α → UsedQueue α
  | .push x => { q with queue := (q.queue.push x).1 }
  | .drain => { q with queue := q.queue.drain.1, drains := q.drains ++ [q.queue.drain.2] }
  | .takeDropped =>
    { q with queue := q.queue.takeDropped.1, reports := q.reports ++ [q.queue.takeDropped.2] }

/-- The queue after some uses from the start. -/
def afterAll (threshold : Nat) (uses : List (QueueUse α)) : UsedQueue α :=
  uses.foldl after (new threshold)

theorem afterAll_concat (threshold : Nat) (uses : List (QueueUse α)) (use : QueueUse α) :
    afterAll threshold (uses ++ [use]) = (afterAll threshold uses).after use := List.foldl_append

/-! ### What waits, and what became of the rest -/

/-- The newest samples since the latest drain wait, the queue counts them, and every sample that
was pushed was drained, is known as dropped, or waits. -/
structure Keeps (threshold : Nat) (uses : List (QueueUse α)) (q : UsedQueue α) : Prop where
  threshold_eq : q.queue.threshold = threshold
  items_eq : q.queue.items = (sinceDrain uses).rtake threshold
  waiting_eq : q.queue.waiting = q.queue.items.length
  balance : q.reports.sum + q.queue.dropped + q.drains.flatten.length + q.queue.items.length =
    (pushes uses).length

section Newest

variable {l : List α} {n : Nat}

/-- As long as there is room, one more is kept with the others. -/
theorem rtake_concat_of_lt (h : (l.rtake n).length < n) (x : α) :
    (l ++ [x]).rtake n = l.rtake n ++ [x] := by
  have hroom : l.length < n := by
    rw [List.rtake, List.length_drop] at h
    omega
  rw [List.rtake, List.rtake, List.length_append, List.length_singleton,
    Nat.sub_eq_zero_of_le hroom, Nat.sub_eq_zero_of_le hroom.le, List.drop_zero, List.drop_zero]

/-- Without room the oldest goes for one more. -/
theorem rtake_concat_of_le (h : n ≤ (l.rtake n).length) (x : α) :
    (l ++ [x]).rtake n = (l.rtake n ++ [x]).tail := by
  have hfull : n ≤ l.length := by
    rw [List.rtake, List.length_drop] at h
    omega
  rw [List.rtake, List.rtake, List.length_append, List.length_singleton, Nat.sub_add_comm hfull,
    ← List.drop_drop, List.drop_append_of_le_length (Nat.sub_le _ _), List.drop_one]

end Newest

namespace Keeps

variable {threshold : Nat} {uses : List (QueueUse α)} {q : UsedQueue α}

theorem push (h : Keeps threshold uses q) (x : α) :
    Keeps threshold (uses ++ [.push x]) (q.after (.push x)) := by
  have hbalance := h.balance
  have hsince : sinceDrain (uses ++ [.push x]) = sinceDrain uses ++ [x] := sinceDrain_concat _ _
  have hpushes : (pushes (uses ++ [.push x])).length = (pushes uses).length + 1 := by
    rw [pushes_concat, List.length_append]
    rfl
  rcases q.queue.push_of_waiting_eq h.waiting_eq x with ⟨hroom, heq⟩ | ⟨hfull, heq⟩
  · rw [h.threshold_eq, h.items_eq] at hroom
    show Keeps threshold _ { q with queue := (q.queue.push x).1 }
    rw [heq]
    refine ⟨h.threshold_eq, ?_, ?_, ?_⟩
    · rw [hsince, rtake_concat_of_lt hroom, h.items_eq]
    · rw [List.length_append, h.waiting_eq]
      rfl
    · rw [hpushes, List.length_append, ← hbalance]
      rfl
  · rw [h.threshold_eq, h.items_eq] at hfull
    show Keeps threshold _ { q with queue := (q.queue.push x).1 }
    rw [heq]
    refine ⟨h.threshold_eq, ?_, ?_, ?_⟩
    · rw [hsince, rtake_concat_of_le hfull, h.items_eq]
    · rw [List.length_tail, List.length_append, h.waiting_eq]
      rfl
    · rw [hpushes, List.length_tail, List.length_append, List.length_singleton, ← hbalance]
      dsimp only
      omega

theorem drain (h : Keeps threshold uses q) :
    Keeps threshold (uses ++ [.drain]) (q.after .drain) := by
  have hbalance := h.balance
  have hsince : sinceDrain (uses ++ [.drain]) = [] := sinceDrain_concat _ _
  have hpushes : pushes (uses ++ [.drain]) = pushes uses :=
    (pushes_concat _ _).trans (List.append_nil _)
  refine ⟨h.threshold_eq, ?_, ?_, ?_⟩
  · rw [hsince, List.rtake_nil]
    rfl
  · show q.queue.waiting - q.queue.items.length = 0
    rw [h.waiting_eq, Nat.sub_self]
  · rw [hpushes, ← hbalance]
    show q.reports.sum + q.queue.dropped + (q.drains ++ [q.queue.items]).flatten.length + 0 = _
    rw [List.flatten_append, List.length_append, List.flatten_singleton]
    omega

theorem takeDropped (h : Keeps threshold uses q) :
    Keeps threshold (uses ++ [.takeDropped]) (q.after .takeDropped) := by
  have hbalance := h.balance
  have hsince : sinceDrain (uses ++ [.takeDropped]) = sinceDrain uses :=
    (sinceDrain_concat _ _).trans (List.append_nil _)
  have hpushes : pushes (uses ++ [.takeDropped]) = pushes uses :=
    (pushes_concat _ _).trans (List.append_nil _)
  refine ⟨h.threshold_eq, ?_, h.waiting_eq, ?_⟩
  · rw [hsince]
    exact h.items_eq
  · rw [hpushes, ← hbalance]
    show (q.reports ++ [q.queue.dropped]).sum + 0 + _ + _ = _
    rw [List.sum_append, List.sum_singleton]
    rfl

end Keeps

theorem keeps_afterAll (threshold : Nat) (uses : List (QueueUse α)) :
    Keeps threshold uses (afterAll threshold uses) := by
  induction uses using List.reverseRecOn with
  | nil => exact ⟨rfl, (List.rtake_nil _).symm, rfl, rfl⟩
  | append_singleton uses use ih =>
    rw [afterAll_concat]
    cases use with
    | push x => exact ih.push x
    | drain => exact ih.drain
    | takeDropped => exact ih.takeDropped

/-- **The queue keeps the newest samples.**  Whatever a queue was used for, of the samples pushed
since its latest drain the last ones wait in it, in their order: all of them, or as many as the
threshold allows.  A drain takes out exactly these and leaves nothing, and the queue knows how many
wait.  The samples that were drained, those that wait, and the drops that were told or are still to
be told make up all that were pushed. -/
theorem newest_kept (threshold : Nat) (uses : List (QueueUse α)) :
    let used := afterAll threshold uses
    let recent := sinceDrain uses
    let newest := recent.drop (recent.length - threshold)
    newest.length = min recent.length threshold ∧
    used.queue.items = newest ∧ used.queue.waiting = newest.length ∧
    used.queue.size = newest.length ∧
    (used.after .drain).drains = used.drains ++ [newest] ∧ (used.after .drain).queue.items = [] ∧
    used.reports.sum + used.queue.dropped + used.drains.flatten.length + newest.length =
      (pushes uses).length := by
  intro used recent newest
  have h : Keeps threshold uses used := keeps_afterAll threshold uses
  have hitems : used.queue.items = newest := h.items_eq
  have hlength : newest.length = min recent.length threshold := by
    rw [List.length_drop]
    omega
  exact ⟨hlength, hitems, hitems ▸ h.waiting_eq, congrArg List.length hitems,
    congrArg (used.drains ++ [·]) hitems, rfl, hitems ▸ h.balance⟩

-- A queue that may hold nothing drops each sample at once.
example :
    let used := afterAll 0 [.push 'a', .push 'b', .takeDropped, .push 'c', .drain]
    used.drains = [[]] ∧ used.reports = [2] ∧ used.queue.dropped = 1 := by decide

end UsedQueue

end LogShipper
