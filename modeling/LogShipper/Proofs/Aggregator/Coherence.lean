import LogShipper.Proofs.Aggregator.Moves
import LogShipper.Proofs.Aggregator.Effects

/-!
# Runs whose parts fit together

Two parties can make the last pass: the flush task, once it is told to end, and whoever stops the
shipper.  `Run.Coherent` ties together what they look at (the task, the life of the shipper, the
cancellation and the mark of the last pass) and what they did.  In particular the transport is
closed exactly when the task has ended.

Every move keeps it (`Moves.coherent`).  In the middle of a move the task says nothing about what
is being done; there `Run.Underway` says what remains true until the lines are sent.
-/

namespace LogShipper

open Wire Transport

variable {τ : Type}

/-! ## Histories with a closing -/

namespace History

/-- The transport was not closed. -/
def IsOpen (h : History) : Prop := ∀ e ∈ h, e.occurrence.isClosing = false

/-- After the transport was closed, no write begins or ends, and it is not closed again. -/
def IsOrderly (h : History) : Prop :=
  h.Pairwise fun later earlier => earlier.occurrence.isClosing = true →
    later.occurrence.isWriting = false ∧ later.occurrence.isClosing = false

theorem isOpen_nil : IsOpen [] := List.forall_mem_nil _

theorem IsOpen.cons {h : History} (hopen : h.IsOpen) {e : Entry}
    (he : e.occurrence.isClosing = false) : IsOpen (e :: h) :=
  List.forall_mem_cons.2 ⟨he, hopen⟩

theorem IsOpen.append {later earlier : History} (hl : later.IsOpen) (he : earlier.IsOpen) :
    IsOpen (later ++ earlier) :=
  List.forall_mem_append.2 ⟨hl, he⟩

theorem isOpen_noticed (instant : Nat) (notices : List Notice) :
    IsOpen (Run.noticed instant notices) := by
  refine Run.forall_mem_noticed.2 ?_
  intro n _
  rfl

/-- Where nothing is closed, there is no order to keep. -/
theorem IsOpen.isOrderly {h : History} (hopen : h.IsOpen) : h.IsOrderly := by
  refine List.pairwise_of_forall_mem_list fun later _ earlier hearlier hclosing => ?_
  rw [hopen earlier hearlier] at hclosing
  cases hclosing

/-- Closing the transport for the first time. -/
theorem IsOpen.cons_isOrderly {h : History} (hopen : h.IsOpen) (e : Entry) : IsOrderly (e :: h) := by
  refine List.pairwise_cons.2 ⟨fun earlier hearlier hclosing => ?_, hopen.isOrderly⟩
  rw [hopen earlier hearlier] at hclosing
  cases hclosing

theorem IsOrderly.cons {h : History} (ho : h.IsOrderly) {e : Entry}
    (hw : e.occurrence.isWriting = false) (hc : e.occurrence.isClosing = false) :
    IsOrderly (e :: h) :=
  List.pairwise_cons.2 ⟨fun _ _ _ => ⟨hw, hc⟩, ho⟩

theorem closings_eq_nil_iff {h : History} : h.closings = [] ↔ h.IsOpen := by
  simp [closings, select, IsOpen, List.filterMap_eq_nil_iff, Occurrence.isClosing]

/-- In an orderly history the transport is closed at most once. -/
theorem IsOrderly.length_closings_le {h : History} (ho : h.IsOrderly) : h.closings.length ≤ 1 := by
  induction h with
  | nil => exact Nat.zero_le _
  | cons e h ih =>
    obtain ⟨hfirst, hrest⟩ := List.pairwise_cons.1 ho
    cases hc : e.occurrence.closing? with
    | none => simpa [closings, hc] using ih hrest
    | some result =>
      have hclosing : e.occurrence.isClosing = true := by simp [Occurrence.isClosing, hc]
      have hopen : IsOpen h := by
        intro x hx
        cases hx' : x.occurrence.isClosing with
        | false => rfl
        | true => exact absurd (hfirst x hx hx').2 (by simp [hclosing])
      have hnil := closings_eq_nil_iff.2 hopen
      simp only [closings] at hnil ⊢
      simp [hc, hnil]

end History

/-! ## Runs whose parts fit together -/

/-- Whether closing the transport is what follows a write. -/
def Next.isClose : Next → Bool
  | .resume _ => false
  | .close => true

/-- Whether the task makes its last write, or has ended. -/
def Task.isFinal : Task → Bool
  | .writing _ _ next => next.isClose
  | .ended => true
  | _ => false

namespace Run

/-- The task, the life of the shipper and the history fit together. -/
structure Coherent (r : Run τ) : Prop where
  absent_iff : r.task = .absent ↔ r.lifecycle = .idle
  finalFlushed_eq : r.finalFlushed = r.task.isFinal
  stopping : r.lifecycle = .stopped → r.cancelled = true ∨ r.finalFlushed = true
  orderly : r.history.IsOrderly
  isOpen : r.task ≠ .ended → r.history.IsOpen
  closed : r.task = .ended → r.history.closings ≠ []
  finished : r.finalFlushed = true → r.history.IsFinished

/-- A run that is in the middle of a move, before what follows next. -/
structure Underway (next : Next) (r : Run τ) : Prop where
  begun : r.lifecycle ≠ .idle
  finalFlushed_eq : r.finalFlushed = next.isClose
  stopping : r.lifecycle = .stopped → r.cancelled = true ∨ r.finalFlushed = true
  isOpen : r.history.IsOpen

/-- A new run. -/
theorem coherent_new (s : Shipper) (transport : τ) (now : Nat) :
    (Run.new s transport now).Coherent where
  absent_iff := ⟨fun _ => rfl, fun _ => rfl⟩
  finalFlushed_eq := rfl
  stopping := nofun
  orderly := .nil
  isOpen := fun _ => History.isOpen_nil
  closed := nofun
  finished := nofun

/-- A run whose task is neither absent nor ended is underway to what the task makes of it. -/
theorem Coherent.underway {r : Run τ} (h : r.Coherent) {next : Next} (habsent : r.task ≠ .absent)
    (hended : r.task ≠ .ended) (hnext : r.task.isFinal = next.isClose) : r.Underway next where
  begun := fun hidle => habsent (h.absent_iff.2 hidle)
  finalFlushed_eq := h.finalFlushed_eq.trans hnext
  stopping := h.stopping
  isOpen := h.isOpen hended

namespace Underway

variable {next : Next} {r : Run τ}

/-- More history is in the way of nothing, as long as nothing is closed. -/
theorem note (h : r.Underway next) {o : Occurrence} (ho : o.isClosing = false) :
    (r.note o).Underway next :=
  { h with isOpen := h.isOpen.cons ho }

theorem noteAll (h : r.Underway next) (notices : List Notice) :
    (r.noteAll notices).Underway next := by
  rw [noteAll_eq_noticed]
  exact { h with isOpen := (History.isOpen_noticed _ _).append h.isOpen }

/-- The last pass begins. -/
theorem finalFlush (h : r.Underway next) : ({ r with finalFlushed := true } : Run τ).Underway .close :=
  { h with
    finalFlushed_eq := rfl
    stopping := fun _ => .inr rfl }

theorem collect (h : r.Underway next) (s : Shipper) : (r.collect s).1.Underway next := by
  rw [collect_eq]
  exact { h with isOpen := (History.isOpen_noticed _ _).append (h.isOpen.cons rfl) }

theorem gathered (h : r.Underway next) (s : Shipper) (forced : Bool) :
    (r.gathered s forced).1.Underway next := by
  obtain ⟨_, _, notices, collected, flushes, heq, hflushes⟩ := r.gathered_eq s forced
  have hopen : History.IsOpen flushes := by
    rcases hflushes with ⟨rfl, -⟩ | ⟨earlier, batch, rfl⟩
    · exact History.isOpen_nil
    · exact (History.isOpen_noticed _ _).append (.cons History.isOpen_nil rfl)
  rw [heq]
  exact { h with
    isOpen := (History.isOpen_noticed _ _).append
      ((hopen.append (h.isOpen.cons rfl)).cons rfl) }

/-- The task looks again, or waits. -/
theorem look (h : r.Underway next) (hnext : next.isClose = false) (waits : Bool) (due : Nat) :
    ({ r with task := .looking waits due } : Run τ).Coherent :=
  have hfinal : r.finalFlushed = false := h.finalFlushed_eq.trans hnext
  { absent_iff := ⟨nofun, fun hidle => absurd hidle h.begun⟩
    finalFlushed_eq := hfinal
    stopping := h.stopping
    orderly := h.isOpen.isOrderly
    isOpen := fun _ => h.isOpen
    closed := nofun
    finished := fun hfinished => by
      rw [hfinal] at hfinished
      cases hfinished }

variable [Transport τ]

/-- What follows a write. -/
theorem proceed (h : r.Underway next) (hf : r.finalFlushed = true → r.history.IsFinished) :
    (r.proceed next).Coherent := by
  cases next with
  | resume due => exact h.look rfl false due
  | close =>
    let closing : Run τ := { r with transport := (Transport.close r.transport).1, task := .ended }
    let closed := closing.note (.closed (Transport.close r.transport).2)
    have hclosed : closed.Coherent :=
      { absent_iff := ⟨nofun, fun hidle => absurd hidle h.begun⟩
        finalFlushed_eq := h.finalFlushed_eq
        stopping := h.stopping
        orderly := h.isOpen.cons_isOrderly _
        isOpen := fun hended => absurd rfl hended
        closed := fun _ hnil => by simp [closed, Run.note, History.closings, Occurrence.closing?] at hnil
        finished := fun hfinal => (hf hfinal).cons rfl }
    unfold Run.proceed
    dsimp only
    split
    · exact hclosed
    · exact { hclosed with
        orderly := hclosed.orderly.cons rfl rfl
        isOpen := fun hended => absurd rfl hended
        closed := fun _ => by simp [Run.note, History.closings, Occurrence.closing?]
        finished := fun hfinal => (hclosed.finished hfinal).cons rfl }

/-- Sending lines, also when there are none. -/
theorem send (h : r.Underway next) (hf : r.finalFlushed = true → r.history.IsFinished)
    (lines : List Rendered) : (r.send lines next).Coherent := by
  unfold Run.send
  split
  · exact h.proceed hf
  · exact {
      absent_iff := ⟨nofun, fun hidle => absurd hidle h.begun⟩
      finalFlushed_eq := h.finalFlushed_eq
      stopping := h.stopping
      orderly := (h.isOpen.cons rfl).isOrderly
      isOpen := fun _ => h.isOpen.cons rfl
      closed := nofun
      finished := fun hfinal => (hf hfinal).cons rfl }

/-- A pass; the last one is forced. -/
theorem pass (h : r.Underway next) (s : Shipper) : (r.pass s next.isClose next).Coherent := by
  have hgathered := h.gathered s next.isClose
  rw [pass_eq]
  refine hgathered.send (fun hfinal => ?_) _
  rw [hgathered.finalFlushed_eq] at hfinal
  rw [hfinal]
  exact r.isFinished_gathered s

/-- The last pass, unless it was made. -/
theorem finish (h : r.Underway next) (hnext : next.isClose = false) (s : Shipper) :
    (r.finish s).Coherent := by
  unfold Run.finish
  rw [if_neg (by rw [h.finalFlushed_eq, hnext]; nofun)]
  exact h.finalFlush.pass s

/-- The end of a write. -/
theorem complete (h : r.Underway next) (hf : r.finalFlushed = true → r.history.IsFinished)
    (lines : List Rendered) : (r.complete lines next).Coherent := by
  let written := Transport.write r.transport (payloadOf lines)
  let changed : Run τ := { r with transport := written.transport }
  let noticed := changed.noteAll (written.notices.map .transport)
  have hnoticed : noticed.Underway next :=
    ({ h with } : changed.Underway next).noteAll (written.notices.map .transport)
  have hfinished : noticed.finalFlushed = true → noticed.history.IsFinished := by
    show (changed.noteAll _).finalFlushed = true → (changed.noteAll _).history.IsFinished
    rw [noteAll_eq_noticed]
    exact fun hfinal => (hf hfinal).append (History.isPassive_noticed _ _)
  unfold Run.complete
  dsimp only
  split
  · exact (hnoticed.note rfl).proceed fun hfinal => (hfinished hfinal).cons rfl
  · exact ((hnoticed.note rfl).note rfl).proceed fun hfinal =>
      ((hfinished hfinal).cons rfl).cons rfl

end Underway

/-! ## Every move keeps the parts together -/

namespace Coherent

variable {r : Run τ}

/-- An event is registered. -/
theorem register (h : r.Coherent) (s : Shipper) (reading : Reading) :
    (r.register s reading).1.Coherent := by
  obtain ⟨_, heq⟩ := r.register_eq s reading
  rw [heq]
  exact { h with
    orderly := h.orderly.cons rfl rfl
    isOpen := fun hended => (h.isOpen hended).cons rfl
    closed := fun hended => by
      simpa [History.closings, Occurrence.closing?] using h.closed hended
    finished := fun hfinal => (h.finished hfinal).cons rfl }

theorem start (h : r.Coherent) (inRuntime : Bool) : (r.start inRuntime).1.Coherent := by
  rcases r.start_cases inRuntime with heq | ⟨hidle, heq⟩
  · rw [heq]
    exact h
  · have habsent := h.absent_iff.2 hidle
    rw [heq]
    exact {
      absent_iff := ⟨nofun, nofun⟩
      finalFlushed_eq := by
        show r.finalFlushed = _
        rw [h.finalFlushed_eq, habsent]
        rfl
      stopping := nofun
      orderly := h.orderly.cons rfl rfl
      isOpen := fun _ => (h.isOpen (by rw [habsent]; nofun)).cons rfl
      closed := nofun
      finished := fun hfinal => (h.finished hfinal).cons rfl }

theorem cancel (h : r.Coherent) : r.cancel.Coherent :=
  { h with stopping := fun _ => .inl rfl }

variable [Transport τ]

/-- A shipper that was never started makes its last pass, and a running one is told to end. -/
theorem requestStop (h : r.Coherent) (s : Shipper) : (r.requestStop s).Coherent := by
  rcases r.requestStop_cases s with ⟨hidle, heq⟩ | ⟨hrunning, heq⟩ | ⟨-, heq⟩
  · have habsent := h.absent_iff.2 hidle
    have hfinal : r.finalFlushed = false := by rw [h.finalFlushed_eq, habsent]; rfl
    have hunderway : Underway .close
        ({ r with lifecycle := .stopped, finalFlushed := true } : Run τ) :=
      { begun := nofun
        finalFlushed_eq := rfl
        stopping := fun _ => .inr rfl
        isOpen := h.isOpen (by rw [habsent]; nofun) }
    rw [heq]
    unfold Run.finish
    rw [if_neg (by rw [hfinal]; nofun)]
    exact hunderway.pass s
  · rw [heq]
    exact { h with
      absent_iff := ⟨fun habsent => absurd (h.absent_iff.1 habsent) (by rw [hrunning]; nofun), nofun⟩
      stopping := fun _ => .inl rfl }
  · rw [heq]
    exact h

/-- The last pass of a task that has ended was made. -/
theorem concludeStop_eq (h : r.Coherent) (s : Shipper) : r.concludeStop s = r := by
  unfold Run.concludeStop Run.finish
  split
  · rename_i hended
    have hfinal : r.finalFlushed = true := by rw [h.finalFlushed_eq, hended]; rfl
    rw [if_pos hfinal, ← hended]
  · rfl

/-- Whatever the flush task does keeps the parts of a run together. -/
theorem advance (h : r.Coherent) {s : Shipper} {next : Run τ} (ha : r.Advance s next) :
    next.Coherent := by
  have hlooking : ∀ {waits due}, r.task = .looking waits due → ∀ due', r.Underway (.resume due') := by
    intro waits due htask due'
    exact h.underway (by rw [htask]; nofun) (by rw [htask]; nofun) (by rw [htask]; rfl)
  cases ha with
  | begin htask =>
    have hunderway : r.Underway (.resume r.now) :=
      h.underway (by rw [htask]; nofun) (by rw [htask]; nofun) (by rw [htask]; rfl)
    exact hunderway.look rfl false _
  | @finish _ due htask hcancelled => exact ((hlooking htask due).note rfl).finish rfl s
  | @wake _ due woken htask hcancelled hwakeups hwoken =>
    subst hwoken
    have hwoken : ({ r with wakeups := r.wakeups - 1 } : Run τ).Underway (.resume due) :=
      { hlooking htask due with }
    have hcollected := hwoken.collect s
    refine hcollected.send (fun hfinished => ?_) _
    rw [hcollected.finalFlushed_eq] at hfinished
    cases hfinished
  | tick htask hcancelled hwakeups hdue => exact (hlooking htask _).pass s
  | @wait due htask hcancelled hwakeups hdue => exact (hlooking htask due).look rfl true due
  | @complete lines ends following htask hends =>
    have hunderway : r.Underway following :=
      h.underway (by rw [htask]; nofun) (by rw [htask]; nofun) (by rw [htask]; rfl)
    exact hunderway.complete h.finished lines

end Coherent

end Run

/-- Every move keeps the parts of a run together. -/
theorem Move.coherent [Transport τ] {s : Shipper} {r r' : Run τ} (hm : Move s r r')
    (h : r.Coherent) : r'.Coherent := by
  cases hm with
  | register reading => exact h.register s reading
  | start inRuntime => exact h.start inRuntime
  | cancel => exact h.cancel
  | requestStop => exact h.requestStop s
  | concludeStop => exact (h.concludeStop_eq s).symm ▸ h
  | advance hnext => exact h.advance (Run.advance_of_advance? hnext)
  | elapse instant => exact { h with }
  | pace durations => exact { h with }
  | disturb change => exact { h with }

theorem Moves.coherent [Transport τ] {s : Shipper} {r r' : Run τ} (hm : Moves s r r')
    (h : r.Coherent) : r'.Coherent := by
  induction hm with
  | refl => exact h
  | tail _ hlast ih => exact hlast.coherent ih

end LogShipper
