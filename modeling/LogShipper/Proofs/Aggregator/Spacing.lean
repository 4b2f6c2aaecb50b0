import LogShipper.Proofs.Aggregator.Intake
import LogShipper.Proofs.Aggregator.Moments
import LogShipper.Transport.Scripted

/-!
# When series are flushed

Series are flushed when more than the interval has passed since the latest flush, or when a burst
of events was registered and more than the least interval has passed.  Whether that is so can be
read off a history (`Shipper.IsDueAfter`).  The flush side looks at its own instant of the latest
flush, and the intake counts the events since then; `Spaced` says that both agree with the history,
which every piece of work and every registration keep, also while a write takes its time.

So each flush that is not forced was due (`Moves.flushes_spaced`), and each pass that begins when a
flush is due begins with one.
-/

namespace LogShipper

open Wire Transport

/-! ## Since the latest flush -/

namespace History

/-- What has happened since the latest flush. -/
def sinceFlush (h : History) : History := h.takeWhile fun e => !e.occurrence.isFlush

/-- The instant of the latest flush; until the first one, the instant at which all began. -/
def flushedAt (built : Nat) (h : History) : Nat :=
  (h.find? fun e => e.occurrence.isFlush).elim built Entry.instant

theorem sinceFlush_cons (e : Entry) (h : History) :
    sinceFlush (e :: h) = if e.occurrence.isFlush then [] else e :: sinceFlush h := by
  unfold sinceFlush
  cases he : e.occurrence.isFlush <;> simp [he]

theorem flushedAt_cons (built : Nat) (e : Entry) (h : History) :
    flushedAt built (e :: h) = if e.occurrence.isFlush then e.instant else flushedAt built h := by
  unfold flushedAt
  cases he : e.occurrence.isFlush <;> simp [he]

section Flushless

variable {later : History} (hl : ∀ e ∈ later, e.occurrence.isFlush = false) (earlier : History)

include hl

/-- Entries that tell no flush come on top. -/
theorem sinceFlush_append : sinceFlush (later ++ earlier) = later ++ sinceFlush earlier := by
  unfold sinceFlush
  exact List.takeWhile_append_of_pos fun e he => by simp [hl e he]

theorem flushedAt_append (built : Nat) :
    flushedAt built (later ++ earlier) = flushedAt built earlier := by
  induction later with
  | nil => rfl
  | cons e later ih =>
    obtain ⟨he, hrest⟩ := List.forall_mem_cons.1 hl
    rw [List.cons_append, flushedAt_cons, he]
    exact ih hrest

end Flushless

/-- Notices tell no flush. -/
theorem isFlush_of_mem_noticed (instant : Nat) (notices : List Notice) :
    ∀ e ∈ Run.noticed instant notices, e.occurrence.isFlush = false :=
  Run.forall_mem_noticed.2 fun _ _ => rfl

/-- An entry that is not among those since the latest flush had happened when the series were
flushed. -/
theorem suffix_beforeFlush {h later earlier : History} {e : Entry} (hsplit : h = later ++ e :: earlier)
    (he : e.occurrence.isFlush = false) (hsince : e ∉ h.sinceFlush) :
    e :: earlier <:+ h.beforeFlush := by
  subst hsplit
  induction later with
  | nil =>
    rw [List.nil_append, sinceFlush_cons, he] at hsince
    exact absurd List.mem_cons_self hsince
  | cons x later ih =>
    rw [List.cons_append, sinceFlush_cons] at hsince
    rw [List.cons_append, beforeFlush_cons]
    split
    · exact List.suffix_append later _
    · rename_i hx
      rw [if_neg hx] at hsince
      exact ih fun hmem => hsince (List.mem_cons_of_mem x hmem)

end History

/-! ## When a flush is due -/

/-- Whether a flush is due at an instant after some history: more than the interval has passed
since the latest flush, or there are bursts, more than the least interval has passed, and more
events than make a burst were registered since then. -/
def Shipper.IsDueAfter (s : Shipper) (built : Nat) (h : History) (now : Nat) : Prop :=
  h.flushedAt built + s.settings.interval < now ∨
    0 < s.settings.burstThreshold ∧ h.flushedAt built + s.settings.minInterval < now ∧
      s.settings.burstThreshold < h.sinceFlush.events.length

variable {τ : Type} {s : Shipper} {built : Nat}

/-- What the flush side and the intake know of the latest flush agrees with the history. -/
structure Spaced (s : Shipper) (built : Nat) (r : Run τ) : Prop where
  lastFlush_eq : r.reporting.lastFlush = r.history.flushedAt built
  events_eq : r.intake.eventsSinceFlush = r.history.sinceFlush.events.length
  lastFlush_le : r.reporting.lastFlush ≤ r.now
  recent : ∀ e ∈ r.history.sinceFlush, r.reporting.lastFlush ≤ e.instant
  due : ∀ later t batch earlier, r.history = later ++ ⟨t, .flushed false batch⟩ :: earlier →
    s.IsDueAfter built earlier t

theorem spaced_new (transport : τ) (now : Nat) : Spaced s now (Run.new s transport now) where
  lastFlush_eq := rfl
  events_eq := rfl
  lastFlush_le := Nat.le_refl now
  recent := List.forall_mem_nil _
  due := by
    intro later t batch earlier hsplit
    cases later <;> cases hsplit

namespace Spaced

variable {r : Run τ}

/-- The flush side looks at what the history says. -/
theorem isDue_iff (h : Spaced s built r) :
    r.reporting.isDue s r.now r.intake.eventsSinceFlush = true ↔
      s.IsDueAfter built r.history r.now := by
  have hlast := h.lastFlush_eq
  have hle := h.lastFlush_le
  unfold Reporting.isDue Reporting.timeDue Reporting.burstDue Shipper.IsDueAfter
  rw [Bool.or_eq_true, Bool.and_eq_true, Bool.and_eq_true, decide_eq_true_eq, decide_eq_true_eq,
    decide_eq_true_eq, decide_eq_true_eq, and_assoc, h.events_eq, ← hlast]
  constructor
  · rintro (htime | ⟨hburst, htime, hevents⟩)
    · exact .inl (by omega)
    · exact .inr ⟨hburst, by omega, hevents⟩
  · rintro (htime | ⟨hburst, htime, hevents⟩)
    · exact .inl (by omega)
    · exact .inr ⟨hburst, by omega, hevents⟩

/-- What happens besides flushes, at the present instant, leaves a run spaced as long as the events
are counted. -/
theorem grow {r' : Run τ} (h : Spaced s built r) (added : History)
    (hreporting : r'.reporting.lastFlush = r.reporting.lastFlush) (hnow : r.now ≤ r'.now)
    (hhistory : r'.history = added ++ r.history)
    (hadded : ∀ e ∈ added, e.occurrence.isFlush = false ∧ e.instant = r.now)
    (hevents : r'.intake.eventsSinceFlush = r.intake.eventsSinceFlush + added.events.length) :
    Spaced s built r' := by
  have hflushless : ∀ e ∈ added, e.occurrence.isFlush = false := fun e he => (hadded e he).1
  have hsince := History.sinceFlush_append hflushless r.history
  refine ⟨?_, ?_, ?_, ?_, ?_⟩
  · rw [hreporting, hhistory, History.flushedAt_append hflushless]
    exact h.lastFlush_eq
  · rw [hevents, hhistory, hsince, History.events_append, List.length_append, h.events_eq]
  · rw [hreporting]
    exact Nat.le_trans h.lastFlush_le hnow
  · rw [hreporting, hhistory, hsince]
    refine List.forall_mem_append.2 ⟨fun e he => ?_, h.recent⟩
    rw [(hadded e he).2]
    exact h.lastFlush_le
  · intro later t batch earlier hsplit
    rw [hhistory] at hsplit
    obtain ⟨between, -, hbefore⟩ :=
      History.split_of_forall_not (p := fun e => e.occurrence.isFlush = true) hsplit
        (fun e he => by rw [hflushless e he]; nofun) rfl
    exact h.due between t batch earlier hbefore

/-- One thing that is noted and that is neither a flush nor a registration. -/
theorem note (h : Spaced s built r) {o : Occurrence} (hflush : o.isFlush = false)
    (hevent : o.event? = none) : Spaced s built (r.note o) := by
  refine h.grow [⟨r.now, o⟩] rfl (Nat.le_refl _) rfl ?_ ?_
  · exact List.forall_mem_singleton.2 ⟨hflush, rfl⟩
  · rw [History.events, History.select_cons, hevent]
    rfl

/-- An event is counted where it is registered. -/
theorem register (h : Spaced s built r) (reading : Reading) :
    Spaced s built (r.register s reading).1 := by
  have hnow : (r.register s reading).1.now = r.now := by
    obtain ⟨_, heq⟩ := r.register_eq s reading
    rw [heq]
  have hcounted : (r.intake.register s r.now reading).1.eventsSinceFlush =
      r.intake.eventsSinceFlush + 1 := by
    rcases r.intake.register_cases s r.now reading with
        ⟨_, _, heq, -⟩ | ⟨_, heq, -⟩ | ⟨_, _, heq, -⟩ <;>
    · rw [heq]
      rfl
  let entry : Entry := ⟨r.now, .registered reading (r.intake.register s r.now reading).2⟩
  refine h.grow [entry] ?_ (Nat.le_of_eq hnow.symm) ?_ ?_ ?_
  · rw [Run.reporting_register]
  · exact r.history_register s reading
  · exact List.forall_mem_singleton.2 ⟨rfl, rfl⟩
  · rw [Run.intake_register, hcounted]
    rfl

/-- A flush that is forced or due. -/
theorem flush (h : Spaced s built r) {forced : Bool}
    (hdue : forced || r.reporting.isDue s r.now r.intake.eventsSinceFlush) :
    Spaced s built (r.flush s forced).1 := by
  let batch := (r.reporting.flush r.now r.intake.counter).2
  have hsince : (r.flush s forced).1.history.sinceFlush =
      Run.noticed r.now (r.flushNotices s).reverse := by
    rw [Run.flush_eq, History.sinceFlush_append (History.isFlush_of_mem_noticed _ _),
      History.sinceFlush_cons]
    exact List.append_nil _
  refine ⟨?_, ?_, ?_, ?_, ?_⟩
  · rw [Run.flush_eq, History.flushedAt_append (History.isFlush_of_mem_noticed _ _),
      History.flushedAt_cons]
    rfl
  · rw [hsince, Run.flush_eq, History.events, History.select_eq_nil]
    · rfl
    · exact Run.forall_mem_noticed.2 fun _ _ => rfl
  · rw [Run.flush_eq]
    exact Nat.le_refl r.now
  · rw [hsince, Run.flush_eq]
    exact Run.forall_mem_noticed.2 fun _ _ => Nat.le_refl r.now
  · intro later t batch' earlier hsplit
    rw [Run.flush_eq] at hsplit
    obtain ⟨between, -, hbefore⟩ :=
      History.split_of_forall_not (p := fun e => e.occurrence.isFlush = true) hsplit
        (fun e he => by rw [History.isFlush_of_mem_noticed _ _ e he]; nofun) rfl
    cases between with
    | nil =>
      obtain ⟨hentry, rfl⟩ := List.cons.inj hbefore
      obtain ⟨rfl, hflushed⟩ := Entry.mk.inj hentry
      obtain ⟨rfl, -⟩ := Occurrence.flushed.inj hflushed
      exact h.isDue_iff.1 hdue
    | cons e between => exact h.due between t batch' earlier (List.cons.inj hbefore).2

/-- A collection flushes nothing. -/
theorem collect (h : Spaced s built r) : Spaced s built (r.collect s).1 := by
  let notices := Run.noticed r.now (r.collectNotices s).reverse
  have hevents : History.events (notices ++ [⟨r.now, .collected r.intake.collect.2⟩]) = [] := by
    apply History.select_eq_nil
    refine List.forall_mem_append.2 ⟨Run.forall_mem_noticed.2 fun _ _ => rfl, ?_⟩
    exact List.forall_mem_singleton.2 rfl
  refine h.grow (notices ++ [⟨r.now, .collected r.intake.collect.2⟩]) ?_ ?_ ?_ ?_ ?_
  · rw [Run.collect_eq]
  · exact Nat.le_of_eq (r.now_collect s).symm
  · rw [Run.collect_eq, List.append_assoc]
    rfl
  · refine List.forall_mem_append.2 ⟨Run.forall_mem_noticed.2 fun _ _ => ⟨rfl, rfl⟩, ?_⟩
    exact List.forall_mem_singleton.2 ⟨rfl, rfl⟩
  · rw [hevents, Run.collect_eq]
    rfl

end Spaced

/-- What is announced does not move the latest flush. -/
theorem Reporting.lastFlush_announce (r : Reporting) (now : Nat) :
    (r.announce now).1.lastFlush = r.lastFlush := by
  unfold announce
  split <;> rfl

/-- Every piece of work leaves a run spaced. -/
theorem Work.spaced {p p' : Run τ × List Rendered} (hw : Work s p p') (h : Spaced s built p.1) :
    Spaced s built p'.1 := by
  cases hw with
  | announce r lines =>
    exact { h with
      lastFlush_eq := (r.reporting.lastFlush_announce r.now).trans h.lastFlush_eq
      lastFlush_le := (r.reporting.lastFlush_announce r.now).symm ▸ h.lastFlush_le
      recent := (r.reporting.lastFlush_announce r.now).symm ▸ h.recent }
  | flush r lines forced hdue => exact h.flush hdue
  | collect r lines => exact h.collect
  | attempt r lines => exact h.note rfl rfl
  | note r lines o ho =>
    exact h.note (Occurrence.isFlush_of_isQuiet ho) (Occurrence.event?_of_isQuiet ho)
  | control lines intake reporting history now =>
    refine h.grow [] (by rw [reporting]) now history (List.forall_mem_nil _) ?_
    rw [intake]
    rfl

theorem Moves.spaced [Transport τ] {r₀ r : Run τ} (h : Moves s r₀ r) (hr : Spaced s built r₀) :
    Spaced s built r :=
  Moves.keeps (P := fun p => Spaced s built p.1) (fun hw => hw.spaced)
    (fun reading hr => hr.register reading) h hr

/-! ## Passes -/

/-- Whether the beginning of a pass is told. -/
def Occurrence.isPass : Occurrence → Bool
  | .passed _ => true
  | _ => false

theorem Occurrence.isPass_of_not_isPassing {o : Occurrence} (h : o.isPassing = false) :
    o.isPass = false := by
  cases o <;> first | rfl | cases h

namespace History

/-- Every pass that began when a flush was due began with a flush. -/
def FlushesInTime (s : Shipper) (built : Nat) (h : History) : Prop :=
  ∀ later t forced earlier, h = later ++ ⟨t, .passed forced⟩ :: earlier →
    s.IsDueAfter built earlier t → ∃ since batch, later = since ++ [⟨t, .flushed forced batch⟩]

theorem FlushesInTime.append {h added : History} (hh : FlushesInTime s built h)
    (hadded : ∀ e ∈ added, e.occurrence.isPass = false) : FlushesInTime s built (added ++ h) := by
  intro later t forced earlier hsplit hdue
  obtain ⟨between, rfl, hbetween⟩ :=
    split_of_forall_not (p := fun e => e.occurrence.isPass = true) hsplit
      (fun e he => by rw [hadded e he]; nofun) rfl
  obtain ⟨since, batch, rfl⟩ := hh between t forced earlier hbetween hdue
  exact ⟨added ++ since, batch, (List.append_assoc _ _ _).symm⟩

theorem FlushesInTime.append_passive {h added : History} (hh : FlushesInTime s built h)
    (hadded : added.IsPassive) : FlushesInTime s built (added ++ h) :=
  hh.append fun e he => Occurrence.isPass_of_not_isPassing (hadded e he)

theorem FlushesInTime.cons {h : History} (hh : FlushesInTime s built h) {e : Entry}
    (he : e.occurrence.isPass = false) : FlushesInTime s built (e :: h) := by
  have hadded : ∀ x ∈ [e], x.occurrence.isPass = false := List.forall_mem_singleton.2 he
  exact hh.append hadded

theorem isPass_of_mem_noticed (instant : Nat) (notices : List Notice) :
    ∀ e ∈ Run.noticed instant notices, e.occurrence.isPass = false :=
  Run.forall_mem_noticed.2 fun _ _ => rfl

end History

/-- Announcing does not make a flush due. -/
theorem Reporting.isDue_announce (r : Reporting) (now events : Nat) :
    (r.announce now).1.isDue s now events = r.isDue s now events := by
  unfold isDue timeDue burstDue
  rw [r.lastFlush_announce]

namespace Run

variable (s) (r : Run τ) (forced : Bool)

/-- A collection tells of no pass. -/
theorem history_collect : ∃ added, (r.collect s).1.history = added ++ r.history ∧
    ∀ e ∈ added, e.occurrence.isPass = false := by
  refine ⟨noticed r.now (r.collectNotices s).reverse ++ [⟨r.now, .collected r.intake.collect.2⟩],
    ?_, ?_⟩
  · rw [collect_eq, List.append_assoc]
    rfl
  · exact List.forall_mem_append.2
      ⟨History.isPass_of_mem_noticed _ _, List.forall_mem_singleton.2 rfl⟩

/-- What gathering adds to a history: the pass, then a flush if it is forced or due, and no other
pass. -/
theorem history_gathered : ∃ between,
    (r.gathered s forced).1.history = between ++ ⟨r.now, .passed forced⟩ :: r.history ∧
    (∀ e ∈ between, e.occurrence.isPass = false) ∧
    ((forced || r.reporting.isDue s r.now r.intake.eventsSinceFlush) = true →
      ∃ since batch, between = since ++ [⟨r.now, .flushed forced batch⟩]) := by
  let announced := ((r.note (.passed forced)).announce s).1
  have hdue : announced.reporting.isDue s announced.now announced.intake.eventsSinceFlush =
      r.reporting.isDue s r.now r.intake.eventsSinceFlush := r.reporting.isDue_announce _ _
  obtain ⟨added, hadded, hpassless⟩ := (announced.flushIfDue s forced).1.history_collect s
  show ∃ between, ((announced.flushIfDue s forced).1.collect s).1.history = _ ∧ _
  rw [hadded]
  unfold flushIfDue
  rw [hdue]
  split
  · let notices := noticed r.now (announced.flushNotices s).reverse
    let batch := (announced.reporting.flush r.now r.intake.counter).2
    refine ⟨added ++ (notices ++ [⟨r.now, .flushed forced batch⟩]), ?_, ?_,
      fun _ => ⟨added ++ notices, batch, ?_⟩⟩
    · rw [flush_eq, List.append_assoc, List.append_assoc]
      rfl
    · refine List.forall_mem_append.2 ⟨hpassless, ?_⟩
      exact List.forall_mem_append.2
        ⟨History.isPass_of_mem_noticed _ _, List.forall_mem_singleton.2 rfl⟩
    · exact (List.append_assoc _ _ _).symm
  · rename_i hnot
    exact ⟨added, rfl, hpassless, fun h => absurd h hnot⟩

end Run

namespace Spaced

variable [Transport τ] {r : Run τ}

/-- A pass flushes if a flush is due. -/
theorem flushesInTime_pass (h : Spaced s built r) (hr : r.history.FlushesInTime s built)
    (forced : Bool) (next : Next) : (r.pass s forced next).history.FlushesInTime s built := by
  obtain ⟨between, hbetween, hpassless, hflushed⟩ := r.history_gathered s forced
  have hgathered : (r.gathered s forced).1.history.FlushesInTime s built := by
    rw [hbetween]
    intro later t forced' earlier hsplit hdue
    obtain ⟨inner, rfl, hinner⟩ :=
      History.split_of_forall_not (p := fun e => e.occurrence.isPass = true) hsplit
        (fun e he => by rw [hpassless e he]; nofun) rfl
    -- the pass is the one that begins here, or an earlier one
    cases inner with
    | nil =>
      obtain ⟨hentry, rfl⟩ := List.cons.inj hinner
      obtain ⟨rfl, hpassed⟩ := Entry.mk.inj hentry
      obtain rfl := Occurrence.passed.inj hpassed
      rw [List.append_nil]
      exact hflushed (by rw [h.isDue_iff.2 hdue, Bool.or_true])
    | cons e inner =>
      obtain ⟨since, batch, rfl⟩ := hr inner t forced' earlier (List.cons.inj hinner).2 hdue
      exact ⟨between ++ e :: since, batch, by simp⟩
  obtain ⟨_, _, _, added, hsent, -, hpassive, -⟩ :=
    (r.gathered s forced).1.send_eq (r.gathered s forced).2 next
  rw [Run.pass_eq, hsent]
  exact hgathered.append_passive hpassive

theorem flushesInTime_finish (h : Spaced s built r) (hr : r.history.FlushesInTime s built) :
    (r.finish s).history.FlushesInTime s built := by
  unfold Run.finish
  split
  · exact hr
  · exact flushesInTime_pass (r := { r with finalFlushed := true }) { h with } hr true .close

end Spaced

/-- Whatever the flush task does, its passes flush when a flush is due. -/
theorem Run.Advance.flushesInTime [Transport τ] {r next : Run τ} (ha : r.Advance s next)
    (h : Spaced s built r) (hr : r.history.FlushesInTime s built) :
    next.history.FlushesInTime s built := by
  cases ha with
  | begin htask => exact hr
  | finish htask hcancelled =>
    exact (h.note (o := .noticed .shuttingDown) rfl rfl).flushesInTime_finish (hr.cons rfl)
  | @wake _ due woken htask hcancelled hwakeups hwoken =>
    obtain ⟨added, hadded, hpassless⟩ := woken.history_collect s
    obtain ⟨_, _, _, sent, hsent, -, hpassive, -⟩ :=
      (woken.collect s).1.send_eq (woken.collect s).2 (.resume due)
    rw [hsent]
    refine History.FlushesInTime.append_passive ?_ hpassive
    rw [hadded, hwoken]
    exact hr.append hpassless
  | tick htask hcancelled hwakeups hdue => exact h.flushesInTime_pass hr false _
  | wait htask hcancelled hwakeups hdue => exact hr
  | @complete lines ends following htask hends =>
    obtain ⟨_, _, added, heq, -, -, hpassive⟩ := r.complete_eq lines following
    rw [heq]
    exact hr.append_passive hpassive

/-- Every move keeps passes flushing when a flush is due. -/
theorem Move.flushesInTime [Transport τ] {r r' : Run τ} (hm : Move s r r') (h : Spaced s built r)
    (hr : r.history.FlushesInTime s built) : r'.history.FlushesInTime s built := by
  cases hm with
  | register reading =>
    rw [Run.history_register]
    exact hr.cons rfl
  | start inRuntime =>
    rcases r.start_cases inRuntime with heq | ⟨-, heq⟩
    · rw [heq]
      exact hr
    · rw [heq]
      exact hr.cons rfl
  | cancel => exact hr
  | requestStop =>
    rcases r.requestStop_cases s with ⟨-, heq⟩ | ⟨-, heq⟩ | ⟨-, heq⟩
    · rw [heq]
      exact Spaced.flushesInTime_finish (r := { r with lifecycle := .stopped }) { h with } hr
    · rw [heq]
      exact hr
    · rw [heq]
      exact hr
  | concludeStop =>
    rcases r.concludeStop_cases s with ⟨-, heq⟩ | heq
    · rw [heq]
      exact h.flushesInTime_finish hr
    · rw [heq]
      exact hr
  | advance hnext => exact (Run.advance_of_advance? hnext).flushesInTime h hr
  | elapse instant => exact hr
  | pace durations => exact hr
  | disturb change => exact hr

/-! ## Every moment of a run -/

section Runs

variable [Transport τ]

/-- **Flushes are spaced.**  Measured from the construction of the shipper and then from flush to
flush, each flush that is not forced comes more than the interval after the one before it, or there
are bursts, it comes more than the least interval after the one before it, and more events than
make a burst were registered since then.  Each pass that begins at an instant at which one of the
two is so makes a flush at this instant, before anything else happens. -/
theorem Moves.flushes_spaced (transport : τ) (built : Nat) {r : Run τ}
    (h : Moves s (Run.new s transport built) r) :
    (∀ later t batch earlier, r.history = later ++ ⟨t, .flushed false batch⟩ :: earlier →
      s.IsDueAfter built earlier t) ∧
    ∀ later t forced earlier, r.history = later ++ ⟨t, .passed forced⟩ :: earlier →
      s.IsDueAfter built earlier t → ∃ since batch, later = since ++ [⟨t, .flushed forced batch⟩] := by
  have hnew := spaced_new (s := s) transport built
  constructor
  · exact (h.spaced hnew).due
  · induction h with
    | refl =>
      intro later t forced earlier hsplit
      cases later <;> cases hsplit
    | tail hfirst hlast ih => exact hlast.flushesInTime (Moves.spaced hfirst hnew) ih

/-- Whether a flush is told that was not forced. -/
def Occurrence.isUnforcedFlush : Occurrence → Bool
  | .flushed forced _ => !forced
  | _ => false

/-- Two bursts, the second of which was registered while the lines of the first were written: its
flush was due as soon as the task could tick. -/
theorem Moves.flushes_spaced_of_slow_write :
    let s : Shipper :=
      { Shipper.plain with
        settings :=
          { entity := "host", interval := 60000, checkInterval := 100, minInterval := 100
            burstThreshold := 1 }
        checkInterval_pos := by decide }
    let event : Reading :=
      { key := "app", label := "ERROR", severity := .error, rendered := .ok "boom" }
    let r := (Run.new s ({} : Scripted) 0).exec s
      [.pace fun _ => 250, .start true, .register event, .register event, .sleep 300,
        .register event, .register event, .sleep 250]
    ∃ later batch earlier, r.history = later ++ ⟨500, .flushed false batch⟩ :: earlier ∧
      s.IsDueAfter 0 earlier 500 := by
  intro s event r
  have hmoves : Moves s (Run.new s ({} : Scripted) 0) r := Moves.exec s _ _
  have hflush : (r.history.any fun e => e.instant == 500 && e.occurrence.isUnforcedFlush) =
      true := by decide +kernel
  obtain ⟨⟨t, o⟩, he, ho⟩ := List.any_eq_true.1 hflush
  obtain ⟨later, earlier, hsplit⟩ := List.append_of_mem he
  obtain ⟨ht, hunforced⟩ := Bool.and_eq_true_iff.1 ho
  obtain rfl : t = 500 := eq_of_beq ht
  cases o with
  | flushed forced batch =>
    cases forced with
    | true => cases hunforced
    | false =>
      exact ⟨later, batch, earlier, hsplit,
        (Moves.flushes_spaced ({} : Scripted) 0 hmoves).1 later 500 batch earlier hsplit⟩
  | _ => cases hunforced

end Runs

end LogShipper
