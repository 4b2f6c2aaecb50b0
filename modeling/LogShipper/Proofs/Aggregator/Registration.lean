import LogShipper.Proofs.Aggregator.Spacing
import LogShipper.Proofs.Aggregator.Totals

/-!
# What a registration leaves behind

An event is counted before anything else is done with it, so that the number of all events, and the
sum of the counts of all keys and labels, stand at the number of registrations at every moment
(`Run.CountsAll`).  What a registration does to the waiting samples is what it tells
(`Intake.queue_register`), and one that fails does nothing to them (`Intake.register_of_failed`).

A flush leads back to the moment at which it was made (`Moves.moment_of_flush`).  There the counts
agree with the history, and so the flush reports of each key and label the events since the flush
before, whatever became of their samples (`Moves.counters_flushed`).
-/

namespace LogShipper

open Wire Transport

/-! ## The sum of all counts -/

section Totals

universe u v

/-- The sum of the sizes of the values among some entries. -/
def Table.sizeIn {α : Type u} {β : Type v} (size : β → Nat) : List (α × β) → Nat
  | [] => 0
  | e :: entries => size e.2 + sizeIn size entries

/-- A change by which each value grows by one, and a new one has one, adds one to the sum. -/
theorem Table.sizeIn_upsertIn {α : Type u} {β : Type v} [DecidableEq α] (size : β → Nat) (k : α)
    {f : Option β → β} (hnew : size (f none) = 1) (hold : ∀ b, size (f (some b)) = size b + 1)
    (entries : List (α × β)) : sizeIn size (upsertIn k f entries) = sizeIn size entries + 1 := by
  induction entries with
  | nil => simp only [upsertIn, sizeIn, hnew]
  | cons e entries ih =>
    by_cases hk : e.1 = k
    · rw [upsertIn, if_pos hk, sizeIn, sizeIn, hold, Nat.add_right_comm]
    · rw [upsertIn, if_neg hk, sizeIn, sizeIn, ih, Nat.add_assoc]

variable {κ : Type u} {ι : Type v} [DecidableEq κ] [DecidableEq ι]

/-- The number of events with any label. -/
def LabelCounter.total (c : LabelCounter ι) : Nat := Table.sizeIn id c.counts.entries

theorem LabelCounter.total_increment (c : LabelCounter ι) (label : ι) :
    (c.increment label).total = c.total + 1 :=
  Table.sizeIn_upsertIn id label rfl (fun _ => rfl) c.counts.entries

/-- The number of events with any key and label. -/
def EventCounter.total (c : EventCounter κ ι) : Nat :=
  Table.sizeIn LabelCounter.total c.keys.entries

theorem EventCounter.total_increment (c : EventCounter κ ι) (key : κ) (label : ι) :
    (c.increment key label).total = c.total + 1 :=
  Table.sizeIn_upsertIn LabelCounter.total key (LabelCounter.total_increment .empty label)
    (fun labels => labels.total_increment label) c.keys.entries

end Totals

/-! ## What is told of a sample -/

namespace Intake

variable (s : Shipper) (i : Intake) (now : Nat) (reading : Reading)

theorem totalEvents_register : (i.register s now reading).1.totalEvents = i.totalEvents + 1 := by
  rcases i.register_cases s now reading with
      ⟨_, _, heq, -⟩ | ⟨_, heq, -⟩ | ⟨_, _, heq, -⟩ <;>
  · rw [heq]
    rfl

/-- A sample joins the queue at its end, and one is dropped from its beginning. -/
theorem queue_register :
    (i.register s now reading).2.evicted?.toList ++ (i.register s now reading).1.queue.items =
      i.queue.items ++ (i.register s now reading).2.queued?.toList := by
  rcases i.register_cases s now reading with
      ⟨_, sampling, heq, hqueued, hevicted, -⟩ | ⟨sample, heq, -⟩ | ⟨_, sample, heq, -⟩
  · rw [heq, hqueued, hevicted]
    exact (List.append_nil _).symm
  · rw [heq]
    exact (List.append_nil _).symm
  · rw [heq]
    show (i.queue.push sample).2.toList ++ (i.queue.push sample).1.items =
      i.queue.items ++ [sample]
    unfold SampleQueue.push
    dsimp only
    split
    · cases i.queue.items <;> rfl
    · rfl

/-- At most one of the two queues takes a sample. -/
theorem urgent?_or_queued? : (i.register s now reading).2.urgent? = none ∨
    (i.register s now reading).2.queued? = none := by
  rcases i.register_cases s now reading with
      ⟨_, _, heq, hqueued, -⟩ | ⟨_, heq, -⟩ | ⟨_, _, heq, -⟩
  · rw [heq]
    exact .inr hqueued
  · rw [heq]
    exact .inr rfl
  · rw [heq]
    exact .inl rfl

variable {s i now reading} {reason : Text}

/-- A registration fails for want of a message. -/
theorem rendered_of_failed (h : (i.register s now reading).2 = .failed reason) :
    reading.rendered = .error reason := by
  unfold register at h
  dsimp only at h
  split at h
  · cases h
  split at h
  · unfold sampleFatal at h
    split at h
    · rename_i hcapture
      cases h
      exact Sample.capture_eq_error_iff.1 hcapture
    · cases h
  · unfold sampleTriggered at h
    dsimp only at h
    split at h
    · cases h
    split at h
    · rename_i hcapture
      cases h
      exact Sample.capture_eq_error_iff.1 hcapture
    · cases h

/-- An event without a message is never sampled: nobody asks for its sample, or its registration
fails. -/
theorem register_of_unrendered (h : reading.rendered = .error reason) :
    (i.register s now reading).2 = .unsampled ∨ (i.register s now reading).2 = .failed reason := by
  have hcapture : ∀ depth, Sample.capture reading depth = .error reason :=
    fun depth => Sample.capture_eq_error_iff.2 h
  unfold register sampleFatal sampleTriggered
  dsimp only
  split
  · exact .inl rfl
  split
  · rw [hcapture]
    exact .inr rfl
  · split
    · exact .inl rfl
    · rw [hcapture]
      exact .inr rfl

/-- A registration that fails counts the event, and asks the triggers at most. -/
theorem register_of_failed (h : (i.register s now reading).2 = .failed reason) :
    ∃ triggers, (i.register s now reading).1 = { i.count reading with triggers } := by
  rcases i.register_cases s now reading with
      ⟨triggers, _, heq, -⟩ | ⟨_, heq, -⟩ | ⟨_, _, heq, -⟩
  · exact ⟨triggers, congrArg Prod.fst heq⟩
  · rw [heq] at h
    cases h
  · rw [heq] at h
    cases h

end Intake

variable {τ : Type} {s : Shipper}

/-- Only the sample of a fatal event wakes the task. -/
theorem Run.register_of_not_urgent {r : Run τ} {reading : Reading}
    (h : (r.register s reading).2.urgent? = none) :
    (r.register s reading).1 = { r with
      intake := (r.intake.register s r.now reading).1
      history := ⟨r.now, .registered reading (r.intake.register s r.now reading).2⟩ :: r.history } := by
  unfold register at h ⊢
  dsimp only at h ⊢
  split
  · rename_i hurgent
    rw [hurgent] at h
    cases h
  · rfl

/-! ## Every event is counted once -/

/-- Every event that was registered is counted, once in all and once under its key and label. -/
structure Run.CountsAll (r : Run τ) : Prop where
  totalEvents_eq : r.intake.totalEvents = r.history.events.length
  total_eq : r.intake.counter.total = r.history.events.length

theorem Run.CountsAll.register {r : Run τ} (h : r.CountsAll) (s : Shipper) (reading : Reading) :
    (r.register s reading).1.CountsAll := by
  have hevents : (r.register s reading).1.history.events = r.history.events ++ [reading] := by
    simp [History.events, Occurrence.event?]
  constructor
  · rw [intake_register, Intake.totalEvents_register, hevents, List.length_append,
      h.totalEvents_eq]
    rfl
  · rw [intake_register, Intake.counter_register, EventCounter.total_increment, hevents,
      List.length_append, h.total_eq]
    rfl

/-- No piece of work touches the live counts. -/
theorem Work.counts_eq {p p' : Run τ × List Rendered} (hw : Work s p p') :
    p'.1.intake.counter = p.1.intake.counter ∧
      p'.1.intake.totalEvents = p.1.intake.totalEvents := by
  cases hw with
  | announce r lines => exact ⟨rfl, rfl⟩
  | flush r lines forced hdue =>
    rw [Run.flush_eq]
    exact ⟨rfl, rfl⟩
  | collect r lines =>
    rw [Run.collect_eq]
    exact ⟨rfl, rfl⟩
  | attempt r lines => exact ⟨rfl, rfl⟩
  | note r lines o ho => exact ⟨rfl, rfl⟩
  | control lines intake reporting history now =>
    rw [intake]
    exact ⟨rfl, rfl⟩

theorem Work.countsAll {p p' : Run τ × List Rendered} (hw : Work s p p') (h : p.1.CountsAll) :
    p'.1.CountsAll := by
  obtain ⟨hcounter, htotal⟩ := hw.counts_eq
  have hevents : p'.1.history.events = p.1.history.events := Works.events_eq (.single hw)
  constructor
  · rw [htotal, hevents]
    exact h.totalEvents_eq
  · rw [hcounter, hevents]
    exact h.total_eq

theorem Moves.countsAll [Transport τ] {r r' : Run τ} (h : Moves s r r') (hr : r.CountsAll) :
    r'.CountsAll :=
  Moves.keeps (P := fun p => p.1.CountsAll) (fun hw hp => hw.countsAll hp)
    (fun reading hp => hp.register s reading) h hr

/-! ## The moment of a flush -/

/-- A flush that is told after some work was told before, or it was made in the course of the
work. -/
theorem Works.moment_of_flush {p p' : Run τ × List Rendered} (hw : Works s p p')
    {later earlier : History} {t : Nat} {forced : Bool} {batch : SeriesBatch Text Text}
    (hsplit : p'.1.history = later ++ ⟨t, .flushed forced batch⟩ :: earlier) :
    (∃ between, p.1.history = between ++ ⟨t, .flushed forced batch⟩ :: earlier) ∨
    ∃ q, Works s p q ∧ q.1.history = earlier ∧
      batch = (q.1.reporting.flush q.1.now q.1.intake.counter).2 := by
  induction hw generalizing later with
  | refl => exact .inl ⟨later, hsplit⟩
  | @tail q q' hfirst hlast ih =>
    rcases hlast.steady_or_flush with hsteady | ⟨forced', hflush⟩
    · obtain ⟨added, hadded, hnone⟩ := hsteady.history
      obtain ⟨between, -, hbetween⟩ :=
        History.split_of_forall_not (p := fun e => e.occurrence.isFlush = true)
          (hadded.symm.trans hsplit) (fun e he => by rw [(hnone e he).2]; nofun) rfl
      exact ih hbetween
    · rw [hflush, Run.flush_eq] at hsplit
      obtain ⟨between, -, hbetween⟩ :=
        History.split_of_forall_not (p := fun e => e.occurrence.isFlush = true) hsplit
          (fun e he => by rw [History.isFlush_of_mem_noticed _ _ e he]; nofun) rfl
      cases between with
      | nil =>
        obtain ⟨hentry, hearlier⟩ := List.cons.inj hbetween
        obtain ⟨-, rfl⟩ := Occurrence.flushed.inj (Entry.mk.inj hentry).2
        exact .inr ⟨q, hfirst, hearlier, rfl⟩
      | cons e between => exact ih (List.cons.inj hbetween).2

section Moments

variable [Transport τ]

/-- The moment at which a flush was made. -/
theorem Moves.moment_of_flush {r₀ r : Run τ} (h : Moves s r₀ r) (hnew : r₀.history = [])
    {later earlier : History} {t : Nat} {forced : Bool} {batch : SeriesBatch Text Text}
    (hsplit : r.history = later ++ ⟨t, .flushed forced batch⟩ :: earlier) :
    ∃ before q, Moves s r₀ before ∧ Works s (before, []) q ∧ q.1.history = earlier ∧
      batch = (q.1.reporting.flush q.1.now q.1.intake.counter).2 := by
  induction h generalizing later with
  | refl =>
    rw [hnew] at hsplit
    cases later <;> cases hsplit
  | @tail before r hfirst hlast ih =>
    rcases hlast.works with ⟨reading, rfl⟩ | hworks
    · rw [Run.history_register] at hsplit
      cases later with
      | nil => cases (List.cons.inj hsplit).1
      | cons e later => exact ih (List.cons.inj hsplit).2
    · rcases hworks.moment_of_flush hsplit with ⟨between, hbetween⟩ | ⟨q, hq, hearlier, hbatch⟩
      · exact ih hbetween
      · exact ⟨before, q, hfirst, hq, hearlier, hbatch⟩

variable {key label : Text}

omit [Transport τ] in
/-- What was registered is what was registered before the latest flush and since. -/
theorem History.registered_eq_add (h : History) :
    h.registered key label = h.beforeFlush.registered key label +
      h.sinceFlush.registered key label := by
  induction h with
  | nil => rfl
  | cons e h ih =>
    rw [beforeFlush_cons, sinceFlush_cons]
    cases he : e.occurrence.isFlush with
    | true =>
      have hevent : e.occurrence.event? = none := by
        revert he
        cases e.occurrence <;> first | exact fun _ => rfl | nofun
      simp [registered, events, hevent]
    | false =>
      simp only [registered, events, select_cons, List.countP_append] at ih ⊢
      simp only [Bool.false_eq_true, if_false, select_cons, List.countP_append]
      omega

/-- A flush reports of each key and label, once, the events since the flush before. -/
theorem Moves.counters_flushed {transport : τ} {now : Nat} {r : Run τ}
    (h : Moves s (Run.new s transport now) r) {later earlier : History} {t : Nat} {forced : Bool}
    {batch : SeriesBatch Text Text}
    (hsplit : r.history = later ++ ⟨t, .flushed forced batch⟩ :: earlier)
    (hsome : 0 < earlier.sinceFlush.registered key label) :
    ((key, label), (earlier.sinceFlush.registered key label : Int)) ∈ batch.counters := by
  obtain ⟨before, q, hbefore, hworks, rfl, rfl⟩ := h.moment_of_flush rfl hsplit
  have hcounted : Counted key label q.1 :=
    (hworks.totalled (hbefore.totalled (totalled_new transport now))).counted key label
  let batch := (q.1.reporting.flush q.1.now q.1.intake.counter).2
  have hsum : sumAt (key, label) batch.counters = q.1.history.sinceFlush.registered key label := by
    rw [hcounted.sumAt_counters, q.1.history.registered_eq_add]
    omega
  -- a batch has one counter for a key and a label at most
  have hvalue : (Table.valueIn (key, label) batch.counters).getD 0 =
      q.1.history.sinceFlush.registered key label :=
    (sumAt_eq_valueIn _ (Series.nodup_counters_batch _)).symm.trans hsum
  cases hfound : Table.valueIn (key, label) batch.counters with
  | none =>
    rw [hfound, Option.getD_none] at hvalue
    omega
  | some value =>
    rw [hfound, Option.getD_some] at hvalue
    rw [← hvalue]
    exact (Table.valueIn_eq_some_iff (Series.nodup_counters_batch _)).1 hfound

end Moments

/-! ## One more registration -/

variable [Transport τ]

/-- **Every registration is accounted for.**  Whatever becomes of an event, it is counted: the
number of all events and the sum of all counts are the number of registrations so far.  At most one
sample is taken, which joins one of the two queues at its end, and only the queue of the samples
that are not fatal may lose its oldest one for it.  A registration fails only if the event has no
message, and then both queues, the wake-ups and the task are as before.  The next flush reports the
event in any case, under its key and label, with all others since the flush before. -/
theorem Moves.registration_accounted (transport : τ) (now : Nat) {r : Run τ}
    (h : Moves s (Run.new s transport now) r) (reading : Reading) :
    let told := (r.register s reading).2
    let r' := (r.register s reading).1
    r'.history.events = r.history.events ++ [reading] ∧
    r'.intake.totalEvents = r'.history.events.length ∧
    r'.intake.counter.total = r'.history.events.length ∧
    r'.intake.urgent = r.intake.urgent ++ told.urgent?.toList ∧
    told.evicted?.toList ++ r'.intake.queue.items =
      r.intake.queue.items ++ told.queued?.toList ∧
    (told.urgent? = none ∨ told.queued? = none) ∧
    (∀ reason, reading.rendered = .error reason → told = .unsampled ∨ told = .failed reason) ∧
    (∀ reason, told = .failed reason → reading.rendered = .error reason ∧
      r'.intake.urgent = r.intake.urgent ∧ r'.intake.queue = r.intake.queue ∧
      r'.wakeups = r.wakeups ∧ r'.task = r.task) ∧
    ∀ r'', Moves s r' r'' → ∀ later t forced batch between,
      r''.history = later ++ ⟨t, .flushed forced batch⟩ :: (between ++ r'.history) →
      (∀ e ∈ between, e.occurrence.isFlush = false) →
      ∃ n : Nat, n = History.registered reading.key reading.label
          (between ++ r'.history).sinceFlush ∧ 0 < n ∧
        ((reading.key, reading.label), (n : Int)) ∈ batch.counters := by
  intro told r'
  have hevents : r'.history.events = r.history.events ++ [reading] := by
    simp [r', History.events, Occurrence.event?]
  have hcounts : r'.CountsAll :=
    (h.countsAll ⟨rfl, rfl⟩ : r.CountsAll).register s reading
  have hurgent : told.urgent? = s.fatalSample? reading := r.intake.urgent?_register s r.now reading
  have hjoined : r'.intake.urgent = r.intake.urgent ++ told.urgent?.toList := by
    rw [hurgent, Run.intake_register, Intake.urgent_register]
  refine ⟨hevents, hcounts.totalEvents_eq, hcounts.total_eq, hjoined, ?_,
    r.intake.urgent?_or_queued? s r.now reading, fun reason => Intake.register_of_unrendered, ?_, ?_⟩
  · rw [Run.intake_register]
    exact r.intake.queue_register s r.now reading
  · intro reason hfailed
    have hnone : told.urgent? = none := by rw [hfailed]; rfl
    obtain ⟨triggers, hintake⟩ := Intake.register_of_failed hfailed
    have hr' : r' = _ := Run.register_of_not_urgent hnone
    refine ⟨Intake.rendered_of_failed hfailed, ?_, ?_, ?_, ?_⟩
    · rw [hjoined, hnone]
      exact List.append_nil _
    · rw [hr', hintake]
      rfl
    · rw [hr']
    · rw [hr']
  · intro r'' hr'' later t forced batch between hsplit hbetween
    let entry : Entry := ⟨r.now, .registered reading told⟩
    have hsince : (between ++ r'.history).sinceFlush =
        between ++ entry :: r.history.sinceFlush := by
      rw [History.sinceFlush_append hbetween, Run.history_register, History.sinceFlush_cons]
      rfl
    have hmem : reading ∈ History.events (between ++ r'.history).sinceFlush :=
      History.mem_select_iff.2 ⟨between, entry, r.history.sinceFlush, hsince, rfl⟩
    have hregistered : 0 < History.registered reading.key reading.label
        (between ++ r'.history).sinceFlush :=
      List.countP_pos_iff.2 ⟨reading, hmem, decide_eq_true ⟨rfl, rfl⟩⟩
    exact ⟨_, rfl, hregistered,
      Moves.counters_flushed ((h.tail (.register r reading)).trans hr'') hsplit hregistered⟩

/-- Stopping a shipper that was never started flushes at once. -/
theorem Run.history_requestStop_of_idle (r : Run τ) (s : Shipper) (hidle : r.lifecycle = .idle)
    (hfresh : r.finalFlushed = false) : ∃ later batch, (r.requestStop s).history =
      later ++ ⟨r.now, .flushed true batch⟩ :: ⟨r.now, .passed true⟩ :: r.history := by
  have hstopped : ({ r with lifecycle := .stopped } : Run τ).finalFlushed = false := hfresh
  obtain ⟨later, batch, hhistory, -⟩ := history_finish s hstopped
  refine ⟨later, batch, ?_⟩
  unfold requestStop
  rw [hidle]
  exact hhistory

/-- A fatal event without a message, after another event of its kind: it takes no place and wakes
nobody, and the last pass of the shipper reports both. -/
theorem Moves.registration_accounted_of_failure :
    let event : Reading :=
      { key := "app", label := "ERROR", severity := .error, rendered := .ok "boom" }
    let fatal : Reading := { event with rendered := .error "no message", fatal := true }
    let r := (Run.new Shipper.plain ({} : Scripted) 0).exec Shipper.plain [.register event]
    let r' := (r.register Shipper.plain fatal).1
    (r.register Shipper.plain fatal).2 = .failed "no message" ∧ r'.intake.totalEvents = 2 ∧
    r'.intake.queue = r.intake.queue ∧ r'.wakeups = r.wakeups ∧
    ∃ later t batch between,
      (r'.requestStop Shipper.plain).history =
        later ++ ⟨t, .flushed true batch⟩ :: (between ++ r'.history) ∧
      ((event.key, event.label), 2) ∈ batch.counters := by
  intro event fatal r r'
  have hmoves : Moves Shipper.plain (Run.new Shipper.plain ({} : Scripted) 0) r :=
    Moves.exec Shipper.plain _ [.register event]
  obtain ⟨-, htotal, -, -, -, -, -, hfailed, hflush⟩ :=
    hmoves.registration_accounted ({} : Scripted) 0 fatal
  have htold : (r.register Shipper.plain fatal).2 = .failed "no message" := by decide +kernel
  obtain ⟨-, -, hqueue, hwakeups, -⟩ := hfailed _ htold
  refine ⟨htold, htotal.trans (by decide +kernel), hqueue, hwakeups, ?_⟩
  obtain ⟨later, batch, hhistory⟩ :=
    r'.history_requestStop_of_idle Shipper.plain (by decide +kernel) (by decide +kernel)
  obtain ⟨n, hn, -, hcounter⟩ := hflush _ (.single (.requestStop r')) later r'.now true batch
    [⟨r'.now, .passed true⟩] hhistory (List.forall_mem_singleton.2 rfl)
  have htwo : n = 2 := hn.trans (by decide +kernel)
  subst htwo
  exact ⟨later, _, batch, [⟨r'.now, .passed true⟩], hhistory, hcounter⟩

end LogShipper
