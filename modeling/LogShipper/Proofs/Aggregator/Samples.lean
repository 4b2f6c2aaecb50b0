import LogShipper.Proofs.Aggregator.Intake
import LogShipper.Proofs.Aggregator.Shutdown
import LogShipper.Proofs.Aggregator.Moments
import LogShipper.Proofs.SampleQueue

/-!
# Where samples are

A captured sample waits until it is brought away, and the sample of an event that is not fatal may
be dropped while it waits.  `SampleAccounts` says of a run where every captured sample is.  The
fatal samples are, in order, those that were brought away and those that wait.  The others are, in
order, those that are gone and those that wait; those that are gone were brought away or dropped,
and both kinds stand in their order (`Shuffled`).  The drops are those that were reported and those
that the queue still counts.

What waits was captured since the latest collection, so that nothing from before the last pass is
left when it was made.
-/

namespace LogShipper

open Wire Transport

/-! ## Shuffled lists -/

/-- The third list is made of the first two, each of which stands there in its order. -/
inductive Shuffled {α : Type} : List α → List α → List α → Prop
  | nil : Shuffled [] [] []
  | left {xs ys zs : List α} (h : Shuffled xs ys zs) (x : α) : Shuffled (xs ++ [x]) ys (zs ++ [x])
  | right {xs ys zs : List α} (h : Shuffled xs ys zs) (y : α) : Shuffled xs (ys ++ [y]) (zs ++ [y])

namespace Shuffled

variable {α : Type} {xs ys zs : List α}

theorem append_left (h : Shuffled xs ys zs) (more : List α) :
    Shuffled (xs ++ more) ys (zs ++ more) := by
  induction more generalizing xs zs with
  | nil => simpa using h
  | cons x more ih => simpa using ih (h.left x)

theorem sublist_left (h : Shuffled xs ys zs) : xs.Sublist zs := by
  induction h with
  | nil => exact .slnil
  | left h x ih => exact ih.append (.refl _)
  | right h y ih => exact ih.trans (List.sublist_append_left _ _)

end Shuffled

/-! ## What a history says of samples -/

/-- The number of drops that a notice reports. -/
def Notice.drops? : Notice → Option Nat
  | .dropped samples _ => some samples
  | _ => none

namespace Occurrence

/-- What was brought away. -/
def collected? : Occurrence → Option Collected
  | .collected c => some c
  | _ => none

/-- The sample that joined the queue. -/
def queued? : Occurrence → Option Sample
  | .registered _ sampling => sampling.queued?
  | _ => none

/-- The sample that was dropped for another one. -/
def evicted? : Occurrence → Option Sample
  | .registered _ sampling => sampling.evicted?
  | _ => none

/-- The number of drops that are reported. -/
def drops? : Occurrence → Option Nat
  | .noticed notice => notice.drops?
  | _ => none

/-- Whether a collection is told. -/
def isCollection (o : Occurrence) : Bool := o.collected?.isSome

/-- Whether an event, a collection or drops are told. -/
def isSampling (o : Occurrence) : Bool := o.event?.isSome || o.isCollection || o.drops?.isSome

theorem isSampling_eq_false_iff {o : Occurrence} :
    o.isSampling = false ↔ o.event? = none ∧ o.isCollection = false ∧ o.drops? = none := by
  simp [isSampling, and_assoc]

theorem isSampling_of_isQuiet {o : Occurrence} (h : o.isQuiet = true) : o.isSampling = false := by
  cases o with
  | noticed n => cases n <;> first | rfl | cases h
  | _ => first | rfl | cases h

theorem isCollection_of_not_isPassing {o : Occurrence} (h : o.isPassing = false) :
    o.isCollection = false := by
  cases o <;> first | rfl | cases h

/-- A sample joins the queue where an event is told. -/
theorem queued?_of_event? {o : Occurrence} (h : o.event? = none) : o.queued? = none := by
  cases o <;> first | rfl | cases h

theorem evicted?_of_event? {o : Occurrence} (h : o.event? = none) : o.evicted? = none := by
  cases o <;> first | rfl | cases h

end Occurrence

namespace History

/-- The collections, in order. -/
def collections (h : History) : List Collected := h.select Occurrence.collected?

/-- The fatal samples that were brought away, in order. -/
def takenUrgent (h : History) : List Sample := h.collections.flatMap Collected.urgent

/-- The other samples that were brought away, in order. -/
def takenQueued (h : History) : List Sample := h.collections.flatMap Collected.queued

/-- The samples of the fatal events, in order. -/
def fatalSamples (s : Shipper) (h : History) : List Sample := h.events.filterMap s.fatalSample?

/-- The samples that joined the queue, in order. -/
def queuedSamples (h : History) : List Sample := h.select Occurrence.queued?

/-- The samples that were dropped, in order. -/
def evictedSamples (h : History) : List Sample := h.select Occurrence.evicted?

/-- The sum of the drops that were reported. -/
def reportedDrops : History → Nat
  | [] => 0
  | e :: h => reportedDrops h + e.occurrence.drops?.getD 0

/-- What has happened since the latest collection. -/
def sinceCollection (h : History) : History := h.takeWhile fun e => !e.occurrence.isCollection

theorem reportedDrops_append (later earlier : History) :
    reportedDrops (later ++ earlier) = reportedDrops earlier + reportedDrops later := by
  induction later with
  | nil => rfl
  | cons e later ih => rw [List.cons_append, reportedDrops, reportedDrops, ih, Nat.add_assoc]

/-- Entries that tell of no drops report none. -/
theorem reportedDrops_eq_zero {h : History} (hh : ∀ e ∈ h, e.occurrence.drops? = none) :
    reportedDrops h = 0 := by
  induction h with
  | nil => rfl
  | cons e h ih =>
    rw [reportedDrops, hh e List.mem_cons_self]
    exact ih fun e' he' => hh e' (List.mem_cons_of_mem e he')

theorem sinceCollection_append {later : History}
    (hl : ∀ e ∈ later, e.occurrence.isCollection = false) (earlier : History) :
    sinceCollection (later ++ earlier) = later ++ sinceCollection earlier := by
  unfold sinceCollection
  exact List.takeWhile_append_of_pos fun e he => by simp [hl e he]

@[simp] theorem sinceCollection_collected (t : Nat) (collected : Collected) (h : History) :
    sinceCollection (⟨t, .collected collected⟩ :: h) = [] := by
  simp [sinceCollection, Occurrence.isCollection, Occurrence.collected?]

/-! ### Entries that tell of no samples -/

section Silent

variable {later : History} (hl : ∀ e ∈ later, e.occurrence.isSampling = false) (earlier : History)

include hl

theorem event?_of_silent (e : Entry) (he : e ∈ later) : e.occurrence.event? = none :=
  (Occurrence.isSampling_eq_false_iff.1 (hl e he)).1

theorem isCollection_of_silent (e : Entry) (he : e ∈ later) :
    e.occurrence.isCollection = false :=
  (Occurrence.isSampling_eq_false_iff.1 (hl e he)).2.1

theorem fatalSamples_append (s : Shipper) :
    fatalSamples s (later ++ earlier) = fatalSamples s earlier := by
  unfold fatalSamples events
  rw [select_append_of_none (event?_of_silent hl)]

theorem collections_append : collections (later ++ earlier) = collections earlier := by
  apply select_append_of_none
  intro e he
  have hnot := isCollection_of_silent hl e he
  simpa [Occurrence.isCollection] using hnot

theorem queuedSamples_append : queuedSamples (later ++ earlier) = queuedSamples earlier := by
  apply select_append_of_none
  intro e he
  exact Occurrence.queued?_of_event? (event?_of_silent hl e he)

theorem evictedSamples_append : evictedSamples (later ++ earlier) = evictedSamples earlier := by
  apply select_append_of_none
  intro e he
  exact Occurrence.evicted?_of_event? (event?_of_silent hl e he)

theorem reportedDrops_append_of_silent :
    reportedDrops (later ++ earlier) = reportedDrops earlier := by
  have hnone : reportedDrops later = 0 :=
    reportedDrops_eq_zero fun e he => (Occurrence.isSampling_eq_false_iff.1 (hl e he)).2.2
  rw [reportedDrops_append, hnone, Nat.add_zero]

theorem sinceCollection_append_of_silent :
    sinceCollection (later ++ earlier) = later ++ sinceCollection earlier :=
  sinceCollection_append (isCollection_of_silent hl) earlier

end Silent

/-! ### A registration -/

section Registration

variable (s : Shipper) (t : Nat) (reading : Reading) (sampling : Sampling) (h : History)

@[simp] theorem fatalSamples_registered :
    fatalSamples s (⟨t, .registered reading sampling⟩ :: h) =
      fatalSamples s h ++ (s.fatalSample? reading).toList := by
  unfold fatalSamples events
  rw [select_cons, List.filterMap_append]
  cases hs : s.fatalSample? reading <;> simp [Occurrence.event?, hs]

@[simp] theorem collections_registered :
    collections (⟨t, .registered reading sampling⟩ :: h) = collections h :=
  (select_cons _ _ _).trans (List.append_nil _)

@[simp] theorem queuedSamples_registered :
    queuedSamples (⟨t, .registered reading sampling⟩ :: h) =
      queuedSamples h ++ sampling.queued?.toList := select_cons _ _ _

@[simp] theorem evictedSamples_registered :
    evictedSamples (⟨t, .registered reading sampling⟩ :: h) =
      evictedSamples h ++ sampling.evicted?.toList := select_cons _ _ _

@[simp] theorem reportedDrops_registered :
    reportedDrops (⟨t, .registered reading sampling⟩ :: h) = reportedDrops h := rfl

@[simp] theorem sinceCollection_registered :
    sinceCollection (⟨t, .registered reading sampling⟩ :: h) =
      ⟨t, .registered reading sampling⟩ :: sinceCollection h := by
  simp [sinceCollection, Occurrence.isCollection, Occurrence.collected?]

end Registration

end History

/-! ## What collecting says -/

/-- Lines that cannot be written report no drops. -/
theorem Shipper.drops?_of_mem_renderAll (s : Shipper) {lines : List Line} {n : Notice}
    (h : n ∈ (s.renderAll lines).2) : n.drops? = none := by
  obtain ⟨_, _, rfl⟩ := s.skipped_of_mem_renderAll h
  rfl

namespace Run

variable {τ : Type} (s : Shipper) (r : Run τ)

/-- A collection reports the drops that the queue has counted. -/
theorem reportedDrops_collectNotices :
    (noticed r.now (r.collectNotices s).reverse).reportedDrops = r.intake.queue.dropped := by
  have hskipped : History.reportedDrops
      (noticed r.now (s.renderAll (r.intake.collect.2.samples.map .message)).2.reverse) = 0 := by
    apply History.reportedDrops_eq_zero
    refine forall_mem_noticed.2 ?_
    intro n hn
    exact s.drops?_of_mem_renderAll (List.mem_reverse.1 hn)
  unfold collectNotices
  unfold noticed at hskipped ⊢
  rw [List.reverse_append, List.map_append, History.reportedDrops_append, hskipped, Nat.add_zero]
  show History.reportedDrops
    (List.map _ (if r.intake.queue.dropped = 0 then [] else [_]).reverse) = _
  split
  · rename_i hzero
    exact hzero.symm
  · exact Nat.zero_add _

@[simp] theorem fatalSamples_collect :
    (r.collect s).1.history.fatalSamples s = r.history.fatalSamples s := by
  unfold History.fatalSamples
  rw [events_collect]

@[simp] theorem collections_collect : (r.collect s).1.history.collections =
    r.history.collections ++ [⟨r.intake.urgent, r.intake.queue.items, r.intake.queue.dropped⟩] :=
  select_collect (fun _ => rfl) s r

@[simp] theorem queuedSamples_collect :
    (r.collect s).1.history.queuedSamples = r.history.queuedSamples :=
  (select_collect (fun _ => rfl) s r).trans (List.append_nil _)

@[simp] theorem evictedSamples_collect :
    (r.collect s).1.history.evictedSamples = r.history.evictedSamples :=
  (select_collect (fun _ => rfl) s r).trans (List.append_nil _)

@[simp] theorem reportedDrops_collect : (r.collect s).1.history.reportedDrops =
    r.history.reportedDrops + r.intake.queue.dropped := by
  rw [collect_eq, History.reportedDrops_append, r.reportedDrops_collectNotices s]
  rfl

/-- Nothing is registered since a collection that has just been made. -/
theorem events_sinceCollection_collect :
    (r.collect s).1.history.sinceCollection.events = [] := by
  rw [collect_eq, History.sinceCollection_append, History.sinceCollection_collected,
    List.append_nil]
  · apply History.select_eq_nil
    exact forall_mem_noticed.2 fun _ _ => rfl
  · exact forall_mem_noticed.2 fun _ _ => rfl

end Run

/-! ## The accounts -/

variable {τ : Type} {s : Shipper}

/-- Where the samples of a run are. -/
structure SampleAccounts (s : Shipper) (r : Run τ) : Prop where
  urgent_eq : r.history.fatalSamples s = r.history.takenUrgent ++ r.intake.urgent
  queued_eq : ∃ gone, r.history.queuedSamples = gone ++ r.intake.queue.items ∧
    Shuffled r.history.takenQueued r.history.evictedSamples gone
  valid : r.intake.queue.Valid
  threshold_eq : r.intake.queue.threshold = s.settings.effectiveSkipThreshold
  drops_eq : r.history.reportedDrops + r.intake.queue.dropped = r.history.evictedSamples.length
  recent_urgent : r.intake.urgent = r.history.sinceCollection.fatalSamples s
  recent_queued : r.intake.queue.items <:+ r.history.sinceCollection.queuedSamples

theorem sampleAccounts_new (transport : τ) (now : Nat) :
    SampleAccounts s (Run.new s transport now) where
  urgent_eq := rfl
  queued_eq := ⟨[], rfl, .nil⟩
  valid := ⟨rfl, Nat.zero_le _, s.settings.effectiveSkipThreshold_pos⟩
  threshold_eq := rfl
  drops_eq := rfl
  recent_urgent := rfl
  recent_queued := List.suffix_refl _

namespace SampleAccounts

variable {r r' : Run τ}

/-- What concerns no sample changes nothing. -/
theorem transfer (h : SampleAccounts s r) (hurgent : r'.intake.urgent = r.intake.urgent)
    (hqueue : r'.intake.queue = r.intake.queue) {added : History}
    (hhistory : r'.history = added ++ r.history)
    (hadded : ∀ e ∈ added, e.occurrence.isSampling = false) : SampleAccounts s r' := by
  have hsince := History.sinceCollection_append_of_silent hadded r.history
  refine ⟨?_, ?_, ?_, ?_, ?_, ?_, ?_⟩
  · rw [hhistory, hurgent, History.fatalSamples_append hadded, History.takenUrgent,
      History.collections_append hadded]
    exact h.urgent_eq
  · rw [hhistory, hqueue, History.queuedSamples_append hadded, History.takenQueued,
      History.collections_append hadded, History.evictedSamples_append hadded]
    exact h.queued_eq
  · rw [hqueue]
    exact h.valid
  · rw [hqueue]
    exact h.threshold_eq
  · rw [hhistory, hqueue, History.reportedDrops_append_of_silent hadded,
      History.evictedSamples_append hadded]
    exact h.drops_eq
  · rw [hhistory, hurgent, hsince, History.fatalSamples_append hadded]
    exact h.recent_urgent
  · rw [hhistory, hqueue, hsince, History.queuedSamples_append hadded]
    exact h.recent_queued

theorem note (h : SampleAccounts s r) {o : Occurrence} (ho : o.isSampling = false) :
    SampleAccounts s (r.note o) := by
  have hadded : ∀ e ∈ [(⟨r.now, o⟩ : Entry)], e.occurrence.isSampling = false :=
    List.forall_mem_singleton.2 ho
  exact h.transfer rfl rfl rfl hadded

/-! ### Registering an event -/

section Registering

variable (h : SampleAccounts s r) (reading : Reading)

include h

/-- A fatal sample that is captured waits. -/
theorem urgent_eq_register : (r.register s reading).1.history.fatalSamples s =
    (r.register s reading).1.history.takenUrgent ++ (r.register s reading).1.intake.urgent := by
  have hurgent := r.intake.urgent_register s r.now reading
  rw [Run.intake_register, Run.history_register, hurgent, History.fatalSamples_registered,
    History.takenUrgent, History.collections_registered, h.urgent_eq, List.append_assoc]
  rfl

theorem recent_urgent_register : (r.register s reading).1.intake.urgent =
    (r.register s reading).1.history.sinceCollection.fatalSamples s := by
  have hurgent := r.intake.urgent_register s r.now reading
  rw [Run.intake_register, Run.history_register, hurgent, History.sinceCollection_registered,
    History.fatalSamples_registered, ← h.recent_urgent]

/-- An event of which no sample joins the queue. -/
theorem register_unqueued
    (hsame : (r.intake.register s r.now reading).1.queue = r.intake.queue)
    (hqueued : (r.intake.register s r.now reading).2.queued? = none)
    (hevicted : (r.intake.register s r.now reading).2.evicted? = none) :
    SampleAccounts s (r.register s reading).1 := by
  obtain ⟨gone, heq, hshuffled⟩ := h.queued_eq
  refine ⟨h.urgent_eq_register reading, ⟨gone, ?_, ?_⟩, ?_, ?_, ?_,
    h.recent_urgent_register reading, ?_⟩
  · simp [hsame, hqueued, heq]
  · simpa [History.takenQueued, hevicted] using hshuffled
  · simpa [hsame] using h.valid
  · simpa [hsame] using h.threshold_eq
  · simpa [hsame, hevicted] using h.drops_eq
  · simpa [hsame, hqueued] using h.recent_queued

/-- An event whose sample joins the queue, where it may make the oldest one go. -/
theorem register_queued {sample : Sample}
    (hpushed : (r.intake.register s r.now reading).1.queue = (r.intake.queue.push sample).1)
    (hsampling : (r.intake.register s r.now reading).2 =
      .queued sample (r.intake.queue.push sample).2) :
    SampleAccounts s (r.register s reading).1 := by
  obtain ⟨gone, hqueued, hshuffled⟩ := h.queued_eq
  obtain ⟨before, hbefore⟩ := h.recent_queued
  have hdrops := h.drops_eq
  have hvalid : (r.register s reading).1.intake.queue.Valid := by
    rw [Run.intake_register, hpushed]
    exact h.valid.push sample
  rcases h.valid.push_cases sample with ⟨heq, -⟩ | ⟨old, rest, hitems, -, heq⟩
  · rw [heq] at hpushed hsampling
    refine ⟨h.urgent_eq_register reading, ⟨gone, ?_, ?_⟩, hvalid, ?_, ?_,
      h.recent_urgent_register reading, ⟨before, ?_⟩⟩
    · simp [hpushed, hsampling, Sampling.queued?, hqueued]
    · simpa [History.takenQueued, hsampling, Sampling.evicted?] using hshuffled
    · simpa [hpushed] using h.threshold_eq
    · simpa [hpushed, hsampling, Sampling.evicted?] using hdrops
    · simp [hpushed, hsampling, Sampling.queued?, ← hbefore]
  · -- the oldest sample joins those that are gone
    rw [heq] at hpushed hsampling
    refine ⟨h.urgent_eq_register reading, ⟨gone ++ [old], ?_, ?_⟩, hvalid, ?_, ?_,
      h.recent_urgent_register reading, ⟨before ++ [old], ?_⟩⟩
    · simp [hpushed, hsampling, Sampling.queued?, hqueued, hitems]
    · simpa [History.takenQueued, hsampling, Sampling.evicted?] using hshuffled.right old
    · simpa [hpushed] using h.threshold_eq
    · simp [hpushed, hsampling, Sampling.evicted?]
      omega
    · simp [hpushed, hsampling, Sampling.queued?, ← hbefore, hitems]

/-- A fatal sample joins the urgent ones, and any other sample is pushed into the queue. -/
theorem register : SampleAccounts s (r.register s reading).1 := by
  rcases r.intake.register_cases s r.now reading with
      ⟨_, _, heq, hqueued, hevicted, -⟩ | ⟨_, heq, -⟩ | ⟨_, _, heq, -⟩
  · exact h.register_unqueued reading (by rw [heq]; rfl) (by rw [heq]; exact hqueued)
      (by rw [heq]; exact hevicted)
  · exact h.register_unqueued reading (by rw [heq]; rfl) (by rw [heq]; rfl) (by rw [heq]; rfl)
  · exact h.register_queued reading (by rw [heq]) (by rw [heq])

end Registering

/-! ### Collecting -/

/-- A collection takes out all that waits, and reports the drops. -/
theorem collect (h : SampleAccounts s r) : SampleAccounts s (r.collect s).1 := by
  obtain ⟨gone, hqueued, hshuffled⟩ := h.queued_eq
  have hevents := r.events_sinceCollection_collect s
  have hintake : (r.collect s).1.intake = r.intake.collect.1 := by rw [Run.collect_eq]
  have hurgent : r.intake.collect.1.urgent = [] := rfl
  have hitems : r.intake.collect.1.queue.items = [] := rfl
  refine ⟨?_, ⟨gone ++ r.intake.queue.items, ?_, ?_⟩, ?_, ?_, ?_, ?_, ?_⟩
  · rw [hintake, hurgent, r.fatalSamples_collect s, h.urgent_eq]
    simp [History.takenUrgent]
  · rw [hintake, hitems, r.queuedSamples_collect s, hqueued, List.append_nil]
  · rw [r.evictedSamples_collect s]
    simpa [History.takenQueued] using hshuffled.append_left r.intake.queue.items
  · rw [hintake]
    have hwaiting := h.valid.waiting_eq
    exact ⟨Nat.sub_eq_zero_of_le (Nat.le_of_eq hwaiting), Nat.zero_le _, h.valid.threshold_pos⟩
  · rw [hintake]
    exact h.threshold_eq
  · rw [hintake, r.reportedDrops_collect s, r.evictedSamples_collect s]
    exact h.drops_eq
  · rw [hintake, hurgent, History.fatalSamples, hevents]
    rfl
  · rw [hintake, hitems]
    exact List.nil_suffix

end SampleAccounts

/-- Every piece of work keeps the accounts. -/
theorem Work.sampleAccounts {p p' : Run τ × List Rendered} (hw : Work s p p')
    (h : SampleAccounts s p.1) : SampleAccounts s p'.1 := by
  have hsame : ∀ {r r' : Run τ}, SampleAccounts s r → r'.intake = r.intake →
      r'.history = r.history → SampleAccounts s r' := by
    intro r r' hr hintake hhistory
    exact hr.transfer (by rw [hintake]) (by rw [hintake]) ((List.nil_append _).symm ▸ hhistory)
      (List.forall_mem_nil _)
  cases hw with
  | announce r lines => exact hsame h rfl rfl
  | flush r lines forced hdue =>
    let batch := (r.reporting.flush r.now r.intake.counter).2
    have hadded : ∀ e ∈ Run.noticed r.now (r.flushNotices s).reverse ++
        [⟨r.now, .flushed forced batch⟩], e.occurrence.isSampling = false := by
      refine List.forall_mem_append.2 ⟨Run.forall_mem_noticed.2 ?_, ?_⟩
      · intro n hn
        have hdrops : n.drops? = none := s.drops?_of_mem_renderAll (List.mem_reverse.1 hn)
        exact Occurrence.isSampling_eq_false_iff.2 ⟨rfl, rfl, hdrops⟩
      · exact List.forall_mem_singleton.2 rfl
    refine h.transfer ?_ ?_ ?_ hadded
    · rw [Run.flush_eq]
    · rw [Run.flush_eq]
    · rw [Run.flush_eq, List.append_assoc]
      rfl
  | collect r lines => exact h.collect
  | attempt r lines => exact h.note rfl
  | note r lines o ho => exact h.note (Occurrence.isSampling_of_isQuiet ho)
  | control lines intake reporting history now => exact hsame h intake history

theorem Moves.sampleAccounts [Transport τ] {transport : τ} {now : Nat} {r : Run τ}
    (h : Moves s (Run.new s transport now) r) : SampleAccounts s r :=
  Moves.keeps (P := fun p => SampleAccounts s p.1) (fun hw => hw.sampleAccounts)
    (fun reading hr => hr.register reading) h (sampleAccounts_new transport now)

/-! ## Every moment of a run -/

/-- A sample that is dropped is the oldest of as many as the threshold allows. -/
theorem SampleAccounts.evicted {r : Run τ} (h : SampleAccounts s r) {reading : Reading}
    {sample old : Sample}
    (hsampling : (r.intake.register s r.now reading).2 = .queued sample (some old)) :
    ∃ rest, r.intake.queue.items = old :: rest ∧
      r.intake.queue.items.length = s.settings.effectiveSkipThreshold := by
  rcases r.intake.register_cases s r.now reading with
      ⟨_, _, hcase, hunqueued, -⟩ | ⟨_, hcase, -⟩ | ⟨_, pushed, hcase, -⟩
  · rw [hcase] at hsampling
    obtain rfl := hsampling
    cases hunqueued
  · rw [hcase] at hsampling
    cases hsampling
  · rw [hcase] at hsampling
    obtain ⟨-, hevicted⟩ := Sampling.queued.inj hsampling
    rcases h.valid.push_cases pushed with ⟨heq, -⟩ | ⟨oldest, rest, hitems, hfull, heq⟩
    · rw [heq] at hevicted
      cases hevicted
    · rw [heq] at hevicted
      obtain rfl := Option.some.inj hevicted
      exact ⟨rest, hitems, hfull.trans h.threshold_eq⟩

/-- What waits after the last pass was captured after its flush. -/
theorem SampleAccounts.captured_later {r : Run τ} (h : SampleAccounts s r)
    (hfinished : r.history.IsFinished) :
    ∃ later t batch earlier, r.history = later ++ ⟨t, .flushed true batch⟩ :: earlier ∧
      r.intake.urgent = History.fatalSamples s later ∧
      r.intake.queue.items <:+ History.queuedSamples later := by
  obtain ⟨later, collected, notices, batch, t, earlier, hhistory, hpassive⟩ := hfinished
  have hsince : r.history.sinceCollection = later := by
    rw [hhistory, History.sinceCollection_append, History.sinceCollection_collected,
      List.append_nil]
    intro e he
    exact Occurrence.isCollection_of_not_isPassing (hpassive e he)
  have hbetween : ∀ {α : Type} {f : Occurrence → Option α}, (∀ n, f (.noticed n) = none) →
      f (.collected collected) = none →
      (later ++ ⟨t, .collected collected⟩ :: Run.noticed t notices).select f =
        History.select f later := by
    intro α f hn hc
    rw [History.select_append, History.select_cons, hc, History.select_eq_nil]
    · rfl
    · exact Run.forall_mem_noticed.2 fun n _ => hn n
  refine ⟨later ++ ⟨t, .collected collected⟩ :: Run.noticed t notices, t, batch,
    ⟨t, .passed true⟩ :: earlier, by rw [hhistory]; simp, ?_, ?_⟩
  · rw [h.recent_urgent, hsince]
    unfold History.fatalSamples History.events
    rw [hbetween (fun _ => rfl) rfl]
  · have hrecent := h.recent_queued
    rw [hsince] at hrecent
    unfold History.queuedSamples at hrecent ⊢
    rw [hbetween (fun _ => rfl) rfl]
    exact hrecent

variable [Transport τ]

/-- **Every captured sample is accounted for.**  At every moment the fatal samples captured so far
are, in order, those that were brought away and those that wait.  The other captured ones are, in
order, those that are gone and those that wait; of those that are gone the ones brought away stand
in their order among the captured ones, and the rest were dropped, each of them as the oldest at a
moment when as many waited as the threshold allows, so that no more ever wait.  The drops that were
reported and those still counted add up to the samples dropped.  Once the last pass was made,
whatever waits was captured after its flush. -/
theorem Moves.samples_accounted (transport : τ) (now : Nat) {r : Run τ}
    (h : Moves s (Run.new s transport now) r) :
    r.history.fatalSamples s = r.history.takenUrgent ++ r.intake.urgent ∧
    r.history.takenQueued.Sublist r.history.queuedSamples ∧
    (∃ gone, r.history.queuedSamples = gone ++ r.intake.queue.items ∧
      Shuffled r.history.takenQueued r.history.evictedSamples gone) ∧
    (∀ later t reading sample old earlier,
      r.history = later ++ ⟨t, .registered reading (.queued sample (some old))⟩ :: earlier →
      ∃ r₀ rest, Moves s (Run.new s transport now) r₀ ∧ r₀.history = earlier ∧ r₀.now = t ∧
        r₀.intake.queue.items = old :: rest ∧
        r₀.intake.queue.items.length = s.settings.effectiveSkipThreshold ∧
        Moves s (r₀.register s reading).1 r) ∧
    r.intake.queue.items.length ≤ s.settings.effectiveSkipThreshold ∧
    r.history.reportedDrops + r.intake.queue.dropped = r.history.evictedSamples.length ∧
    (r.finalFlushed = true → ∃ later t batch earlier,
      r.history = later ++ ⟨t, .flushed true batch⟩ :: earlier ∧
      r.intake.urgent = History.fatalSamples s later ∧
      r.intake.queue.items <:+ History.queuedSamples later) := by
  have hr := Moves.sampleAccounts h
  obtain ⟨gone, hqueued, hshuffled⟩ := hr.queued_eq
  refine ⟨hr.urgent_eq, ?_, ⟨gone, hqueued, hshuffled⟩, ?_, ?_, hr.drops_eq, ?_⟩
  · rw [hqueued]
    exact hshuffled.sublist_left.trans (List.sublist_append_left _ _)
  · intro later t reading sample old earlier hhistory
    obtain ⟨r₀, hto, hearlier, rfl, hsampling, hsince⟩ :=
      Moves.moment_of_registration h rfl hhistory
    obtain ⟨rest, hitems, hfull⟩ := (Moves.sampleAccounts hto).evicted hsampling
    exact ⟨r₀, rest, hto, hearlier, rfl, hitems, hfull, hsince⟩
  · rw [← hr.threshold_eq]
    exact hr.valid.le_threshold
  · intro hfinal
    exact hr.captured_later ((Moves.coherent h (Run.coherent_new s transport now)).finished hfinal)

/-- Eleven warnings, of which ten may wait, a fatal one that makes the task bring them away, and one
more: one sample was dropped and reported, and the last one waits. -/
theorem Moves.samples_accounted_of_eviction :
    let s : Shipper :=
      { Shipper.plain with
        settings :=
          { entity := "host"
            skipThreshold := 1
            triggers := [{ severity := .warn, multiplier := some (.ofNat 1) }] } }
    let slow : Reading :=
      { key := "app", label := "WARN", severity := .warn, rendered := .ok "slow" }
    let r := (Run.new s (⟨1, true⟩ : Scripted) 0).exec s
      (List.replicate 11 (.register slow) ++
        [.register { slow with fatal := true }, .start true, .sleep 1, .register slow])
    r.history.fatalSamples s = r.history.takenUrgent ∧
      r.history.takenQueued.Sublist r.history.queuedSamples ∧
      r.history.reportedDrops + 0 = r.history.evictedSamples.length ∧
      r.history.evictedSamples.length = 1 := by
  intro s slow r
  have hmoves : Moves s (Run.new s (⟨1, true⟩ : Scripted) 0) r := Moves.exec s _ _
  obtain ⟨hurgent, hqueued, -, -, -, hdrops, -⟩ :=
    Moves.samples_accounted (⟨1, true⟩ : Scripted) 0 hmoves
  have htaken : r.intake.urgent = [] := by decide +kernel
  have hreported : r.intake.queue.dropped = 0 := by decide +kernel
  rw [htaken, List.append_nil] at hurgent
  rw [hreported] at hdrops
  exact ⟨hurgent, hqueued, hdrops, by decide +kernel⟩

end LogShipper
