import LogShipper.Proofs.Aggregator.Counts
import LogShipper.Proofs.Aggregator.Writes

/-!
# Totals survive lost writes

The counters of a lost write are lost, but a total says again what it said before.  `Totalled` is
the invariant: the total of a label stands at its seed and the number of all events with the label
that were registered before the latest flush, and every flush so far has reported such totals.  The
growth of a label in a cycle comes from all keys, so that the invariant needs the counts of every
key (`Counted`).  Writes do not occur in it at all.

No event is registered between a flush and the write that brings its lines away, and so the total
lines of a write count every event before the write (`Gathers.hasFlushed`), those of lost writes
included (`RecordedMoves.totals_survive`).
-/

namespace LogShipper

open Wire Transport

variable {τ : Type} {s : Shipper} {label : Text}

/-! ## The events of a label -/

namespace History

/-- The number of events with a label, whatever their keys. -/
def labelled (label : Text) (h : History) : Nat := h.events.countP fun e => e.label = label

theorem labelled_append (later earlier : History) :
    labelled label (later ++ earlier) = labelled label later + labelled label earlier := by
  unfold labelled events
  rw [select_append, List.countP_append, Nat.add_comm]

theorem labelled_eq_zero {h : History} (hnone : ∀ e ∈ h, e.occurrence.event? = none) :
    labelled label h = 0 := by
  unfold labelled events
  rw [select_eq_nil hnone]
  rfl

/-- Entries that tell no event count for nothing. -/
theorem labelled_append_of_none {later : History} (hnone : ∀ e ∈ later, e.occurrence.event? = none)
    (earlier : History) : labelled label (later ++ earlier) = labelled label earlier := by
  rw [labelled_append, labelled_eq_zero hnone, Nat.zero_add]

theorem labelled_cons_of_none {e : Entry} (he : e.occurrence.event? = none) (h : History) :
    labelled label (e :: h) = labelled label h :=
  labelled_append_of_none (List.forall_mem_singleton.2 he) h

/-- The events of a label are those of all keys together. -/
theorem labelled_eq_sum {h : History} {keys : Finset Text} (hkeys : ∀ e ∈ h.events, e.key ∈ keys) :
    (h.labelled label : Int) = ∑ key ∈ keys, (h.registered key label : Int) := by
  let amounts := h.events.map fun e => ((e.key, e.label), (1 : Int))
  have hlabel : sumAt label (byLabel amounts) = h.labelled label := by
    have hmap : byLabel amounts = h.events.map fun e => (e.label, (1 : Int)) := List.map_map
    rw [hmap, sumAt_ones]
    rfl
  have hkey : ∀ key, sumAt (key, label) amounts = h.registered key label := by
    intro key
    rw [sumAt_ones fun e : Reading => (e.key, e.label)]
    simp [registered]
  rw [← hlabel, sumAt_byLabel label (List.forall_mem_map.2 hkeys)]
  exact Finset.sum_congr rfl fun key _ => hkey key

/-- The events before the latest flush are among all events. -/
theorem events_beforeFlush_subset (h : History) : h.beforeFlush.events ⊆ h.events :=
  (isPrefix_events h.beforeFlush_suffix).subset

end History

/-- What the total of a label is to be after some history, in 64 bits. -/
def Shipper.expectedTotal (s : Shipper) (label : Text) (h : History) : Int :=
  Word.wrap ((s.settings.seed label).toInt + h.labelled label)

/-! ## Runs with right totals -/

/-- All totals stand at what is expected at the latest flush, and those of all flushes did. -/
structure Totalled (s : Shipper) (r : Run τ) : Prop where
  counted : ∀ key label, Counted key label r
  total : ∀ label, r.reporting.series.total label = s.expectedTotal label r.history.beforeFlush
  flushed : ∀ {later t forced batch earlier},
    r.history = later ++ ⟨t, .flushed forced batch⟩ :: earlier →
    ∀ {label value}, (label, value) ∈ batch.totals → value = s.expectedTotal label earlier

/-- What a change leaves alone that is neither a flush nor a registration. -/
structure Steady (r r' : Run τ) : Prop where
  counter : r'.intake.counter = r.intake.counter
  snapshots : r'.reporting.snapshots = r.reporting.snapshots
  series : r'.reporting.series = r.reporting.series
  history : ∃ added, r'.history = added ++ r.history ∧
    ∀ e ∈ added, e.occurrence.event? = none ∧ e.occurrence.isFlush = false

theorem totalled_new (transport : τ) (now : Nat) : Totalled s (Run.new s transport now) := by
  refine ⟨fun _ _ => counted_new transport now, ?_, ?_⟩
  · intro label
    show _ = Word.wrap (_ + 0)
    rw [Int.add_zero]
    exact (Word.wrap_of_isWord (isWord_toInt _)).symm
  · intro later t forced batch earlier hsplit
    cases later <;> cases hsplit

namespace Totalled

variable {r : Run τ}

/-- A steady change keeps the totals. -/
theorem steady {r' : Run τ} (h : Totalled s r) (hr : Steady r r') : Totalled s r' := by
  obtain ⟨added, hadded, hnone⟩ := hr.history
  have hbefore : r'.history.beforeFlush = r.history.beforeFlush := by
    rw [hadded]
    exact History.beforeFlush_append (fun e he => (hnone e he).2) _
  have hevents : r'.history.events = r.history.events := by
    rw [hadded]
    exact History.select_append_of_none (fun e he => (hnone e he).1) _
  refine ⟨?_, ?_, ?_⟩
  · intro key label
    exact (h.counted key label).transfer hr.counter hr.snapshots hevents hbefore
  · intro label
    rw [hr.series, hbefore]
    exact h.total label
  · intro later t forced batch earlier hsplit
    obtain ⟨between, -, hearlier⟩ :=
      History.split_of_forall_not (p := fun e => e.occurrence.isFlush = true)
        (hadded.symm.trans hsplit) (fun e he => by rw [(hnone e he).2]; nofun) rfl
    exact h.flushed hearlier

/-- An event counts from the next flush on. -/
theorem register (h : Totalled s r) (reading : Reading) : Totalled s (r.register s reading).1 := by
  refine ⟨?_, ?_, ?_⟩
  · intro key label
    exact (h.counted key label).register s reading
  · intro label
    rw [Run.reporting_register, Run.history_register, History.beforeFlush_cons]
    exact h.total label
  · intro later t forced batch earlier hsplit
    rw [Run.history_register] at hsplit
    cases later with
    | nil => cases (List.cons.inj hsplit).1
    | cons e later => exact h.flushed (List.cons.inj hsplit).2

/-- A look gives, of each label, the events of all keys since the latest flush. -/
theorem sumAt_look (h : Totalled s r) (label : Text) :
    sumAt label (byLabel (Series.flatten (r.intake.counter.diffAll r.reporting.snapshots).1)) =
      r.history.labelled label - r.history.beforeFlush.labelled label := by
  let deltas := Series.flatten (r.intake.counter.diffAll r.reporting.snapshots).1
  let keys := (deltas.map fun d => d.1.1).toFinset ∪ (r.history.events.map Reading.key).toFinset
  have hdeltas : ∀ d ∈ deltas, d.1.1 ∈ keys := by
    intro d hd
    exact Finset.mem_union_left _ (List.mem_toFinset.2 (List.mem_map_of_mem hd))
  have hevents : ∀ e ∈ r.history.events, e.key ∈ keys := by
    intro e he
    exact Finset.mem_union_right _ (List.mem_toFinset.2 (List.mem_map_of_mem he))
  rw [sumAt_byLabel label hdeltas, History.labelled_eq_sum hevents,
    History.labelled_eq_sum fun e he => hevents e (r.history.events_beforeFlush_subset he),
    ← Finset.sum_sub_distrib]
  exact Finset.sum_congr rfl fun key _ => (h.counted key label).sumAt_look

/-- After a cycle the totals count all events. -/
theorem total_flush (h : Totalled s r) (label : Text) :
    (r.reporting.flush r.now r.intake.counter).1.series.total label =
      s.expectedTotal label r.history := by
  show (r.reporting.series.cycle _).1.total label = _
  rw [Series.total_cycle, h.sumAt_look, h.total, Shipper.expectedTotal, Word.wrap_wrap_add,
    Shipper.expectedTotal]
  congr 1
  omega

/-- A flush reports right totals. -/
theorem flush (h : Totalled s r) (forced : Bool) : Totalled s (r.flush s forced).1 := by
  refine ⟨?_, ?_, ?_⟩
  · intro key label
    exact (h.counted key label).flush s forced
  · intro label
    rw [Run.beforeFlush_flush, Run.flush_eq]
    exact h.total_flush label
  · intro later t forced' batch earlier hsplit label value hvalue
    rw [Run.flush_eq] at hsplit
    have hnotices : ∀ e ∈ Run.noticed r.now (r.flushNotices s).reverse,
        ¬e.occurrence.isFlush = true := Run.forall_mem_noticed.2 fun _ _ => nofun
    obtain ⟨between, -, hbetween⟩ :=
      History.split_of_forall_not (p := fun e => e.occurrence.isFlush = true) hsplit hnotices rfl
    cases between with
    | nil =>
      obtain ⟨hentry, rfl⟩ := List.cons.inj hbetween
      obtain ⟨-, rfl⟩ := Occurrence.flushed.inj (Entry.mk.inj hentry).2
      exact (Series.eq_total_of_mem_batch hvalue).trans (h.total_flush label)
    | cons e between => exact h.flushed (List.cons.inj hbetween).2 hvalue

end Totalled

/-! ## What keeps the totals -/

theorem Run.steady_collect (s : Shipper) (r : Run τ) : Steady r (r.collect s).1 := by
  rw [collect_eq]
  refine ⟨rfl, rfl, rfl, noticed r.now (r.collectNotices s).reverse ++
    [⟨r.now, .collected r.intake.collect.2⟩], by simp, ?_⟩
  refine List.forall_mem_append.2 ⟨?_, List.forall_mem_singleton.2 ⟨rfl, rfl⟩⟩
  exact forall_mem_noticed.2 fun _ _ => ⟨rfl, rfl⟩

/-- A piece of work flushes, or it is steady. -/
theorem Work.steady_or_flush {p p' : Run τ × List Rendered} (hw : Work s p p') :
    Steady p.1 p'.1 ∨ ∃ forced, p'.1 = (p.1.flush s forced).1 := by
  cases hw with
  | announce r lines =>
    refine .inl ⟨rfl, ?_, ?_, [], rfl, List.forall_mem_nil _⟩
    · show (r.reporting.announce r.now).1.snapshots = _
      unfold Reporting.announce
      split <;> rfl
    · show (r.reporting.announce r.now).1.series = _
      unfold Reporting.announce
      split <;> rfl
  | flush r lines forced hdue => exact .inr ⟨forced, rfl⟩
  | collect r lines => exact .inl (r.steady_collect s)
  | attempt r lines =>
    exact .inl ⟨rfl, rfl, rfl, [_], rfl, List.forall_mem_singleton.2 ⟨rfl, rfl⟩⟩
  | note r lines o ho =>
    refine .inl ⟨rfl, rfl, rfl, [_], rfl, List.forall_mem_singleton.2 ?_⟩
    exact ⟨Occurrence.event?_of_isQuiet ho, Occurrence.isFlush_of_isQuiet ho⟩
  | control lines intake reporting history now =>
    exact .inl ⟨by rw [intake], by rw [reporting], by rw [reporting], [], history,
      List.forall_mem_nil _⟩

theorem Work.totalled {p p' : Run τ × List Rendered} (hw : Work s p p') (h : Totalled s p.1) :
    Totalled s p'.1 := by
  rcases hw.steady_or_flush with hsteady | ⟨forced, hflush⟩
  · exact h.steady hsteady
  · rw [hflush]
    exact h.flush forced

theorem Works.totalled {p p' : Run τ × List Rendered} (hw : Works s p p') (h : Totalled s p.1) :
    Totalled s p'.1 :=
  hw.keeps (P := fun p => Totalled s p.1) (fun hw hp => hw.totalled hp) h

/-- All runs have right totals. -/
theorem Moves.totalled [Transport τ] {r r' : Run τ} (h : Moves s r r') (hr : Totalled s r) :
    Totalled s r' :=
  Moves.keeps (P := fun p => Totalled s p.1) (fun hw hp => hw.totalled hp)
    (fun reading hp => hp.register reading) h hr

/-! ## Total lines -/

theorem Reporting.mem_batchLines_total {batch : SeriesBatch Text Text} {value : Int} :
    Line.total label value ∈ batchLines batch ↔ (label, value) ∈ batch.totals := by
  simp [batchLines]

/-- A history at whose latest flush a total was reported, with no event since. -/
def History.HasFlushed (h : History) (label : Text) (value : Int) : Prop :=
  ∃ since t forced batch earlier, h = since ++ ⟨t, .flushed forced batch⟩ :: earlier ∧
    (label, value) ∈ batch.totals ∧
    ∀ e ∈ since, e.occurrence.event? = none ∧ e.occurrence.isFlush = false

/-- The totals of the latest flush count all events if there was none since. -/
theorem Totalled.eq_expectedTotal {r : Run τ} (hr : Totalled s r) {value : Int}
    (h : r.history.HasFlushed label value) : value = s.expectedTotal label r.history := by
  obtain ⟨since, t, forced, batch, earlier, hhistory, hvalue, hnone⟩ := h
  rw [hr.flushed hhistory hvalue]
  unfold Shipper.expectedTotal
  rw [hhistory, History.labelled_append_of_none fun e he => (hnone e he).1,
    History.labelled_cons_of_none rfl]

theorem History.HasFlushed.steady {r r' : Run τ} {value : Int}
    (h : r.history.HasFlushed label value) (hr : Steady r r') :
    r'.history.HasFlushed label value := by
  obtain ⟨since, t, forced, batch, earlier, hhistory, hvalue, hnone⟩ := h
  obtain ⟨added, hadded, hnone'⟩ := hr.history
  refine ⟨added ++ since, t, forced, batch, earlier, ?_, hvalue, ?_⟩
  · rw [hadded, hhistory, List.append_assoc]
  · exact List.forall_mem_append.2 ⟨hnone', hnone⟩

/-- The total lines of a flush report its totals. -/
theorem Run.hasFlushed_flush {r : Run τ} {forced : Bool} {x : Rendered}
    (hx : x ∈ (r.flush s forced).2) {value : Int} (hline : x.line = .total label value) :
    (r.flush s forced).1.history.HasFlushed label value := by
  have hbatch := (s.mem_renderAll hx).1
  rw [hline] at hbatch
  rw [flush_eq]
  refine ⟨_, _, forced, _, _, rfl, Reporting.mem_batchLines_total.1 hbatch, ?_⟩
  exact forall_mem_noticed.2 fun _ _ => ⟨rfl, rfl⟩

/-- The total lines that are gathered come from a flush that was made just now. -/
theorem Gathers.hasFlushed {r gathered : Run τ} {lines : List Rendered}
    (h : Gathers s r gathered lines) {x : Rendered} (hx : x ∈ lines) {value : Int}
    (hline : x.line = .total label value) : gathered.history.HasFlushed label value := by
  have hcollected : ∀ collecting : Run τ, x ∉ (collecting.collect s).2 := by
    intro collecting hx
    obtain ⟨sample, -, hsample⟩ := List.mem_map.1 (s.mem_renderAll hx).1
    cases hsample.trans hline
  cases h with
  | collect => exact absurd hx (hcollected r)
  | pass forced =>
    let announced := (r.note (.passed forced)).announce s
    let flushed := announced.1.flushIfDue s forced
    have hlines : x ∈ announced.2 ++ flushed.2 ++ (flushed.1.collect s).2 := hx
    rcases List.mem_append.1 hlines with hlines | hlines
    · rcases List.mem_append.1 hlines with hannounced | hflushed
      · have hproperty := (s.mem_renderAll hannounced).1
        rw [hline] at hproperty
        unfold Reporting.announce at hproperty
        split at hproperty
        · exact absurd hproperty (by simp [propertyLines])
        · exact absurd hproperty List.not_mem_nil
      · refine History.HasFlushed.steady ?_ (flushed.1.steady_collect s)
        dsimp only [flushed] at hflushed ⊢
        unfold Run.flushIfDue at hflushed ⊢
        split at hflushed
        · rename_i hdue
          rw [if_pos hdue]
          exact Run.hasFlushed_flush hflushed hline
        · exact absurd hflushed List.not_mem_nil
    · exact absurd hlines (hcollected flushed.1)

/-! ## Every moment of a run -/

variable [Transport τ]

/-- A total line of a write comes from a flush since which no event was registered. -/
theorem Moves.total_of_attempt {transport : τ} {now : Nat} {r : Run τ}
    (h : Moves s (Run.new s transport now) r) {later earlier : History} {t : Nat}
    {lines : List Rendered} (hsplit : r.history = later ++ ⟨t, .attempted lines⟩ :: earlier)
    {x : Rendered} (hx : x ∈ lines) {value : Int} (hline : x.line = .total label value) :
    earlier.HasFlushed label value ∧ value = s.expectedTotal label earlier := by
  obtain ⟨before, gathering, gathered, hbefore, hworks, -, hgathers, -, rfl⟩ :=
    h.moment_of_attempt (Run.coherent_new s transport now) rfl hsplit
  have hflushed := hgathers.hasFlushed hx hline
  have hgathered : Totalled s gathered :=
    Works.totalled (hworks.trans hgathers.works) (hbefore.totalled (totalled_new transport now))
  exact ⟨hflushed, hgathered.eq_expectedTotal hflushed⟩

end LogShipper
