import LogShipper.Proofs.Aggregator.Intake
import LogShipper.Proofs.Aggregator.Shutdown
import LogShipper.Proofs.Cycles

/-!
# No event is lost or counted twice

Between its registration and the write that reports it, an event is counted in several places: in
the live counts, in the snapshots of the flush side, in the counters of the series, and in the
lines that are put together.  `Tally` relates them to the history for one key and label: the live
count is the number of events registered, and both the snapshot and the sum of the counter lines
stand at the number that was registered when the series were last flushed.

Every piece of work keeps the tally, whether it flushes or not, and whether the lines reach the
collector or not, so that it holds at every moment (`RecordedMoves.counts_conserved`).
-/

namespace LogShipper

open Wire Transport

/-! ## Amounts on lines -/

/-- The value that a line reports of a key and a label, if it is their counter. -/
def Wire.Line.amount (key label : Text) : Line → Int
  | .counter k l value => if k = key ∧ l = label then value else 0
  | _ => 0

/-- The sum of the values that some lines report of a key and a label. -/
def Wire.Line.amounts (key label : Text) : List Line → Int
  | [] => 0
  | line :: lines => line.amount key label + amounts key label lines

theorem Wire.Line.amounts_append (key label : Text) (xs ys : List Line) :
    amounts key label (xs ++ ys) = amounts key label xs + amounts key label ys := by
  induction xs with
  | nil => exact (Int.zero_add _).symm
  | cons line xs ih => rw [List.cons_append, amounts, amounts, ih, Int.add_assoc]

/-- Lines of which none is the counter of the key and the label report nothing of it. -/
theorem Wire.Line.amounts_eq_zero {key label : Text} {lines : List Line}
    (h : ∀ line ∈ lines, line.amount key label = 0) : amounts key label lines = 0 := by
  induction lines with
  | nil => rfl
  | cons line lines ih =>
    rw [amounts, h line List.mem_cons_self, Int.zero_add]
    exact ih fun line' hline' => h line' (List.mem_cons_of_mem line hline')

/-- The sum of the values that some rendered lines report of a key and a label. -/
def amountOf (key label : Text) (lines : List Rendered) : Int :=
  Line.amounts key label (lines.map Rendered.line)

@[simp] theorem amountOf_nil (key label : Text) : amountOf key label [] = 0 := rfl

@[simp] theorem amountOf_append (key label : Text) (xs ys : List Rendered) :
    amountOf key label (xs ++ ys) = amountOf key label xs + amountOf key label ys := by
  unfold amountOf
  rw [List.map_append, Line.amounts_append]

section Rendering

variable (s : Shipper)

variable {key label : Text}

/-- The counter of a key and a label that are not empty can always be written. -/
theorem Wire.Line.amount_of_error {renderer : Renderer} {line : Line} {e : LineError}
    (hkey : key ≠ []) (hlabel : label ≠ []) (h : renderer.render line = .error e) :
    line.amount key label = 0 := by
  cases line with
  | counter k l value =>
    unfold amount
    apply if_neg
    rintro ⟨rfl, rfl⟩
    unfold Renderer.render at h
    dsimp only at h
    rw [if_neg (by simpa using hkey), if_neg (by simpa using hlabel)] at h
    cases h
  | _ => rfl

/-- No amount is lost in the rendering. -/
theorem Shipper.amountOf_renderAll (hkey : key ≠ []) (hlabel : label ≠ []) (lines : List Line) :
    amountOf key label (s.renderAll lines).1 = Line.amounts key label lines := by
  induction lines with
  | nil => rfl
  | cons line lines ih =>
    rw [s.renderAll_cons, Line.amounts, ← ih]
    split
    · rfl
    · rename_i e herror
      rw [Line.amount_of_error hkey hlabel herror, Int.zero_add]

/-- What the lines of a batch report. -/
theorem Wire.Line.amounts_batchLines (batch : SeriesBatch Text Text) :
    amounts key label (Reporting.batchLines batch) = sumAt (key, label) batch.counters := by
  have hcounters : ∀ counters : List ((Text × Text) × Int),
      amounts key label (counters.map fun c => Line.counter c.1.1 c.1.2 c.2) =
        sumAt (key, label) counters := by
    intro counters
    induction counters with
    | nil => rfl
    | cons c counters ih =>
      rw [List.map_cons, amounts, ih, sumAt_cons]
      simp [amount, Prod.ext_iff]
  unfold Reporting.batchLines
  rw [amounts_append, hcounters, amounts_eq_zero, Int.add_zero]
  exact List.forall_mem_map.2 fun _ _ => rfl

/-- Messages report no count. -/
theorem Wire.Line.amounts_messages (samples : List Sample) :
    amounts key label (samples.map Line.message) = 0 :=
  amounts_eq_zero (List.forall_mem_map.2 fun _ _ => rfl)

end Rendering

/-! ## The tally of a key and a label -/

/-- The number of events with a key and a label that were registered. -/
def History.registered (key label : Text) (h : History) : Nat :=
  h.events.countP fun reading => reading.key = key ∧ reading.label = label

variable {τ : Type} {s : Shipper} {key label : Text}

theorem Run.attempts_note_attempted (r : Run τ) (lines : List Rendered) :
    (r.note (.attempted lines)).history.attempts = r.history.attempts ++ [lines] :=
  History.select_cons _ _ _

theorem Run.attempts_note (r : Run τ) {o : Occurrence} (ho : o.isQuiet) :
    (r.note o).history.attempts = r.history.attempts := by
  simp [note, History.attempts, Occurrence.attempt?_of_isQuiet ho]

/-- A part of a history tells of no more events than the whole. -/
theorem History.registered_beforeFlush_le (h : History) :
    h.beforeFlush.registered key label ≤ h.registered key label :=
  (isPrefix_events h.beforeFlush_suffix).sublist.countP_le

/-- The live count of a key and a label, and the one that the flush side saw last, agree with the
history. -/
structure Counted (key label : Text) (r : Run τ) : Prop where
  counted : r.intake.counter.count key label = r.history.registered key label
  seen : EventCounter.seen r.reporting.snapshots key label =
    r.history.beforeFlush.registered key label

theorem counted_new (transport : τ) (now : Nat) : Counted key label (Run.new s transport now) where
  counted := rfl
  seen := rfl

namespace Counted

variable {r : Run τ}

/-- Counts depend on the counts, the snapshots, the events and the flushes. -/
theorem transfer {r' : Run τ} (h : Counted key label r)
    (hcounter : r'.intake.counter = r.intake.counter)
    (hsnapshots : r'.reporting.snapshots = r.reporting.snapshots)
    (hevents : r'.history.events = r.history.events)
    (hbefore : r'.history.beforeFlush = r.history.beforeFlush) : Counted key label r' where
  counted := by
    rw [hcounter, History.registered, hevents]
    exact h.counted
  seen := by
    rw [hsnapshots, hbefore]
    exact h.seen

/-- An event is counted where it is registered. -/
theorem register (h : Counted key label r) (s : Shipper) (reading : Reading) :
    Counted key label (r.register s reading).1 := by
  have hevents : (r.register s reading).1.history.events = r.history.events ++ [reading] := by
    simp [History.events, Occurrence.event?]
  have hbefore : (r.register s reading).1.history.beforeFlush = r.history.beforeFlush := by
    simp [Occurrence.isFlush]
  refine ⟨?_, ?_⟩
  · rw [Run.intake_register, Intake.counter_register, EventCounter.count_increment, h.counted,
      History.registered, History.registered, hevents, List.countP_append]
    congr 1
    by_cases hkey : key = reading.key ∧ label = reading.label
    · obtain ⟨rfl, rfl⟩ := hkey
      simp
    · rw [if_neg hkey, List.countP_singleton, if_neg]
      intro hreading
      obtain ⟨hkey', hlabel'⟩ := of_decide_eq_true hreading
      exact hkey ⟨hkey'.symm, hlabel'.symm⟩
  · rw [Run.reporting_register, hbefore]
    exact h.seen

theorem seen_nonneg (h : Counted key label r) :
    0 ≤ EventCounter.seen r.reporting.snapshots key label := by
  rw [h.seen]
  exact Int.natCast_nonneg _

theorem seen_le (h : Counted key label r) :
    EventCounter.seen r.reporting.snapshots key label ≤ r.intake.counter.count key label := by
  rw [h.seen, h.counted]
  exact Int.ofNat_le.2 r.history.registered_beforeFlush_le

/-- A look gives the events since the latest flush. -/
theorem sumAt_look (h : Counted key label r) :
    sumAt (key, label)
        (Series.flatten (r.intake.counter.diffAll r.reporting.snapshots).1) =
      r.history.registered key label - r.history.beforeFlush.registered key label := by
  rw [EventCounter.sumAt_diffAll _ h.seen_nonneg h.seen_le, h.seen, h.counted]

/-- A flush reports them, as no counter takes more than one delta. -/
theorem sumAt_counters (h : Counted key label r) :
    sumAt (key, label) (r.reporting.flush r.now r.intake.counter).2.counters =
      r.history.registered key label - r.history.beforeFlush.registered key label := by
  have hdistinct := EventCounter.nodup_flatten
    (r.intake.counter.nodup_diffAll r.reporting.snapshots)
  show sumAt (key, label) (r.reporting.series.cycle _).2.counters = _
  rw [Series.sumAt_counters_cycle, addWords_of_nodup hdistinct, h.sumAt_look]

/-- After a flush all events were seen. -/
theorem flush (h : Counted key label r) (s : Shipper) (forced : Bool) :
    Counted key label (r.flush s forced).1 := by
  refine ⟨?_, ?_⟩
  · rw [History.registered, Run.events_flush, Run.flush_eq]
    exact h.counted
  · rw [Run.beforeFlush_flush, Run.flush_eq]
    show EventCounter.seen (r.intake.counter.diffAll r.reporting.snapshots).2 key label = _
    rw [EventCounter.seen_diffAll _ h.seen_nonneg h.seen_le, h.counted]

end Counted

/-- The places in which the events of a key and a label are counted agree with the history. -/
structure Tally (key label : Text) (r : Run τ) (lines : List Rendered) : Prop where
  counted : r.intake.counter.count key label = r.history.registered key label
  seen : EventCounter.seen r.reporting.snapshots key label =
    r.history.beforeFlush.registered key label
  reported : amountOf key label r.history.attempts.flatten + amountOf key label lines =
    r.history.beforeFlush.registered key label

/-- The counts of a tally. -/
theorem Tally.isCounted {r : Run τ} {lines : List Rendered} (h : Tally key label r lines) :
    Counted key label r := ⟨h.counted, h.seen⟩

theorem tally_new (transport : τ) (now : Nat) : Tally key label (Run.new s transport now) [] where
  counted := rfl
  seen := rfl
  reported := rfl

/-- The tally of a run is one of any run with the same counts, snapshots, events, writes and
flushes. -/
theorem Tally.transfer {r r' : Run τ} {lines : List Rendered} (h : Tally key label r lines)
    (hcounter : r'.intake.counter = r.intake.counter)
    (hsnapshots : r'.reporting.snapshots = r.reporting.snapshots)
    (hevents : r'.history.events = r.history.events)
    (hattempts : r'.history.attempts = r.history.attempts)
    (hbefore : r'.history.beforeFlush = r.history.beforeFlush) : Tally key label r' lines := by
  have hcounted := h.isCounted.transfer hcounter hsnapshots hevents hbefore
  refine ⟨hcounted.counted, hcounted.seen, ?_⟩
  rw [hattempts, hbefore]
  exact h.reported

/-- Lines without amount change nothing. -/
theorem Tally.append {r : Run τ} {lines : List Rendered} (h : Tally key label r lines)
    {further : List Rendered} (hfurther : amountOf key label further = 0) :
    Tally key label r (lines ++ further) :=
  { h with
    reported := by
      rw [amountOf_append, hfurther, Int.add_zero]
      exact h.reported }

/-- What is registered is not yet reported. -/
theorem Tally.register {r : Run τ} {lines : List Rendered} (h : Tally key label r lines)
    (s : Shipper) (reading : Reading) : Tally key label (r.register s reading).1 lines := by
  have hcounted := h.isCounted.register s reading
  have hattempts : (r.register s reading).1.history.attempts = r.history.attempts := by
    simp [History.attempts, Occurrence.attempt?]
  have hbefore : (r.register s reading).1.history.beforeFlush = r.history.beforeFlush := by
    simp [Occurrence.isFlush]
  refine ⟨hcounted.counted, hcounted.seen, ?_⟩
  rw [hattempts, hbefore]
  exact h.reported

/-- What a flush reports beyond what was reported before. -/
theorem Tally.flush {r : Run τ} {lines : List Rendered} (h : Tally key label r lines)
    (hkey : key ≠ []) (hlabel : label ≠ []) (forced : Bool) :
    Tally key label (r.flush s forced).1 (lines ++ (r.flush s forced).2) := by
  let flushed := r.reporting.flush r.now r.intake.counter
  have hcounted := h.isCounted.flush s forced
  have hlines : amountOf key label (r.flush s forced).2 =
      r.history.registered key label - r.history.beforeFlush.registered key label := by
    show amountOf key label (s.renderAll (Reporting.batchLines flushed.2)).1 = _
    rw [s.amountOf_renderAll hkey hlabel, Line.amounts_batchLines]
    exact h.isCounted.sumAt_counters
  refine ⟨hcounted.counted, hcounted.seen, ?_⟩
  have hreported := h.reported
  rw [Run.attempts_flush, Run.beforeFlush_flush, amountOf_append, hlines]
  omega

/-- Collecting samples touches no count. -/
theorem Tally.collect {r : Run τ} {lines : List Rendered} (h : Tally key label r lines)
    (hkey : key ≠ []) (hlabel : label ≠ []) :
    Tally key label (r.collect s).1 (lines ++ (r.collect s).2) := by
  have hlines : amountOf key label (r.collect s).2 = 0 := by
    show amountOf key label (s.renderAll (r.intake.collect.2.samples.map Line.message)).1 = 0
    rw [s.amountOf_renderAll hkey hlabel, Line.amounts_messages]
  refine Tally.append (h.transfer ?_ ?_ ?_ ?_ ?_) hlines
  · rw [Run.collect_eq]
    rfl
  · rw [Run.collect_eq]
  · exact r.events_collect s
  · exact r.attempts_collect s
  · exact r.beforeFlush_collect s

/-- What is announced is no count. -/
theorem Tally.announce {r : Run τ} {lines : List Rendered} (h : Tally key label r lines)
    (hkey : key ≠ []) (hlabel : label ≠ []) :
    Tally key label (r.announce s).1 (lines ++ (r.announce s).2) := by
  have hlines : amountOf key label (r.announce s).2 = 0 := by
    show amountOf key label (s.renderAll (r.reporting.announce r.now).2).1 = 0
    rw [s.amountOf_renderAll hkey hlabel]
    unfold Reporting.announce
    split <;> rfl
  have hsnapshots : (r.announce s).1.reporting.snapshots = r.reporting.snapshots := by
    show (r.reporting.announce r.now).1.snapshots = _
    unfold Reporting.announce
    split <;> rfl
  have hannounced : Tally key label (r.announce s).1 lines :=
    h.transfer rfl hsnapshots rfl rfl rfl
  exact hannounced.append hlines

/-- The lines in hand become those of a write. -/
theorem Tally.attempt {r : Run τ} {lines : List Rendered} (h : Tally key label r lines) :
    Tally key label (r.note (.attempted lines)) [] := by
  have hevents : (r.note (.attempted lines)).history.events = r.history.events :=
    (History.select_cons _ _ _).trans (List.append_nil _)
  refine ⟨?_, h.seen, ?_⟩
  · rw [History.registered, hevents]
    exact h.counted
  · rw [Run.attempts_note_attempted, List.flatten_append, amountOf_append,
      List.flatten_singleton]
    exact (Int.add_zero _).trans h.reported

theorem Tally.note {r : Run τ} {lines : List Rendered} (h : Tally key label r lines)
    {o : Occurrence} (ho : o.isQuiet) : Tally key label (r.note o) lines := by
  refine h.transfer rfl rfl ?_ (r.attempts_note ho) ?_
  · simp [Run.note, History.events, Occurrence.event?_of_isQuiet ho]
  · simp [Run.note, Occurrence.isFlush_of_isQuiet ho]

/-- Every piece of work keeps the tally. -/
theorem Work.tally (hkey : key ≠ []) (hlabel : label ≠ []) {p p' : Run τ × List Rendered}
    (hw : Work s p p') (h : Tally key label p.1 p.2) : Tally key label p'.1 p'.2 := by
  cases hw with
  | announce r lines => exact h.announce hkey hlabel
  | flush r lines forced hdue => exact h.flush hkey hlabel forced
  | collect r lines => exact h.collect hkey hlabel
  | attempt r lines => exact h.attempt
  | note r lines o ho => exact h.note ho
  | control lines intake reporting history now =>
    exact h.transfer (by rw [intake]) (by rw [reporting]) (by rw [history]) (by rw [history])
      (by rw [history])

/-- The lines of all writes, and those in hand, carry the text that the renderer gives them. -/
theorem Work.render_eq {p p' : Run τ × List Rendered} (hw : Work s p p')
    (h : ∀ x ∈ p.1.history.attempts.flatten ++ p.2, s.renderer.render x.line = .ok x.text) :
    ∀ x ∈ p'.1.history.attempts.flatten ++ p'.2, s.renderer.render x.line = .ok x.text := by
  have happend : ∀ {attempts : List (List Rendered)} {lines : List Rendered} (new : List Line),
      (∀ x ∈ attempts.flatten ++ lines, s.renderer.render x.line = .ok x.text) →
      ∀ x ∈ attempts.flatten ++ (lines ++ (s.renderAll new).1),
        s.renderer.render x.line = .ok x.text := by
    intro attempts lines new hold x hx
    rw [← List.append_assoc] at hx
    rcases List.mem_append.1 hx with hx | hx
    · exact hold x hx
    · exact (s.mem_renderAll hx).2
  cases hw with
  | announce r lines => exact happend _ h
  | flush r lines forced hdue =>
    rw [← r.attempts_flush s forced] at h
    exact happend _ h
  | collect r lines =>
    rw [← r.attempts_collect s] at h
    exact happend _ h
  | attempt r lines =>
    rw [r.attempts_note_attempted, List.flatten_append, List.flatten_singleton, List.append_nil]
    exact h
  | note r lines o ho =>
    rw [r.attempts_note ho]
    exact h
  | control lines intake reporting history now =>
    rw [history]
    exact h

/-! ## Every moment of a run -/

variable [Transport τ]

/-- The lines of all writes carry the text that the renderer gives them. -/
theorem Moves.render_attempts {transport : τ} {now : Nat} {r : Run τ}
    (h : Moves s (Run.new s transport now) r) :
    ∀ x ∈ r.history.attempts.flatten, s.renderer.render x.line = .ok x.text := by
  let Rendering (p : Run τ × List Rendered) :=
    ∀ x ∈ p.1.history.attempts.flatten ++ p.2, s.renderer.render x.line = .ok x.text
  have hrendering : Rendering (r, []) := by
    refine Moves.keeps (P := Rendering) (fun hw => hw.render_eq) (fun reading hr => ?_) h
      (fun x hx => absurd hx List.not_mem_nil)
    simpa [Rendering, History.attempts, Occurrence.attempt?] using hr
  intro x hx
  exact hrendering x (List.mem_append_left _ hx)

/-- **Counts are conserved.**  For a key and a label that are not empty, the counter lines of all
writes that began add up, at every moment, to the number of events registered before the latest
flush; the lines are those that the renderer writes.  The payloads that the transport was given
carry these lines, all of them while no write goes on.  Once the last pass was made, the latest
flush is its forced one, and so the events registered before the last pass are reported exactly. -/
theorem RecordedMoves.counts_conserved (transport : τ) (now : Nat) (hkey : key ≠ [])
    (hlabel : label ≠ []) {r : Run (Recorded τ)}
    (h : RecordedMoves s (Run.new s (.of transport) now) r) :
    r.Attested ∧
    (r.task.pending? = none → List.Forall₂ Carries r.transport.payloads r.history.attempts) ∧
    (∀ x ∈ r.history.attempts.flatten, s.renderer.render x.line = .ok x.text) ∧
    amountOf key label r.history.attempts.flatten = r.history.beforeFlush.registered key label ∧
    (r.finalFlushed = true → ∃ later t batch earlier,
      r.history = later ++ ⟨t, .flushed true batch⟩ :: earlier ∧
      (∀ e ∈ later, e.occurrence.isFlush = false) ∧
      amountOf key label r.history.attempts.flatten = History.registered key label earlier) := by
  have htally : Tally key label r [] :=
    Moves.keeps (P := fun p => Tally key label p.1 p.2) (fun hw => hw.tally hkey hlabel)
      (fun reading ht => ht.register s reading) h.moves (tally_new (Recorded.of transport) now)
  have hreported : amountOf key label r.history.attempts.flatten =
      r.history.beforeFlush.registered key label := (Int.add_zero _).symm.trans htally.reported
  refine ⟨h.attested, h.attested.payloads_of_free, h.moves.render_attempts, hreported, ?_⟩
  intro hfinal
  have hr := h.moves.coherent (Run.coherent_new s (Recorded.of transport) now)
  obtain ⟨later, t, batch, earlier, hhistory, hlater⟩ := (hr.finished hfinal).flushed
  refine ⟨later, t, batch, earlier, hhistory, hlater, ?_⟩
  rw [hreported, hhistory, History.beforeFlush_append hlater, History.beforeFlush_cons]
  rfl

/-- A fatal event that woke the task, its write lost, and one registered afterwards: once the
shipper is stopped, two were reported on the payloads that its transport was given. -/
theorem RecordedMoves.counts_conserved_of_failure :
    let reading : Reading :=
      { key := "app", label := "ERROR", severity := .error, rendered := .ok "boom", fatal := true }
    let r := (Run.new Shipper.plain (.of (⟨1, true⟩ : Scripted)) 0).exec Shipper.plain
      ([.start true, .register reading, .sleep 2, .register reading, .stop].map Step.recorded)
    List.Forall₂ Carries r.transport.payloads r.history.attempts ∧
      amountOf "app" "ERROR" r.history.attempts.flatten = 2 := by
  intro reading r
  have hmoves : RecordedMoves Shipper.plain (Run.new Shipper.plain (.of ⟨1, true⟩) 0) r :=
    RecordedMoves.exec Shipper.plain _ _
  obtain ⟨-, hcarried, -, hreported, -⟩ := RecordedMoves.counts_conserved (⟨1, true⟩ : Scripted) 0
    (by decide : "app".toList ≠ []) (by decide : "ERROR".toList ≠ []) hmoves
  refine ⟨hcarried (by decide +kernel), ?_⟩
  rw [hreported]
  decide +kernel

end LogShipper
