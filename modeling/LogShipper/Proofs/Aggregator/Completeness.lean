import LogShipper.Proofs.Aggregator.Registration

/-!
# What the last pass leaves out

The last pass flushes in any case, and no flush forgets what an earlier one knew.  So every event
that was registered before the last pass is among those before the latest flush, once the last pass
was made (`Moves.suffix_beforeFlush`).

The counter lines of all writes report of each key and label what was registered before the latest
flush.  Where all events have a key and a label, the sum of all of them is the number of the events
before that flush (`Moves.sumAll_countersOn`).
-/

namespace LogShipper

open Wire Transport

variable {τ : Type} {s : Shipper}

/-! ## What had happened at the latest flush -/

/-- Work takes nothing from a history, nor from what had happened at its latest flush. -/
theorem Work.suffix {p p' : Run τ × List Rendered} (hw : Work s p p') :
    p.1.history <:+ p'.1.history ∧ p.1.history.beforeFlush <:+ p'.1.history.beforeFlush := by
  constructor
  · obtain ⟨added, hadded, -⟩ := hw.extends
    exact ⟨added, hadded.symm⟩
  · rcases hw.steady_or_flush with hsteady | ⟨forced, hflush⟩
    · obtain ⟨added, hadded, hnone⟩ := hsteady.history
      rw [hadded, History.beforeFlush_append fun e he => (hnone e he).2]
    · rw [hflush, Run.beforeFlush_flush]
      exact p.1.history.beforeFlush_suffix

variable [Transport τ] {r r' : Run τ}

theorem Moves.suffix (h : Moves s r r') :
    r.history <:+ r'.history ∧ r.history.beforeFlush <:+ r'.history.beforeFlush := by
  refine Moves.keeps (P := fun p => r.history <:+ p.1.history ∧
    r.history.beforeFlush <:+ p.1.history.beforeFlush) ?_ ?_ h
    ⟨List.suffix_refl _, List.suffix_refl _⟩
  · intro p p' hw hp
    exact ⟨hp.1.trans hw.suffix.1, hp.2.trans hw.suffix.2⟩
  · intro x reading hx
    rw [Run.history_register, History.beforeFlush_cons]
    exact ⟨hx.1.trans (List.suffix_cons _ _), hx.2⟩

/-! ## The last pass -/

/-- Whatever the task does but the last pass leaves the cancellation and the mark of the last pass
alone. -/
theorem Run.Advance.marks {next : Run τ} (ha : r.Advance s next) :
    (next.cancelled = r.cancelled ∧ next.finalFlushed = r.finalFlushed) ∨
      r.cancelled = true ∧ next = (r.note (.noticed .shuttingDown)).finish s := by
  cases ha with
  | begin htask => exact .inl ⟨rfl, rfl⟩
  | finish htask hcancelled => exact .inr ⟨hcancelled, rfl⟩
  | @wake _ due woken htask hcancelled hwakeups hwoken =>
    obtain ⟨_, _, _, _, hsent, -⟩ :=
      (woken.collect s).1.send_eq (woken.collect s).2 (.resume due)
    rw [hsent, collect_eq, hwoken]
    exact .inl ⟨rfl, rfl⟩
  | @tick _ due htask hcancelled hwakeups hdue =>
    obtain ⟨_, _, _, _, _, hgathered, -⟩ := r.gathered_eq s false
    obtain ⟨_, _, _, _, hsent, -⟩ :=
      (r.gathered s false).1.send_eq (r.gathered s false).2 (.resume (nextTick s due r.now))
    rw [pass_eq, hsent, hgathered]
    exact .inl ⟨rfl, rfl⟩
  | wait htask hcancelled hwakeups hdue => exact .inl ⟨rfl, rfl⟩
  | @complete lines ends following htask hends =>
    obtain ⟨_, _, _, hcompleted, -⟩ := r.complete_eq lines following
    rw [hcompleted]
    exact .inl ⟨rfl, rfl⟩

/-- A task that was not told to end does not make the last pass. -/
theorem Drift.ongoing (h : Drift s r r') (hcancelled : r.cancelled = false) :
    r'.cancelled = false ∧ r'.finalFlushed = r.finalFlushed := by
  cases h with
  | elapse instant => exact ⟨hcancelled, rfl⟩
  | advance hnext =>
    rcases (Run.advance_of_advance? hnext).marks with ⟨hsame, hmark⟩ | ⟨htold, -⟩
    · exact ⟨hsame.trans hcancelled, hmark⟩
    · cases htold.symm.trans hcancelled

theorem Drift.events_eq (h : Drift s r r') : r'.history.events = r.history.events := by
  cases h with
  | advance hnext => exact (Works.advance (Run.advance_of_advance? hnext)).events_eq
  | elapse instant => rfl

/-- Stopping registers nothing. -/
theorem Run.events_stop (s : Shipper) (r : Run τ) :
    (r.stop s).history.events = r.history.events :=
  stop_keeps (P := fun x => x.history.events = r.history.events)
    (fun hdrift hx => hdrift.events_eq.trans hx)
    (fun {x} hx => (Works.concludeStop x).events_eq.trans hx) (Works.requestStop r).events_eq

/-- What happened before the last pass had happened at its flush. -/
theorem Run.suffix_finish (r : Run τ) (hfresh : r.finalFlushed = false) :
    r.history <:+ (r.finish s).history.beforeFlush := by
  obtain ⟨later, batch, hhistory, hlater⟩ := r.history_finish s hfresh
  rw [hhistory, History.beforeFlush_append hlater]
  exact List.suffix_cons _ _

/-- The move that makes the last pass leaves nothing out. -/
theorem Move.last_pass (hm : Move s r r') (hfresh : r.finalFlushed = false) :
    r'.finalFlushed = false ∨ r.history <:+ r'.history.beforeFlush := by
  cases hm with
  | register reading =>
    obtain ⟨_, heq⟩ := r.register_eq s reading
    rw [heq]
    exact .inl hfresh
  | start inRuntime =>
    rcases r.start_cases inRuntime with heq | ⟨-, heq⟩
    · rw [heq]
      exact .inl hfresh
    · rw [heq]
      exact .inl hfresh
  | cancel => exact .inl hfresh
  | requestStop =>
    rcases r.requestStop_cases s with ⟨-, heq⟩ | ⟨-, heq⟩ | ⟨-, heq⟩
    · rw [heq]
      exact .inr (Run.suffix_finish { r with lifecycle := .stopped } hfresh)
    · rw [heq]
      exact .inl hfresh
    · rw [heq]
      exact .inl hfresh
  | concludeStop =>
    rcases r.concludeStop_cases s with ⟨-, heq⟩ | heq
    · rw [heq]
      exact .inr (r.suffix_finish hfresh)
    · rw [heq]
      exact .inl hfresh
  | advance hnext =>
    rcases (Run.advance_of_advance? hnext).marks with ⟨-, hmark⟩ | ⟨-, rfl⟩
    · exact .inl (hmark.trans hfresh)
    · have hnoted := (r.note (.noticed .shuttingDown)).suffix_finish (s := s) hfresh
      exact .inr ((List.suffix_cons _ _).trans hnoted)
  | elapse instant => exact .inl hfresh
  | pace durations => exact .inl hfresh
  | disturb change => exact .inl hfresh

/-- Once the last pass was made, all that happened before it had happened at the latest flush. -/
theorem Moves.suffix_beforeFlush (h : Moves s r r') (hfresh : r.finalFlushed = false)
    (hfinal : r'.finalFlushed = true) : r.history <:+ r'.history.beforeFlush := by
  induction h with
  | refl => cases hfresh.symm.trans hfinal
  | @tail x x' hfirst hlast ih =>
    cases hx : x.finalFlushed with
    | true => exact (ih hx).trans (Moves.suffix (.single hlast)).2
    | false =>
      rcases hlast.last_pass hx with hopen | hsuffix
      · cases hopen.symm.trans hfinal
      · exact (Moves.suffix hfirst).1.trans hsuffix

/-- If no event was registered any more, the events before the latest flush are all events. -/
theorem Moves.events_beforeFlush (h : Moves s r r') (hfresh : r.finalFlushed = false)
    (hfinal : r'.finalFlushed = true) (hevents : r'.history.events = r.history.events) :
    r'.history.beforeFlush.events = r'.history.events := by
  have hbefore := History.isPrefix_events r'.history.beforeFlush_suffix
  have hafter := History.isPrefix_events (h.suffix_beforeFlush hfresh hfinal)
  rw [← hevents] at hafter
  exact hbefore.eq_of_length_le hafter.length_le

/-! ## The sum of all counter lines -/

/-- What a line reports, if it is the counter of a key and a label. -/
def Wire.Line.counter? : Line → Option ((Text × Text) × Int)
  | .counter key label value => some ((key, label), value)
  | _ => none

/-- What the counters among some lines report. -/
def countersOn (lines : List Rendered) : List ((Text × Text) × Int) :=
  lines.filterMap fun x => x.line.counter?

/-- The amount of a key and a label on the counters among some lines. -/
theorem sumAt_countersOn (key label : Text) (lines : List Rendered) :
    sumAt (key, label) (countersOn lines) = amountOf key label lines := by
  unfold countersOn amountOf
  induction lines with
  | nil => rfl
  | cons x lines ih =>
    rw [List.filterMap_cons, List.map_cons, Line.amounts, ← ih]
    cases x.line with
    | counter k l value => simp [Line.counter?, Line.amount]
    | _ => simp [Line.counter?, Line.amount]

/-- A counter can be written exactly if it has a key and a label. -/
theorem Wire.Renderer.exists_render_counter_iff {renderer : Renderer} {key label : Text}
    {value : Int} : (∃ text, renderer.render (.counter key label value) = .ok text) ↔
      key ≠ [] ∧ label ≠ [] := by
  unfold render
  dsimp only
  cases key <;> cases label <;> simp

/-- The tally of a run. -/
theorem Moves.tally {transport : τ} {now : Nat} {key label : Text} (hkey : key ≠ [])
    (hlabel : label ≠ []) (h : Moves s (Run.new s transport now) r) : Tally key label r [] :=
  Moves.keeps (P := fun p => Tally key label p.1 p.2) (fun hw => hw.tally hkey hlabel)
    (fun reading ht => ht.register s reading) h (tally_new transport now)

/-- Where all events have a key and a label, the counter lines of all writes add up to the number of
events before the latest flush. -/
theorem Moves.sumAll_countersOn {transport : τ} {now : Nat}
    (h : Moves s (Run.new s transport now) r)
    (hnamed : ∀ reading ∈ r.history.events, reading.key ≠ [] ∧ reading.label ≠ []) :
    sumAll (countersOn r.history.attempts.flatten) = r.history.beforeFlush.events.length := by
  let pair (reading : Reading) : Text × Text := (reading.key, reading.label)
  let counters := countersOn r.history.attempts.flatten
  let ones := r.history.beforeFlush.events.map fun reading => (pair reading, (1 : Int))
  let keys := ((counters ++ ones).map Prod.fst).toFinset
  have hkeys : ∀ e ∈ counters ++ ones, e.1 ∈ keys := fun e he =>
    List.mem_toFinset.2 (List.mem_map_of_mem he)
  obtain ⟨hcounters, hones⟩ := List.forall_mem_append.1 hkeys
  have hnames : ∀ k ∈ keys, k.1 ≠ [] ∧ k.2 ≠ [] := by
    intro k hk
    obtain ⟨e, he, rfl⟩ := List.mem_map.1 (List.mem_toFinset.1 hk)
    rcases List.mem_append.1 he with he | he
    · obtain ⟨x, hx, hline⟩ := List.mem_filterMap.1 he
      have hrender := h.render_attempts x hx
      cases hcounter : x.line with
      | counter key label value =>
        rw [hcounter] at hline hrender
        obtain rfl := Option.some.inj hline
        exact Renderer.exists_render_counter_iff.1 ⟨_, hrender⟩
      | _ =>
        rw [hcounter] at hline
        cases hline
    · obtain ⟨reading, hreading, rfl⟩ := List.mem_map.1 he
      exact hnamed reading (r.history.events_beforeFlush_subset hreading)
  rw [← sumAll_ones pair, sumAll_eq_sum hcounters, sumAll_eq_sum hones]
  refine Finset.sum_congr rfl fun k hk => ?_
  obtain ⟨hkey, hlabel⟩ := hnames k hk
  have hreported := (h.tally hkey hlabel).reported
  rw [sumAt_ones pair, sumAt_countersOn]
  refine (Int.add_zero _).symm.trans (hreported.trans ?_)
  unfold History.registered
  congr 2
  funext reading
  simp [pair, Prod.ext_iff]

/-! ## The end of a run -/

/-- The run has ended with `n` events, which are all counted and were all put on counter lines. -/
structure Run.Reported (n : Nat) (r : Run τ) : Prop where
  ended : r.task = .ended
  totalEvents_eq : r.intake.totalEvents = n
  counters_eq : sumAll (countersOn r.history.attempts.flatten) = n

/-- Since its beginning, the run has handed the lines of all its writes to its transport.  With a
record, it is a run whose transport was given one payload for each write, which carries the lines of
that write as the renderer gives them. -/
def Run.HandsOver (s : Shipper) (transport : τ) (now : Nat) (r : Run τ) : Prop :=
  ∃ q : Run (Recorded τ), RecordedMoves s (Run.new s (.of transport) now) q ∧ q.forget = r ∧
    List.Forall₂ Carries q.transport.payloads r.history.attempts ∧
    ∀ x ∈ r.history.attempts.flatten, s.renderer.render x.line = .ok x.text

/-- A run hands its lines over, each write as soon as the task is done with it. -/
theorem Moves.handsOver {transport : τ} {now : Nat} (h : Moves s (Run.new s transport now) r)
    (hfree : r.task.pending? = none) : r.HandsOver s transport now := by
  have hlines := h.render_attempts
  obtain ⟨q, hq, rfl⟩ := (Moves.iff_exists_recorded (q := Run.new s (.of transport) now)).1 h
  exact ⟨q, hq, rfl, hq.attested.payloads_of_free hfree, hlines⟩

/-- If all events that were ever registered were so before the last pass, and have a key and a label,
the run ends with all of them. -/
theorem Moves.reported {transport : τ} {now : Nat} (hfirst : Moves s (Run.new s transport now) r)
    (hfresh : r.finalFlushed = false) (h : Moves s r r') (hended : r'.task = .ended)
    (hevents : r'.history.events = r.history.events)
    (hnamed : ∀ reading ∈ r.history.events, reading.key ≠ [] ∧ reading.label ≠ []) :
    r'.Reported r.history.events.length := by
  have hall : Moves s (Run.new s transport now) r' := hfirst.trans h
  have hfinal : r'.finalFlushed = true := by
    rw [(Moves.coherent hall (Run.coherent_new s transport now)).finalFlushed_eq, hended]
    rfl
  constructor
  · exact hended
  · rw [(hall.countsAll ⟨rfl, rfl⟩).totalEvents_eq, hevents]
  · rw [hall.sumAll_countersOn (by rw [hevents]; exact hnamed),
      h.events_beforeFlush hfresh hfinal hevents, hevents]

end LogShipper
