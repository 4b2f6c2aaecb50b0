import LogShipper.Proofs.Aggregator.Attention
import LogShipper.Proofs.Aggregator.Counts
import LogShipper.Proofs.Aggregator.Samples

/-!
# No fatal sample is stranded

A sample that is brought away becomes a message line, unless it has no key or no label, and the line
goes into the write that follows.  `Dispatched` says that nothing gets lost on this way: the samples
on the lines of all writes, together with those on the lines in hand, are those that were brought
away and can be written.

Whenever the flush task of a running shipper neither writes nor can do anything, no fatal sample
waits.  So from any moment on, the fatal samples captured since then stand, in order, on the lines
of the writes that began since then (`RecordedMoves.no_fatal_stranded`).
-/

namespace LogShipper

open Wire Transport

/-! ## Samples on lines -/

/-- Whether a sample can be written: it has a key and a label. -/
def Sample.isWritable (sample : Sample) : Bool := !sample.key.isEmpty && !sample.label.isEmpty

/-- The sample of a message line. -/
def Wire.Line.sample? : Line → Option Sample
  | .message sample => some sample
  | _ => none

/-- The samples on some rendered lines, in order. -/
def samplesOn (lines : List Rendered) : List Sample := lines.filterMap fun x => x.line.sample?

@[simp] theorem samplesOn_nil : samplesOn [] = [] := rfl

theorem samplesOn_append (xs ys : List Rendered) :
    samplesOn (xs ++ ys) = samplesOn xs ++ samplesOn ys := List.filterMap_append

theorem mem_samplesOn_iff {lines : List Rendered} {sample : Sample} :
    sample ∈ samplesOn lines ↔ ∃ x ∈ lines, x.line = .message sample := by
  unfold samplesOn
  rw [List.mem_filterMap]
  refine exists_congr fun x => and_congr_right fun _ => ?_
  cases x.line with
  | message other =>
    constructor
    · rintro ⟨⟩
      rfl
    · rintro ⟨⟩
      rfl
  | _ => exact ⟨nofun, nofun⟩

/-- A message line is written exactly if its sample has a key and a label. -/
theorem Wire.Renderer.isOk_render_message (renderer : Renderer) (sample : Sample) :
    (renderer.render (.message sample)).isOk = sample.isWritable := by
  unfold render Sample.isWritable
  dsimp only
  split
  · rename_i hkey
    rw [hkey]
    rfl
  split
  · rename_i hlabel
    rw [hlabel, Bool.not_true, Bool.and_false]
    rfl
  · rename_i hkey hlabel
    rw [Bool.eq_false_of_not_eq_true hkey, Bool.eq_false_of_not_eq_true hlabel]
    rfl

/-- Rendering keeps the samples that can be written. -/
theorem Shipper.samplesOn_renderAll (s : Shipper) (lines : List Line) :
    samplesOn (s.renderAll lines).1 = (lines.filterMap Line.sample?).filter Sample.isWritable := by
  induction lines with
  | nil => rfl
  | cons line lines ih =>
    rw [s.renderAll_cons]
    cases line with
    | message sample =>
      have hok := s.renderer.isOk_render_message sample
      show _ = (sample :: lines.filterMap Line.sample?).filter Sample.isWritable
      split
      · rename_i text htext
        rw [htext] at hok
        rw [List.filter_cons_of_pos hok.symm, ← ih]
        rfl
      · rename_i error herror
        rw [herror] at hok
        rw [List.filter_cons_of_neg (by rw [← hok]; nofun), ih]
    | _ =>
      rw [List.filterMap_cons_none rfl, ← ih]
      split <;> rfl

/-- Lines without messages carry no sample. -/
theorem Shipper.samplesOn_renderAll_eq_nil (s : Shipper) {lines : List Line}
    (h : ∀ line ∈ lines, line.sample? = none) : samplesOn (s.renderAll lines).1 = [] := by
  rw [s.samplesOn_renderAll, List.filterMap_eq_nil_iff.2 h]
  rfl

theorem Wire.Line.filterMap_sample?_messages (samples : List Sample) :
    (samples.map Line.message).filterMap Line.sample? = samples := by
  rw [List.filterMap_map]
  exact List.filterMap_some

namespace History

/-- The samples that were brought away, in order. -/
def takenSamples (h : History) : List Sample := h.collections.flatMap Collected.samples

/-- The samples on the lines of the writes that began, in order. -/
def sentSamples (h : History) : List Sample := samplesOn h.attempts.flatten

theorem takenSamples_append (later earlier : History) :
    takenSamples (later ++ earlier) = takenSamples earlier ++ takenSamples later := by
  unfold takenSamples collections
  rw [select_append, List.flatMap_append]

theorem sentSamples_append (later earlier : History) :
    sentSamples (later ++ earlier) = sentSamples earlier ++ sentSamples later := by
  unfold sentSamples attempts
  rw [select_append, List.flatten_append, samplesOn_append]

/-- The fatal samples that were brought away stand in order among all that were. -/
theorem takenUrgent_sublist (h : History) : h.takenUrgent.Sublist h.takenSamples := by
  unfold takenUrgent takenSamples
  induction h.collections with
  | nil => exact .slnil
  | cons c rest ih =>
    rw [List.flatMap_cons, List.flatMap_cons]
    exact (List.sublist_append_left c.urgent c.queued).append ih

/-- A sample that was sent stands on a line of a write. -/
theorem mem_sentSamples_iff {h : History} {sample : Sample} :
    sample ∈ h.sentSamples ↔ ∃ later t lines earlier,
      h = later ++ ⟨t, .attempted lines⟩ :: earlier ∧ ∃ x ∈ lines, x.line = .message sample := by
  unfold sentSamples
  rw [mem_samplesOn_iff]
  constructor
  · rintro ⟨x, hx, hline⟩
    obtain ⟨lines, hlines, hmem⟩ := List.mem_flatten.1 hx
    obtain ⟨later, t, earlier, hsplit⟩ := mem_attempts_iff.1 hlines
    exact ⟨later, t, lines, earlier, hsplit, x, hmem, hline⟩
  · rintro ⟨later, t, lines, earlier, hsplit, x, hx, hline⟩
    exact ⟨x, List.mem_flatten_of_mem (mem_attempts_iff.2 ⟨later, t, earlier, hsplit⟩) hx, hline⟩

end History

/-! ## From a collection to a write -/

variable {τ : Type} {s : Shipper}

/-- The samples that were brought away and can be written are those on the lines of the writes that
began, and on the lines in hand. -/
def Dispatched (r : Run τ) (lines : List Rendered) : Prop :=
  r.history.sentSamples ++ samplesOn lines = r.history.takenSamples.filter Sample.isWritable

namespace Dispatched

variable {r r' : Run τ} {lines : List Rendered}

/-- What tells of no collection and no write. -/
theorem transfer (h : Dispatched r lines) (hattempts : r'.history.attempts = r.history.attempts)
    (hcollections : r'.history.collections = r.history.collections) : Dispatched r' lines := by
  unfold Dispatched History.sentSamples History.takenSamples
  rw [hattempts, hcollections]
  exact h

/-- Lines that carry no sample. -/
theorem append (h : Dispatched r lines) {further : List Rendered}
    (hfurther : samplesOn further = []) : Dispatched r (lines ++ further) := by
  unfold Dispatched
  rw [samplesOn_append, hfurther, List.append_nil]
  exact h

theorem register (h : Dispatched r lines) (reading : Reading) :
    Dispatched (r.register s reading).1 lines := by
  refine h.transfer ?_ ?_
  · rw [Run.history_register, History.attempts, History.select_cons]
    exact List.append_nil _
  · rw [Run.history_register, History.collections_registered]

/-- Property lines carry no sample. -/
theorem announce (h : Dispatched r lines) :
    Dispatched (r.announce s).1 (lines ++ (r.announce s).2) := by
  have hannounced : Dispatched (r.announce s).1 lines := h.transfer rfl rfl
  refine hannounced.append (s.samplesOn_renderAll_eq_nil ?_)
  unfold Reporting.announce
  split
  · exact List.forall_mem_cons.2 ⟨rfl, List.forall_mem_singleton.2 rfl⟩
  · exact List.forall_mem_nil _

/-- The lines of series carry no sample. -/
theorem flush (h : Dispatched r lines) (forced : Bool) :
    Dispatched (r.flush s forced).1 (lines ++ (r.flush s forced).2) := by
  have hcollections : (r.flush s forced).1.history.collections = r.history.collections :=
    (Run.select_flush (fun _ => rfl) s forced r).trans (List.append_nil _)
  refine (h.transfer (r.attempts_flush s forced) hcollections).append
    (s.samplesOn_renderAll_eq_nil ?_)
  exact List.forall_mem_append.2
    ⟨List.forall_mem_map.2 fun _ _ => rfl, List.forall_mem_map.2 fun _ _ => rfl⟩

/-- The samples that are brought away become lines in hand. -/
theorem collect (h : Dispatched r lines) :
    Dispatched (r.collect s).1 (lines ++ (r.collect s).2) := by
  let taken := r.intake.collect.2.samples
  have hlines : samplesOn (r.collect s).2 = taken.filter Sample.isWritable := by
    show samplesOn (s.renderAll (taken.map .message)).1 = _
    rw [s.samplesOn_renderAll, Line.filterMap_sample?_messages]
  have htaken : (r.collect s).1.history.takenSamples = r.history.takenSamples ++ taken := by
    unfold History.takenSamples
    rw [r.collections_collect s, List.flatMap_append, List.flatMap_singleton]
    rfl
  unfold Dispatched
  rw [htaken, List.filter_append, ← h, samplesOn_append, hlines, History.sentSamples,
    r.attempts_collect s, List.append_assoc]
  rfl

/-- The lines in hand go into a write. -/
theorem attempt (h : Dispatched r lines) : Dispatched (r.note (.attempted lines)) [] := by
  have hcollections : (r.note (.attempted lines)).history.collections = r.history.collections :=
    (History.select_cons _ _ _).trans (List.append_nil _)
  unfold Dispatched History.sentSamples History.takenSamples
  rw [r.attempts_note_attempted, hcollections, List.flatten_append, List.flatten_singleton,
    samplesOn_append, samplesOn_nil, List.append_nil]
  exact h

end Dispatched

/-- Every piece of work hands on all samples that can be written. -/
theorem Work.dispatched {p p' : Run τ × List Rendered} (hw : Work s p p')
    (h : Dispatched p.1 p.2) : Dispatched p'.1 p'.2 := by
  cases hw with
  | announce r lines => exact h.announce
  | flush r lines forced hdue => exact h.flush forced
  | collect r lines => exact h.collect
  | attempt r lines => exact h.attempt
  | note r lines o ho =>
    refine h.transfer (r.attempts_note ho) ?_
    have hadded : ∀ e ∈ [(⟨r.now, o⟩ : Entry)], e.occurrence.isSampling = false :=
      List.forall_mem_singleton.2 (Occurrence.isSampling_of_isQuiet ho)
    exact History.collections_append hadded r.history
  | control lines intake reporting history now =>
    exact h.transfer (by rw [history]) (by rw [history])

/-! ## An idle task -/

variable [Transport τ]

theorem Moves.dispatched {r₀ r : Run τ} (h : Moves s r₀ r) (hr : Dispatched r₀ []) :
    Dispatched r [] :=
  Moves.keeps (P := fun p => Dispatched p.1 p.2) (fun hw => hw.dispatched)
    (fun reading hr => hr.register reading) h hr

/-- Between a moment and a later one, the samples that were brought away and can be written are
those on the lines of the writes that began. -/
theorem Moves.sentSamples_between {transport : τ} {built : Nat} {r₁ r : Run τ}
    (h₁ : Moves s (Run.new s transport built) r₁) (h : Moves s r₁ r) {later : History}
    (hlater : r.history = later ++ r₁.history) :
    later.sentSamples = later.takenSamples.filter Sample.isWritable := by
  have hbefore : Dispatched r₁ [] := h₁.dispatched rfl
  have hafter : Dispatched r [] := h.dispatched hbefore
  unfold Dispatched at hbefore hafter
  rw [samplesOn_nil, List.append_nil] at hbefore hafter
  rw [hlater, History.sentSamples_append, History.takenSamples_append, List.filter_append,
    hbefore] at hafter
  exact List.append_cancel_left hafter

/-- As long as none waits in the end, the fatal samples captured between two moments are the last of
those that were brought away between them. -/
theorem Moves.fatalSamples_suffix {transport : τ} {built : Nat} {r₁ r : Run τ}
    (h₁ : Moves s (Run.new s transport built) r₁) (h : Moves s r₁ r) {since : History}
    (hsince : r.history = since ++ r₁.history) (hnone : r.intake.urgent = []) :
    History.fatalSamples s since <:+ since.takenUrgent := by
  have hbefore := (Moves.sampleAccounts h₁).urgent_eq
  have hafter := (Moves.sampleAccounts (h₁.trans h)).urgent_eq
  have hfatal : History.fatalSamples s (since ++ r₁.history) =
      r₁.history.fatalSamples s ++ History.fatalSamples s since := by
    unfold History.fatalSamples
    rw [History.events_append, List.filterMap_append]
  have htaken : History.takenUrgent (since ++ r₁.history) =
      r₁.history.takenUrgent ++ since.takenUrgent := by
    unfold History.takenUrgent History.collections
    rw [History.select_append, List.flatMap_append]
  rw [hsince, hfatal, htaken, hnone, List.append_nil, hbefore, List.append_assoc] at hafter
  exact ⟨r₁.intake.urgent, List.append_cancel_left hafter⟩

/-- As long as none waits in the end, the fatal samples captured between two moments that can be
written stand among those sent between them. -/
theorem Moves.fatalSamples_sublist {transport : τ} {built : Nat} {r₁ r : Run τ}
    (h₁ : Moves s (Run.new s transport built) r₁) (h : Moves s r₁ r) {since : History}
    (hsince : r.history = since ++ r₁.history) (hnone : r.intake.urgent = []) :
    ((History.fatalSamples s since).filter Sample.isWritable).Sublist
      (History.sentSamples since) := by
  rw [h₁.sentSamples_between h hsince]
  exact ((h₁.fatalSamples_suffix h hsince hnone).sublist.trans since.takenUrgent_sublist).filter _

/-- **No fatal sample is stranded.**  Whenever a shipper was started, was neither told to end nor
stopped, no write goes on, and nothing can happen at the present instant, no fatal sample waits.
From any earlier moment on, the fatal samples captured since then that have a key and a label stand,
as often and in the order in which they were captured, among the samples on the lines of the writes
that began since then.  So each of them stands on a line of a write that began after its event was
registered, and the transport was given a payload that carries the lines of this write. -/
theorem RecordedMoves.no_fatal_stranded (transport : τ) (built : Nat) {r : Run (Recorded τ)}
    (h : RecordedMoves s (Run.new s (.of transport) built) r) (hrunning : r.isRunning = true)
    (hcancelled : r.cancelled = false) (hfree : r.task.pending? = none)
    (hidle : r.advance? s = none) :
    r.intake.urgent = [] ∧
    r.Attested ∧ List.Forall₂ Carries r.transport.payloads r.history.attempts ∧
    (∀ r₁ since, Moves s (Run.new s (.of transport) built) r₁ → Moves s r₁ r →
      r.history = since ++ r₁.history →
      ((History.fatalSamples s since).filter Sample.isWritable).Sublist
        (History.sentSamples since)) ∧
    ∀ later t reading sample earlier,
      r.history = later ++ ⟨t, .registered reading (.urgent sample)⟩ :: earlier →
      sample.isWritable = true →
      ∃ since begun lines before, later = since ++ ⟨begun, .attempted lines⟩ :: before ∧
        (∃ payload ∈ r.transport.payloads, Carries payload lines) ∧
        ∃ x ∈ lines, x.line = .message sample ∧ s.renderer.render x.line = .ok x.text := by
  have hnew := Run.coherent_new s (Recorded.of transport) built
  have hattentive := h.moves.attentive hnew (Run.attentive_new (Recorded.of transport) built)
  obtain ⟨hnone, -⟩ :=
    hattentive.of_idle (h.moves.coherent hnew) hrunning hcancelled hidle hfree
  refine ⟨hnone, h.attested, h.attested.payloads_of_free hfree,
    fun r₁ since h₁ hrest hsince => h₁.fatalSamples_sublist hrest hsince hnone, ?_⟩
  intro later t reading sample earlier hsplit hwritable
  -- the sample is the first one captured since the moment before its registration
  let entry : Entry := ⟨t, .registered reading (.urgent sample)⟩
  obtain ⟨r₁, h₁, hearlier, -, hsampling, hrest⟩ := h.moves.moment_of_registration rfl hsplit
  have hfatal : s.fatalSample? reading = some sample := by
    rw [← r₁.intake.urgent?_register s t reading, hsampling]
    rfl
  have hmoves : Moves s r₁ r := .head (.register r₁ reading) hrest
  have hsince : r.history = (later ++ [entry]) ++ r₁.history := by
    rw [hsplit, hearlier, List.append_assoc]
    rfl
  have hsublist := h₁.fatalSamples_sublist hmoves hsince hnone
  have hcaptured : sample ∈ History.fatalSamples s (later ++ [entry]) := by
    refine List.mem_filterMap.2 ⟨reading, ?_, hfatal⟩
    rw [History.events_append]
    exact List.mem_append_left _ List.mem_cons_self
  have hmem := hsublist.subset (List.mem_filter.2 ⟨hcaptured, hwritable⟩)
  rw [History.sentSamples_append] at hmem
  obtain ⟨since, begun, lines, before, rfl, x, hx, hline⟩ := History.mem_sentSamples_iff.1 hmem
  have hlines : lines ∈ r.history.attempts :=
    History.mem_attempts_iff.2 ⟨since, begun, before ++ entry :: earlier, by simp [hsplit, entry]⟩
  refine ⟨since, begun, lines, before, rfl, h.attested.exists_payload hfree hlines, x, hx, hline, ?_⟩
  exact h.moves.render_attempts x (List.mem_flatten_of_mem hlines hx)

/-- A fatal event before the start and two while its sample is written slowly, which leave one
wake-up between them: once the shipper is idle, none waits, and all three were sent. -/
theorem RecordedMoves.no_fatal_stranded_of_slow_write :
    let s := Shipper.plain
    let fatal : Reading :=
      { key := "app", label := "ERROR", severity := .error, rendered := .ok "boom", fatal := true }
    let r := (Run.new s (.of ({} : Scripted)) 0).exec s
      ([.pace fun _ => 300, .register fatal, .start true, .sleep 50, .register fatal,
        .register fatal, .sleep 900].map Step.recorded)
    (r.isRunning = true ∧ r.cancelled = false ∧ r.task.pending? = none ∧ r.advance? s = none) ∧
      r.intake.urgent = [] ∧ (r.history.fatalSamples s).length = 3 ∧
      ((r.history.fatalSamples s).filter Sample.isWritable).Sublist r.history.sentSamples ∧
      List.Forall₂ Carries r.transport.payloads r.history.attempts := by
  intro s fatal r
  have hmoves : RecordedMoves s (Run.new s (.of ({} : Scripted)) 0) r := RecordedMoves.exec s _ _
  have hrunning : r.isRunning = true := by decide +kernel
  have hcancelled : r.cancelled = false := by decide +kernel
  have hfree : r.task.pending? = none := by decide +kernel
  have hidle : r.advance? s = none := Option.isNone_iff_eq_none.1 (by decide +kernel)
  obtain ⟨hnone, -, hcarried, hsent, -⟩ :=
    RecordedMoves.no_fatal_stranded ({} : Scripted) 0 hmoves hrunning hcancelled hfree hidle
  refine ⟨⟨hrunning, hcancelled, hfree, hidle⟩, hnone, by decide +kernel, ?_, hcarried⟩
  exact hsent (Run.new s (.of ({} : Scripted)) 0) r.history .refl hmoves.moves
    (List.append_nil _).symm

end LogShipper
