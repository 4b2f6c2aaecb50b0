import LogShipper.Aggregator.Progress
import LogShipper.Proofs.Aggregator.History

/-!
# What is left behind

What the operations of a run leave behind, said once: which parts of the run they change, and what
they add to its history.

A pass puts lines together and then sends them.  `Run.gathered` is the run just before the sending;
apart from the intake and the flush side it differs from the run before the pass only in its
history, which `Run.gathered_eq` describes: the pass, what the series gave, the collection, and
notices.

A forced pass always flushes.  `History.IsFinished` says of a history that its latest flush and its
latest collection are those of a forced pass, which is how the histories of runs look once the last
pass was made.
-/

namespace LogShipper

open Wire Transport

variable {τ : Type}

/-! ## Rendering -/

section Rendering

variable (s : Shipper)

theorem Shipper.renderAll_cons (line : Line) (lines : List Line) :
    (s.renderAll (line :: lines)).1 = match s.renderer.render line with
      | .ok text => ⟨line, text⟩ :: (s.renderAll lines).1
      | .error _ => (s.renderAll lines).1 := by
  unfold Shipper.renderAll
  rw [List.foldr_cons]
  cases s.renderer.render line <;> rfl

/-- Rendered lines are among those that were to be rendered, and carry the text that the renderer
gives them. -/
theorem Shipper.mem_renderAll {lines : List Line} {rendered : Rendered}
    (h : rendered ∈ (s.renderAll lines).1) :
    rendered.line ∈ lines ∧ s.renderer.render rendered.line = .ok rendered.text := by
  induction lines with
  | nil => exact absurd h List.not_mem_nil
  | cons line lines ih =>
    rw [s.renderAll_cons] at h
    split at h
    · rename_i text htext
      rcases List.mem_cons.1 h with rfl | hrest
      · exact ⟨List.mem_cons_self, htext⟩
      · exact (ih hrest).imp_left (List.mem_cons_of_mem line)
    · exact (ih h).imp_left (List.mem_cons_of_mem line)

/-- All that rendering reports are lines that cannot be written. -/
theorem Shipper.skipped_of_mem_renderAll {lines : List Line} {n : Notice}
    (h : n ∈ (s.renderAll lines).2) : ∃ line error, n = .skipped line error := by
  induction lines with
  | nil => exact absurd h List.not_mem_nil
  | cons line lines ih =>
    unfold Shipper.renderAll at h ih
    rw [List.foldr_cons] at h
    split at h
    · exact ih h
    · rename_i error _
      rcases List.mem_cons.1 h with rfl | hrest
      · exact ⟨line, error, rfl⟩
      · exact ih hrest

end Rendering

namespace Run

/-! ## Registering -/

section Registering

variable (s : Shipper) (r : Run τ) (reading : Reading)

/-- Registering notes the event and what became of it; a wake-up is all that is changed besides. -/
theorem register_eq : ∃ wakeups, (r.register s reading).1 =
    { r with
      intake := (r.intake.register s r.now reading).1
      wakeups
      history := ⟨r.now, .registered reading (r.intake.register s r.now reading).2⟩ :: r.history } := by
  unfold register wake
  dsimp only
  split
  · split
    · exact ⟨_, rfl⟩
    · exact ⟨_, rfl⟩
  · exact ⟨_, rfl⟩

@[simp] theorem task_register : (r.register s reading).1.task = r.task := by
  obtain ⟨_, h⟩ := r.register_eq s reading
  rw [h]

@[simp] theorem intake_register :
    (r.register s reading).1.intake = (r.intake.register s r.now reading).1 := by
  obtain ⟨_, h⟩ := r.register_eq s reading
  rw [h]

@[simp] theorem reporting_register : (r.register s reading).1.reporting = r.reporting := by
  obtain ⟨_, h⟩ := r.register_eq s reading
  rw [h]

@[simp] theorem history_register : (r.register s reading).1.history =
    ⟨r.now, .registered reading (r.intake.register s r.now reading).2⟩ :: r.history := by
  obtain ⟨_, h⟩ := r.register_eq s reading
  rw [h]

end Registering

/-! ## Flushing and collecting -/

/-- Some notices, as they stand in a history. -/
def noticed (instant : Nat) (notices : List Notice) : History :=
  notices.map fun n => ⟨instant, .noticed n⟩

/-- What holds of each notice holds of the entries that tell them. -/
theorem forall_mem_noticed {P : Entry → Prop} {instant : Nat} {notices : List Notice} :
    (∀ e ∈ noticed instant notices, P e) ↔ ∀ n ∈ notices, P ⟨instant, .noticed n⟩ :=
  List.forall_mem_map

theorem noteAll_eq_noticed (r : Run τ) (notices : List Notice) :
    r.noteAll notices =
      { r with history := noticed r.now notices.reverse ++ r.history } := r.noteAll_eq notices

/-- What a collection reports: the drops, if there were any, and the lines that cannot be
written. -/
def collectNotices (s : Shipper) (r : Run τ) : List Notice :=
  let collected := r.intake.collect.2
  (if collected.dropped = 0 then [] else [.dropped collected.dropped r.intake.queue.threshold]) ++
    (s.renderAll (collected.samples.map .message)).2

/-- Collecting changes the intake and the history. -/
theorem collect_eq (s : Shipper) (r : Run τ) : (r.collect s).1 =
    { r with
      intake := r.intake.collect.1
      history := noticed r.now (r.collectNotices s).reverse ++
        ⟨r.now, .collected r.intake.collect.2⟩ :: r.history } :=
  noteAll_eq_noticed _ _

/-- The lines of a flush that cannot be written are reported. -/
def flushNotices (s : Shipper) (r : Run τ) : List Notice :=
  (s.renderAll (Reporting.batchLines (r.reporting.flush r.now r.intake.counter).2)).2

/-- Flushing changes the flush side, the number of new events and the history. -/
theorem flush_eq (s : Shipper) (forced : Bool) (r : Run τ) : (r.flush s forced).1 =
    { r with
      reporting := (r.reporting.flush r.now r.intake.counter).1
      intake := { r.intake with eventsSinceFlush := 0 }
      history := noticed r.now (r.flushNotices s).reverse ++
        ⟨r.now, .flushed forced (r.reporting.flush r.now r.intake.counter).2⟩ :: r.history } :=
  noteAll_eq_noticed _ _

/-- A flush that may be due: the history tells it if it was made, and a forced one is made. -/
theorem flushIfDue_eq (s : Shipper) (forced : Bool) (r : Run τ) :
    ∃ intake reporting flushes, (r.flushIfDue s forced).1 =
      { r with intake, reporting, history := flushes ++ r.history } ∧
      (flushes = [] ∧ forced = false ∨
        ∃ notices batch, flushes = noticed r.now notices ++ [⟨r.now, .flushed forced batch⟩]) := by
  unfold flushIfDue
  split
  · let flushed := r.reporting.flush r.now r.intake.counter
    refine ⟨{ r.intake with eventsSinceFlush := 0 }, flushed.1,
      noticed r.now (r.flushNotices s).reverse ++ [⟨r.now, .flushed forced flushed.2⟩], ?_,
      .inr ⟨_, flushed.2, rfl⟩⟩
    rw [flush_eq, List.append_assoc]
    rfl
  · rename_i hdue
    refine ⟨r.intake, r.reporting, [], rfl, .inl ⟨rfl, ?_⟩⟩
    cases forced with
    | false => rfl
    | true => exact absurd rfl hdue

end Run

namespace History

variable {α : Type}

/-- An occurrence and the notices after it, read through what sees no notice. -/
theorem select_noticed_cons {f : Occurrence → Option α} (hf : ∀ n, f (.noticed n) = none)
    (instant : Nat) (notices : List Notice) (e : Entry) (h : History) :
    select f (Run.noticed instant notices ++ e :: h) =
      select f h ++ (f e.occurrence).toList := by
  rw [select_append_of_none, select_cons]
  refine Run.forall_mem_noticed.2 ?_
  intro n _
  exact hf n

theorem beforeFlush_noticed_cons (instant : Nat) (notices : List Notice) (e : Entry)
    (h : History) : beforeFlush (Run.noticed instant notices ++ e :: h) =
      if e.occurrence.isFlush then h else beforeFlush h := by
  rw [beforeFlush_append, beforeFlush_cons]
  refine Run.forall_mem_noticed.2 ?_
  intro n _
  rfl

end History

namespace Run

section Reading

variable {α : Type} {f : Occurrence → Option α}

/-- What a flush adds to a history, read through what sees no notice. -/
theorem select_flush (hf : ∀ n, f (.noticed n) = none) (s : Shipper) (forced : Bool) (r : Run τ) :
    (r.flush s forced).1.history.select f = r.history.select f ++
      (f (.flushed forced (r.reporting.flush r.now r.intake.counter).2)).toList := by
  rw [flush_eq]
  exact History.select_noticed_cons hf _ _ _ _

/-- What a collection adds to a history, read through what sees no notice. -/
theorem select_collect (hf : ∀ n, f (.noticed n) = none) (s : Shipper) (r : Run τ) :
    (r.collect s).1.history.select f =
      r.history.select f ++ (f (.collected r.intake.collect.2)).toList := by
  rw [collect_eq]
  exact History.select_noticed_cons hf _ _ _ _

@[simp] theorem beforeFlush_flush (s : Shipper) (forced : Bool) (r : Run τ) :
    (r.flush s forced).1.history.beforeFlush = r.history := by
  rw [flush_eq]
  exact History.beforeFlush_noticed_cons _ _ _ _

@[simp] theorem beforeFlush_collect (s : Shipper) (r : Run τ) :
    (r.collect s).1.history.beforeFlush = r.history.beforeFlush := by
  rw [collect_eq]
  exact History.beforeFlush_noticed_cons _ _ _ _

@[simp] theorem events_flush (s : Shipper) (forced : Bool) (r : Run τ) :
    (r.flush s forced).1.history.events = r.history.events := by
  unfold History.events
  rw [select_flush fun _ => rfl]
  exact List.append_nil _

@[simp] theorem events_collect (s : Shipper) (r : Run τ) :
    (r.collect s).1.history.events = r.history.events := by
  unfold History.events
  rw [select_collect fun _ => rfl]
  exact List.append_nil _

@[simp] theorem attempts_flush (s : Shipper) (forced : Bool) (r : Run τ) :
    (r.flush s forced).1.history.attempts = r.history.attempts := by
  unfold History.attempts
  rw [select_flush fun _ => rfl]
  exact List.append_nil _

@[simp] theorem attempts_collect (s : Shipper) (r : Run τ) :
    (r.collect s).1.history.attempts = r.history.attempts := by
  unfold History.attempts
  rw [select_collect fun _ => rfl]
  exact List.append_nil _

end Reading

/-! ## A whole pass -/

/-- A pass before its lines are sent, with the lines. -/
def gathered (s : Shipper) (forced : Bool) (r : Run τ) : Run τ × List Rendered :=
  let announced := (r.note (.passed forced)).announce s
  let flushed := announced.1.flushIfDue s forced
  let collected := flushed.1.collect s
  (collected.1, announced.2 ++ flushed.2 ++ collected.2)

/-- A pass gathers lines and sends them. -/
theorem pass_eq [Transport τ] (s : Shipper) (forced : Bool) (next : Next) (r : Run τ) :
    r.pass s forced next = (r.gathered s forced).1.send (r.gathered s forced).2 next := rfl

/-- Gathering changes the intake, the flush side and the history. -/
theorem gathered_eq (s : Shipper) (forced : Bool) (r : Run τ) :
    ∃ intake reporting notices collected flushes, (r.gathered s forced).1 =
      { r with
        intake
        reporting
        history := noticed r.now notices ++ ⟨r.now, .collected collected⟩ ::
          (flushes ++ ⟨r.now, .passed forced⟩ :: r.history) } ∧
      (flushes = [] ∧ forced = false ∨
        ∃ notices batch, flushes = noticed r.now notices ++ [⟨r.now, .flushed forced batch⟩]) := by
  let announced := ((r.note (.passed forced)).announce s).1
  obtain ⟨intake, reporting, flushes, hflush, hflushes⟩ := flushIfDue_eq s forced announced
  refine ⟨intake.collect.1, reporting,
    ((announced.flushIfDue s forced).1.collectNotices s).reverse, intake.collect.2, flushes, ?_,
    hflushes⟩
  show ((announced.flushIfDue s forced).1.collect s).1 = _
  rw [collect_eq, hflush]
  rfl

end Run

/-! ## The last pass -/

/-- Nothing in a history is a pass, a flush or a collection. -/
def History.IsPassive (h : History) : Prop := ∀ e ∈ h, e.occurrence.isPassing = false

/-- The latest flush and the latest collection of a history belong to a forced pass, which is the
latest pass. -/
def History.IsFinished (h : History) : Prop :=
  ∃ later collected notices batch t earlier,
    h = later ++ ⟨t, .collected collected⟩ ::
      (Run.noticed t notices ++ ⟨t, .flushed true batch⟩ :: ⟨t, .passed true⟩ :: earlier) ∧
    History.IsPassive later

theorem History.isPassive_noticed (instant : Nat) (notices : List Notice) :
    History.IsPassive (Run.noticed instant notices) := by
  refine Run.forall_mem_noticed.2 ?_
  intro n _
  rfl

/-- Further passive entries change nothing about it. -/
theorem History.IsFinished.append {later earlier : History} (h : earlier.IsFinished)
    (hl : later.IsPassive) : History.IsFinished (later ++ earlier) := by
  obtain ⟨l, collected, notices, batch, t, e, rfl, hpassive⟩ := h
  refine ⟨later ++ l, collected, notices, batch, t, e, by simp, ?_⟩
  exact List.forall_mem_append.2 ⟨hl, hpassive⟩

theorem History.IsFinished.cons {h : History} (hf : h.IsFinished) {e : Entry}
    (he : e.occurrence.isPassing = false) : History.IsFinished (e :: h) := by
  have hpassive : History.IsPassive [e] := List.forall_mem_singleton.2 he
  exact hf.append hpassive

/-- The latest flush of a finished history is a forced one. -/
theorem History.IsFinished.flushed {h : History} (hf : h.IsFinished) :
    ∃ later t batch earlier, h = later ++ ⟨t, .flushed true batch⟩ :: earlier ∧
      ∀ e ∈ later, e.occurrence.isFlush = false := by
  obtain ⟨later, collected, notices, batch, t, earlier, rfl, hpassive⟩ := hf
  refine ⟨later ++ ⟨t, .collected collected⟩ :: Run.noticed t notices, t, batch,
    ⟨t, .passed true⟩ :: earlier, by simp, ?_⟩
  refine List.forall_mem_append.2 ?_
  constructor
  · intro e he
    exact Occurrence.isFlush_of_not_isPassing (hpassive e he)
  · refine List.forall_mem_cons.2 ?_
    constructor
    · rfl
    · exact Run.forall_mem_noticed.2 fun _ _ => rfl

/-- A history is finished once the lines of a forced pass are gathered. -/
theorem Run.isFinished_gathered (s : Shipper) (r : Run τ) :
    (r.gathered s true).1.history.IsFinished := by
  obtain ⟨_, _, notices, collected, flushes, h, hflushes⟩ := r.gathered_eq s true
  rcases hflushes with ⟨-, hforced⟩ | ⟨earlier, batch, rfl⟩
  · cases hforced
  · rw [h]
    exact ⟨noticed r.now notices, collected, earlier, batch, r.now, r.history, by simp,
      History.isPassive_noticed _ _⟩

end LogShipper
