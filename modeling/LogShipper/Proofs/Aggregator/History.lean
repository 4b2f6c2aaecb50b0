import LogShipper.Aggregator.History

/-!
# What a history says

A history is read through the things that one kind of occurrence tells: `History.select` collects
them in the order in which they happened.  The events registered, the lines of the writes that
began, and the results of closing are such readings.

`History.beforeFlush` is what had happened when the series were last flushed.
-/

namespace LogShipper

open Transport

namespace Occurrence

/-- The event of a registration. -/
def event? : Occurrence → Option Reading
  | .registered reading _ => some reading
  | _ => none

/-- The lines of a write that begins. -/
def attempt? : Occurrence → Option (List Rendered)
  | .attempted lines => some lines
  | _ => none

/-- The result of closing the transport. -/
def closing? : Occurrence → Option (Except TransportError Unit)
  | .closed result => some result
  | _ => none

/-- Whether a flush of the series is told. -/
def isFlush : Occurrence → Bool
  | .flushed .. => true
  | _ => false

/-- Whether a pass, a flush or a collection is told. -/
def isPassing : Occurrence → Bool
  | .passed _ | .flushed .. | .collected _ => true
  | _ => false

theorem isFlush_of_not_isPassing {o : Occurrence} (h : o.isPassing = false) :
    o.isFlush = false := by
  cases o <;> first | rfl | cases h

/-- Whether the beginning or the end of a write is told. -/
def isWriting : Occurrence → Bool
  | .attempted _ | .delivered _ | .lost .. => true
  | _ => false

/-- Whether the loss of a write is told. -/
def isLoss : Occurrence → Bool
  | .lost .. => true
  | _ => false

/-- Whether closing the transport is told. -/
def isClosing (o : Occurrence) : Bool := o.closing?.isSome

end Occurrence

namespace History

variable {α : Type}

/-! ## Selecting -/

/-- What `f` sees in a history, in the order in which it happened. -/
def select (f : Occurrence → Option α) (h : History) : List α :=
  (h.filterMap fun e => f e.occurrence).reverse

@[simp] theorem select_nil (f : Occurrence → Option α) : select f [] = [] := rfl

@[simp] theorem select_cons (f : Occurrence → Option α) (e : Entry) (h : History) :
    select f (e :: h) = select f h ++ (f e.occurrence).toList := by
  unfold select
  cases hf : f e.occurrence <;> simp [hf]

theorem select_append (f : Occurrence → Option α) (later earlier : History) :
    select f (later ++ earlier) = select f earlier ++ select f later := by
  simp [select]

/-- What is selected stands in the history. -/
theorem mem_select_iff {f : Occurrence → Option α} {h : History} {x : α} :
    x ∈ select f h ↔ ∃ later e earlier, h = later ++ e :: earlier ∧ f e.occurrence = some x := by
  unfold select
  rw [List.mem_reverse, List.mem_filterMap]
  constructor
  · rintro ⟨e, he, hf⟩
    obtain ⟨later, earlier, rfl⟩ := List.append_of_mem he
    exact ⟨later, e, earlier, rfl, hf⟩
  · rintro ⟨later, e, earlier, rfl, hf⟩
    exact ⟨e, List.mem_append_right later List.mem_cons_self, hf⟩

/-- Nothing is selected where `f` sees nothing. -/
theorem select_eq_nil {f : Occurrence → Option α} {h : History}
    (hf : ∀ e ∈ h, f e.occurrence = none) : select f h = [] := by
  simpa [select, List.filterMap_eq_nil_iff] using hf

/-- Entries in which `f` sees nothing add nothing. -/
theorem select_append_of_none {f : Occurrence → Option α} {later : History}
    (hf : ∀ e ∈ later, f e.occurrence = none) (earlier : History) :
    select f (later ++ earlier) = select f earlier := by
  rw [select_append, select_eq_nil hf, List.append_nil]

/-- The events registered, in order. -/
def events (h : History) : List Reading := h.select Occurrence.event?

theorem events_append (later earlier : History) :
    events (later ++ earlier) = events earlier ++ events later := select_append _ later earlier

/-- An earlier history tells of the first events. -/
theorem isPrefix_events {earlier h : History} (hsuffix : earlier <:+ h) :
    earlier.events <+: h.events := by
  obtain ⟨later, rfl⟩ := hsuffix
  rw [events_append]
  exact List.prefix_append _ _

/-- The lines of each write that began, in order. -/
def attempts (h : History) : List (List Rendered) := h.select Occurrence.attempt?

/-- The writes that began stand in the history. -/
theorem mem_attempts_iff {h : History} {lines : List Rendered} :
    lines ∈ h.attempts ↔ ∃ later t earlier, h = later ++ ⟨t, .attempted lines⟩ :: earlier := by
  unfold attempts
  rw [mem_select_iff]
  constructor
  · rintro ⟨later, ⟨t, o⟩, earlier, hsplit, ho⟩
    obtain rfl : o = .attempted lines := by
      cases o <;> first | cases ho; rfl | cases ho
    exact ⟨later, t, earlier, hsplit⟩
  · rintro ⟨later, t, earlier, hsplit⟩
    exact ⟨later, _, earlier, hsplit, rfl⟩

/-- The results of closing the transport, in order. -/
def closings (h : History) : List (Except TransportError Unit) := h.select Occurrence.closing?

/-! ## The latest flush -/

/-- What had happened when the series were last flushed; nothing if they never were. -/
def beforeFlush (h : History) : History := (h.dropWhile fun e => !e.occurrence.isFlush).tail

@[simp] theorem beforeFlush_nil : beforeFlush [] = [] := rfl

@[simp] theorem beforeFlush_cons (e : Entry) (h : History) :
    beforeFlush (e :: h) = if e.occurrence.isFlush then h else beforeFlush h := by
  unfold beforeFlush
  cases he : e.occurrence.isFlush <;> simp [he]

/-- Entries that tell no flush leave the latest one where it was. -/
theorem beforeFlush_append {later : History} (hl : ∀ e ∈ later, e.occurrence.isFlush = false)
    (earlier : History) : beforeFlush (later ++ earlier) = beforeFlush earlier := by
  induction later with
  | nil => rfl
  | cons e later ih =>
    rw [List.cons_append, beforeFlush_cons, hl e (by simp)]
    exact ih fun e' he' => hl e' (by simp [he'])

/-- What had happened at the latest flush is a beginning of what has happened. -/
theorem beforeFlush_suffix (h : History) : beforeFlush h <:+ h :=
  (List.tail_suffix _).trans (List.dropWhile_suffix _)

end History

end LogShipper
