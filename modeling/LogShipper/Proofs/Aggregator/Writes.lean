import LogShipper.Proofs.Aggregator.Coherence
import LogShipper.Proofs.Aggregator.Moments

/-!
# Writes

The lines of a write are gathered at once, just before the write begins: by a pass, or by a
collection after a wake-up.  `Gathers` says so, and `WriteEffect` is all that a move can do about
writes: nothing, or it begins one with the lines that it gathers, or it ends the one that the task
is about.  Every move has one of these effects (`Move.writeEffect`).

So a write in the history of a run leads back to the moment at which its lines were gathered
(`Moves.moment_of_attempt`), and the end of a write to its beginning, with no other write between
them (`Moves.attempt_of_end`).
-/

namespace LogShipper

open Wire Transport

variable {τ : Type} {s : Shipper}

/-! ## Writes in a history -/

/-- The lines of a write that ended. -/
def Occurrence.ended? : Occurrence → Option (List Rendered)
  | .delivered lines | .lost lines _ => some lines
  | _ => none

theorem Occurrence.isWriting_of_ended? {o : Occurrence} {lines : List Rendered}
    (h : o.ended? = some lines) : o.isWriting = true := by
  cases o <;> first | rfl | cases h

namespace History

/-- Whether a history continues an earlier one in which no write begins or ends any more. -/
def IsIdleSince (earlier h : History) : Prop :=
  ∃ since, h = since ++ earlier ∧ ∀ e ∈ since, e.occurrence.isWriting = false

theorem isIdleSince_refl (h : History) : IsIdleSince h h := ⟨[], rfl, List.forall_mem_nil _⟩

theorem IsIdleSince.trans {first second third : History} (h : IsIdleSince first second)
    (h' : IsIdleSince second third) : IsIdleSince first third := by
  obtain ⟨since, rfl, hsince⟩ := h
  obtain ⟨since', rfl, hsince'⟩ := h'
  exact ⟨since' ++ since, by simp, List.forall_mem_append.2 ⟨hsince', hsince⟩⟩

theorem IsIdleSince.append {earlier h : History} (hidle : IsIdleSince earlier h)
    {added : History} (hadded : ∀ e ∈ added, e.occurrence.isWriting = false) :
    IsIdleSince earlier (added ++ h) :=
  hidle.trans ⟨added, rfl, hadded⟩

theorem IsIdleSince.cons {earlier h : History} (hidle : IsIdleSince earlier h) {e : Entry}
    (he : e.occurrence.isWriting = false) : IsIdleSince earlier (e :: h) :=
  hidle.append (List.forall_mem_singleton.2 he)

theorem isWriting_of_mem_noticed (instant : Nat) (notices : List Notice) :
    ∀ e ∈ Run.noticed instant notices, e.occurrence.isWriting = false :=
  Run.forall_mem_noticed.2 fun _ _ => rfl

/-- The beginning or the end of a write stands before a time without any. -/
theorem IsIdleSince.split {before h later earlier : History} (hidle : IsIdleSince before h)
    {e : Entry} (hh : h = later ++ e :: earlier) (he : e.occurrence.isWriting = true) :
    ∃ between, before = between ++ e :: earlier ∧ IsIdleSince between later := by
  obtain ⟨since, hsince, hnone⟩ := hidle
  obtain ⟨between, hlater, hbefore⟩ :=
    split_of_forall_not (p := fun e => e.occurrence.isWriting = true) (hsince.symm.trans hh)
      (fun x hx => by rw [hnone x hx]; nofun) he
  exact ⟨between, hbefore, since, hlater, hnone⟩

end History

/-! ## Gathering lines -/

/-- What leads from a run to one that has gathered lines for a write. -/
inductive Gathers (s : Shipper) (r : Run τ) : Run τ → List Rendered → Prop
  /-- The waiting samples are brought away. -/
  | collect : Gathers s r (r.collect s).1 (r.collect s).2
  /-- A pass is made. -/
  | pass (forced : Bool) : Gathers s r (r.gathered s forced).1 (r.gathered s forced).2

namespace Gathers

variable {r gathered : Run τ} {lines : List Rendered}

/-- Gathering is work. -/
theorem works (h : Gathers s r gathered lines) : Works s (r, []) (gathered, lines) := by
  cases h with
  | collect => exact .single (.collect r [])
  | pass forced =>
    have hpassed : Works s (r, []) (r.note (.passed forced), []) := .note r _
    have hannounced := hpassed.tail (.announce _ _)
    have hflushed := hannounced.trans (Works.flushIfDue _ forced)
    exact hflushed.tail (.collect _ _)

/-- Gathering lines ends no write and begins none yet. -/
theorem isIdleSince (h : Gathers s r gathered lines) :
    History.IsIdleSince r.history gathered.history := by
  have hstart := History.isIdleSince_refl r.history
  cases h with
  | collect =>
    rw [Run.collect_eq]
    exact (hstart.cons rfl).append (History.isWriting_of_mem_noticed _ _)
  | pass forced =>
    obtain ⟨_, _, notices, collected, flushes, heq, hflushes⟩ := r.gathered_eq s forced
    rw [heq]
    refine ((hstart.cons rfl).append ?_ |>.cons rfl).append (History.isWriting_of_mem_noticed _ _)
    rcases hflushes with ⟨rfl, -⟩ | ⟨earlier, batch, rfl⟩
    · exact List.forall_mem_nil _
    · exact List.forall_mem_append.2
        ⟨History.isWriting_of_mem_noticed _ _, List.forall_mem_singleton.2 rfl⟩

end Gathers

/-! ## What a move does about writes -/

/-- What a move can do about the writes of a run. -/
inductive WriteEffect (s : Shipper) (r r' : Run τ) : Prop
  /-- No write begins or ends. -/
  | idle (since : History.IsIdleSince r.history r'.history)
    (pending : r'.task.pending? = r.task.pending?)
  /-- A write begins, with lines that were gathered. -/
  | begins {gathering gathered : Run τ} {lines : List Rendered} (free : r.task.pending? = none)
    (works : Works s (r, []) (gathering, []))
    (since : History.IsIdleSince r.history gathering.history)
    (gathers : Gathers s gathering gathered lines) (nonempty : lines ≠ [])
    (history : r'.history = ⟨gathered.now, .attempted lines⟩ :: gathered.history)
    (pending : r'.task.pending? = some lines)
  /-- The write that the task is about ends. -/
  | ends {lines : List Rendered} {e : Entry} {before : History}
    (writing : r.task.pending? = some lines) (ended : e.occurrence.ended? = some lines)
    (before_since : History.IsIdleSince r.history before)
    (since : History.IsIdleSince (e :: before) r'.history) (pending : r'.task.pending? = none)

section Effects

variable [Transport τ]

/-- What follows a write begins none by itself. -/
theorem Run.proceed_effect (r : Run τ) (next : Next) :
    History.IsIdleSince r.history (r.proceed next).history ∧
      (r.proceed next).task.pending? = none := by
  have hstart := History.isIdleSince_refl r.history
  cases next with
  | resume due => exact ⟨hstart, rfl⟩
  | close =>
    unfold proceed
    dsimp only
    split
    · exact ⟨hstart.cons rfl, rfl⟩
    · exact ⟨(hstart.cons rfl).cons rfl, rfl⟩

namespace WriteEffect

variable {r gathering gathered : Run τ} {lines : List Rendered}

omit [Transport τ] in
/-- A change in which the task goes on without writing. -/
theorem of_free {r' : Run τ} (free : r.task.pending? = none)
    (since : History.IsIdleSince r.history r'.history) (pending : r'.task.pending? = none) :
    WriteEffect s r r' :=
  .idle since (pending.trans free.symm)

/-- Gathered lines are sent, unless there are none. -/
theorem send (free : r.task.pending? = none) (works : Works s (r, []) (gathering, []))
    (since : History.IsIdleSince r.history gathering.history)
    (gathers : Gathers s gathering gathered lines) (next : Next) :
    WriteEffect s r (gathered.send lines next) := by
  unfold Run.send
  split
  · obtain ⟨hproceed, hpending⟩ := gathered.proceed_effect next
    exact of_free free ((since.trans gathers.isIdleSince).trans hproceed) hpending
  · rename_i hlines
    exact .begins free works since gathers (fun hnil => hlines (List.isEmpty_iff.2 hnil)) rfl rfl

theorem finish {asked : Run τ} (free : r.task.pending? = none)
    (works : Works s (r, []) (asked, [])) (since : History.IsIdleSince r.history asked.history) :
    WriteEffect s r (asked.finish s) := by
  unfold Run.finish
  split
  · exact of_free free since rfl
  · let last : Run τ := { asked with finalFlushed := true }
    have hlast : Works s (r, []) (last, []) := works.trans (Works.control asked last)
    rw [Run.pass_eq]
    exact send free hlast since (.pass true) .close

/-- The write of the task ends. -/
theorem complete (writing : r.task.pending? = some lines) (next : Next) :
    WriteEffect s r (r.complete lines next) := by
  let written := Transport.write r.transport (Run.payloadOf lines)
  let noticed : Run τ := ({ r with transport := written.transport } : Run τ).noteAll
    (written.notices.map .transport)
  have hnoticed : History.IsIdleSince r.history noticed.history := by
    show History.IsIdleSince _ (Run.noteAll _ _).history
    rw [Run.noteAll_eq_noticed]
    exact (History.isIdleSince_refl _).append (History.isWriting_of_mem_noticed _ _)
  unfold Run.complete
  dsimp only
  split
  · obtain ⟨hproceed, hpending⟩ := (noticed.note (.delivered lines)).proceed_effect next
    exact .ends writing rfl hnoticed hproceed hpending
  · rename_i error _
    obtain ⟨hproceed, hpending⟩ := ((noticed.note (.lost lines error)).note
      (.noticed (.sendFailed lines.length error))).proceed_effect next
    exact .ends (e := ⟨noticed.now, .lost lines error⟩) writing rfl hnoticed
      (((History.isIdleSince_refl _).cons rfl).trans hproceed) hpending

end WriteEffect

/-- What the flush task does about writes. -/
theorem Run.Advance.writeEffect {r next : Run τ} (ha : r.Advance s next) : WriteEffect s r next := by
  have hstart := History.isIdleSince_refl r.history
  have hlooking : ∀ {waits due}, r.task = .looking waits due → r.task.pending? = none := by
    intro waits due htask
    rw [htask]
    rfl
  cases ha with
  | begin htask => exact .of_free (by rw [htask]; rfl) hstart rfl
  | finish htask hcancelled => exact .finish (hlooking htask) (Works.note r _) (hstart.cons rfl)
  | @wake _ due woken htask hcancelled hwakeups hwoken =>
    have hwork : Works s (r, []) (woken, []) := by
      rw [hwoken]
      exact .control r _
    have hsince : History.IsIdleSince r.history woken.history := by
      rw [hwoken]
      exact hstart
    exact .send (hlooking htask) hwork hsince .collect _
  | tick htask hcancelled hwakeups hdue => exact .send (hlooking htask) .refl hstart (.pass false) _
  | wait htask hcancelled hwakeups hdue => exact .of_free (hlooking htask) hstart rfl
  | @complete lines ends following htask hends => exact .complete (by rw [htask]; rfl) following

/-- Every move has one of the effects. -/
theorem Move.writeEffect {r r' : Run τ} (hm : Move s r r') (h : r.Coherent) :
    WriteEffect s r r' := by
  have hstart := History.isIdleSince_refl r.history
  cases hm with
  | register reading =>
    refine .idle ?_ (congrArg Task.pending? (r.task_register s reading))
    rw [Run.history_register]
    exact hstart.cons rfl
  | start inRuntime =>
    rcases r.start_cases inRuntime with heq | ⟨hidle, heq⟩
    · rw [heq]
      exact .idle hstart rfl
    · rw [heq]
      exact .of_free (by rw [h.absent_iff.2 hidle]; rfl) (hstart.cons rfl) rfl
  | cancel => exact .idle hstart rfl
  | requestStop =>
    rcases r.requestStop_cases s with ⟨hidle, heq⟩ | ⟨-, heq⟩ | ⟨-, heq⟩
    · rw [heq]
      exact .finish (by rw [h.absent_iff.2 hidle]; rfl)
        (Works.control r { r with lifecycle := .stopped }) hstart
    · rw [heq]
      exact .idle hstart rfl
    · rw [heq]
      exact .idle hstart rfl
  | concludeStop =>
    rw [h.concludeStop_eq s]
    exact .idle hstart rfl
  | advance hnext => exact (Run.advance_of_advance? hnext).writeEffect
  | elapse instant => exact .idle hstart rfl
  | pace durations => exact .idle hstart rfl
  | disturb change => exact .idle hstart rfl

/-! ## The moments of a write -/

/-- The moment at which the lines of a write were gathered. -/
theorem Moves.moment_of_attempt {r₀ r : Run τ} (h : Moves s r₀ r) (hcoherent : r₀.Coherent)
    (hnew : r₀.history = []) {later earlier : History} {t : Nat} {lines : List Rendered}
    (hr : r.history = later ++ ⟨t, .attempted lines⟩ :: earlier) :
    ∃ before gathering gathered, Moves s r₀ before ∧ Works s (before, []) (gathering, []) ∧
      History.IsIdleSince before.history gathering.history ∧
      Gathers s gathering gathered lines ∧ lines ≠ [] ∧ gathered.history = earlier := by
  induction h generalizing later with
  | refl =>
    rw [hnew] at hr
    cases later <;> cases hr
  | @tail before r hfirst hlast ih =>
    cases hlast.writeEffect (Moves.coherent hfirst hcoherent) with
    | idle since pending =>
      obtain ⟨between, hbefore, -⟩ := since.split hr rfl
      exact ih hbefore
    | begins free works since gathers nonempty history pending =>
      cases later with
      | nil =>
        obtain ⟨hentry, hearlier⟩ := List.cons.inj (history.symm.trans hr)
        obtain rfl := Occurrence.attempted.inj (Entry.mk.inj hentry).2
        exact ⟨before, _, _, hfirst, works, since, gathers, nonempty, hearlier⟩
      | cons e later =>
        obtain ⟨-, hgathered⟩ := List.cons.inj (history.symm.trans hr)
        obtain ⟨between, hbefore, -⟩ := (since.trans gathers.isIdleSince).split hgathered rfl
        exact ih hbefore
    | ends writing ended before_since since pending =>
      obtain ⟨between, hbetween, -⟩ := since.split hr rfl
      cases between with
      | nil =>
        obtain rfl := (List.cons.inj hbetween).1
        cases ended
      | cons x between =>
        obtain ⟨between', hbefore, -⟩ := before_since.split (List.cons.inj hbetween).2 rfl
        exact ih hbefore

/-- The beginning of a write that ended, and of the one that the task is about. -/
theorem Moves.attempt_of_end {r₀ r : Run τ} (h : Moves s r₀ r) (hcoherent : r₀.Coherent)
    (hnew : r₀.history = []) (hfree : r₀.task.pending? = none) :
    (∀ lines, r.task.pending? = some lines →
      ∃ t before, History.IsIdleSince (⟨t, .attempted lines⟩ :: before) r.history) ∧
    ∀ later e earlier lines, r.history = later ++ e :: earlier →
      e.occurrence.ended? = some lines →
      ∃ t before, History.IsIdleSince (⟨t, .attempted lines⟩ :: before) earlier := by
  induction h with
  | refl =>
    constructor
    · intro lines hlines
      rw [hfree] at hlines
      cases hlines
    · intro later e earlier lines hr
      rw [hnew] at hr
      cases later <;> cases hr
  | @tail before r hfirst hlast ih =>
    obtain ⟨hpending, hended⟩ := ih
    cases hlast.writeEffect (Moves.coherent hfirst hcoherent) with
    | idle since pending =>
      constructor
      · intro lines hlines
        obtain ⟨t, begun, hbegun⟩ := hpending lines (pending.symm.trans hlines)
        exact ⟨t, begun, hbegun.trans since⟩
      · intro later e earlier lines hr he
        obtain ⟨between, hbefore, -⟩ := since.split hr (Occurrence.isWriting_of_ended? he)
        exact hended between e earlier lines hbefore he
    | begins free works since gathers nonempty history pending =>
      constructor
      · intro lines hlines
        obtain rfl := Option.some.inj (pending.symm.trans hlines)
        rw [history]
        exact ⟨_, _, History.isIdleSince_refl _⟩
      · intro later e earlier lines hr he
        cases later with
        | nil =>
          obtain ⟨rfl, -⟩ := List.cons.inj (history.symm.trans hr)
          cases he
        | cons x later =>
          obtain ⟨-, hgathered⟩ := List.cons.inj (history.symm.trans hr)
          obtain ⟨between, hbefore, -⟩ :=
            (since.trans gathers.isIdleSince).split hgathered (Occurrence.isWriting_of_ended? he)
          exact hended between e earlier lines hbefore he
    | ends writing ended before_since since pending =>
      constructor
      · intro lines hlines
        rw [pending] at hlines
        cases hlines
      · intro later e earlier lines hr he
        obtain ⟨between, hbetween, -⟩ := since.split hr (Occurrence.isWriting_of_ended? he)
        cases between with
        | nil =>
          obtain ⟨rfl, rfl⟩ := List.cons.inj hbetween
          obtain rfl := Option.some.inj (ended.symm.trans he)
          obtain ⟨t, begun, hbegun⟩ := hpending _ writing
          exact ⟨t, begun, hbegun.trans before_since⟩
        | cons x between =>
          obtain ⟨between', hbefore, -⟩ := before_since.split (List.cons.inj hbetween).2
            (Occurrence.isWriting_of_ended? he)
          exact hended between' e earlier lines hbefore he

end Effects

end LogShipper
