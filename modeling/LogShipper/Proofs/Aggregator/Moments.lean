import LogShipper.Proofs.Aggregator.Effects
import LogShipper.Proofs.Aggregator.Moves

/-!
# Moments of a run

A history only grows, and only registering an event adds a registration to it.  So each
registration in the history of a run leads back to the moment at which the event was registered
(`Moves.moment_of_registration`), where everything that holds at every moment can be used.
-/

namespace LogShipper

open Wire Transport

variable {τ : Type} {s : Shipper}

/-- Work adds to the history, but no registration. -/
theorem Work.extends {p p' : Run τ × List Rendered} (hw : Work s p p') :
    ∃ added, p'.1.history = added ++ p.1.history ∧ ∀ e ∈ added, e.occurrence.event? = none := by
  have hnoticed : ∀ (instant : Nat) (notices : List Notice) (o : Occurrence), o.event? = none →
      ∀ e ∈ Run.noticed instant notices ++ [⟨instant, o⟩], e.occurrence.event? = none := by
    intro instant notices o ho
    refine List.forall_mem_append.2 ?_
    constructor
    · exact Run.forall_mem_noticed.2 fun _ _ => rfl
    · exact List.forall_mem_singleton.2 ho
  cases hw with
  | announce r lines => exact ⟨[], rfl, List.forall_mem_nil _⟩
  | flush r lines forced hdue =>
    let batch := (r.reporting.flush r.now r.intake.counter).2
    refine ⟨_, ?_, hnoticed r.now (r.flushNotices s).reverse (.flushed forced batch) rfl⟩
    rw [Run.flush_eq, List.append_assoc]
    rfl
  | collect r lines =>
    let collected := r.intake.collect.2
    refine ⟨_, ?_, hnoticed r.now (r.collectNotices s).reverse (.collected collected) rfl⟩
    rw [Run.collect_eq, List.append_assoc]
    rfl
  | attempt r lines =>
    exact ⟨[⟨r.now, .attempted lines⟩], rfl, List.forall_mem_singleton.2 rfl⟩
  | note r lines o ho =>
    exact ⟨[⟨r.now, o⟩], rfl, List.forall_mem_singleton.2 (Occurrence.event?_of_isQuiet ho)⟩
  | control lines intake reporting history now =>
    exact ⟨[], history, List.forall_mem_nil _⟩

theorem Works.extends {p p' : Run τ × List Rendered} (hw : Works s p p') :
    ∃ added, p'.1.history = added ++ p.1.history ∧ ∀ e ∈ added, e.occurrence.event? = none := by
  induction hw with
  | refl => exact ⟨[], rfl, List.forall_mem_nil _⟩
  | tail _ hlast ih =>
    obtain ⟨added, hadded, hnone⟩ := ih
    obtain ⟨added', hadded', hnone'⟩ := hlast.extends
    refine ⟨added' ++ added, by rw [hadded', hadded, List.append_assoc], ?_⟩
    exact List.forall_mem_append.2 ⟨hnone', hnone⟩

theorem Works.events_eq {p p' : Run τ × List Rendered} (hw : Works s p p') :
    p'.1.history.events = p.1.history.events := by
  obtain ⟨added, hadded, hnone⟩ := hw.extends
  rw [hadded]
  exact History.select_append_of_none hnone _

/-- An entry of some kind is not among entries that are not of that kind. -/
theorem History.split_of_forall_not {p : Entry → Prop} {added before later earlier : History}
    {e : Entry} (hsplit : added ++ before = later ++ e :: earlier) (hnone : ∀ x ∈ added, ¬p x)
    (he : p e) : ∃ between, later = added ++ between ∧ before = between ++ e :: earlier := by
  rcases List.append_eq_append_iff.1 hsplit with
      ⟨between, hlater, hbefore⟩ | ⟨rest, hadded, hrest⟩
  · exact ⟨between, hlater, hbefore⟩
  · cases rest with
    | nil => exact ⟨[], by rw [hadded, List.append_nil, List.append_nil], hrest.symm⟩
    | cons x rest =>
      obtain ⟨rfl, -⟩ := List.cons.inj hrest
      exact absurd he (hnone e (by rw [hadded]; simp))

/-- The moment at which an event was registered, and what has happened since. -/
theorem Moves.moment_of_registration [Transport τ] {r₀ r : Run τ} (h : Moves s r₀ r)
    (hnew : r₀.history = []) {later earlier : History} {t : Nat} {reading : Reading}
    {sampling : Sampling}
    (hr : r.history = later ++ ⟨t, .registered reading sampling⟩ :: earlier) :
    ∃ r₁, Moves s r₀ r₁ ∧ r₁.history = earlier ∧ r₁.now = t ∧
      (r₁.intake.register s t reading).2 = sampling ∧ Moves s (r₁.register s reading).1 r := by
  induction h generalizing later with
  | refl =>
    rw [hnew] at hr
    cases later <;> cases hr
  | @tail before r hfirst hlast ih =>
    rcases hlast.works with ⟨reading', rfl⟩ | hworks
    · rw [Run.history_register] at hr
      cases later with
      | nil =>
        obtain ⟨hentry, hearlier⟩ := List.cons.inj hr
        obtain ⟨rfl, hoccurrence⟩ := Entry.mk.inj hentry
        obtain ⟨rfl, hsampling⟩ := Occurrence.registered.inj hoccurrence
        exact ⟨before, hfirst, hearlier, rfl, hsampling, .refl⟩
      | cons x later =>
        obtain ⟨r₁, hto, hhistory, hnow, hsampling, hsince⟩ := ih (List.cons.inj hr).2
        exact ⟨r₁, hto, hhistory, hnow, hsampling, hsince.tail hlast⟩
    · obtain ⟨added, hadded, hnone⟩ := hworks.extends
      obtain ⟨between, -, hbefore⟩ :=
        History.split_of_forall_not (p := fun e => e.occurrence.event? ≠ none)
          (hadded.symm.trans hr) (fun e he hevent => hevent (hnone e he)) (by nofun)
      obtain ⟨r₁, hto, hhistory, hnow, hsampling, hsince⟩ := ih hbefore
      exact ⟨r₁, hto, hhistory, hnow, hsampling, hsince.tail hlast⟩

end LogShipper
