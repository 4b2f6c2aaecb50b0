import LogShipper.Proofs.Aggregator.Intake
import LogShipper.Proofs.Aggregator.Moments
import LogShipper.Proofs.TriggerSet
import LogShipper.Transport.Scripted

/-!
# Budgets are isolated

The triggers of a shipper see the events that are enabled and not fatal, each with its key, its
severity and its instant, and they see nothing else: `Offered` says that they stand where those
events bring them, whatever else happened in between.

So what registering asks for is told by the instants of the earlier such events with the same key
and severity (`Moves.answers_request`), and two runs of a shipper that agree on those ask for the
same, however they differ otherwise (`Moves.budgets_isolated`).
-/

namespace LogShipper

open Wire Transport

/-! ## What the triggers see -/

/-- What the triggers see of an entry: an event that is enabled and not fatal. -/
def Entry.offer? (e : Entry) : Option (Offer Text) :=
  match e.occurrence with
  | .registered reading _ =>
    if reading.enabled ∧ ¬reading.fatal then some ⟨reading.key, reading.severity, e.instant⟩
    else none
  | _ => none

theorem Entry.offer?_of_event? {e : Entry} (h : e.occurrence.event? = none) : e.offer? = none := by
  unfold offer?
  split
  · rename_i heq
    rw [heq] at h
    cases h
  · rfl

namespace History

/-- What the triggers see of a history, in order. -/
def offers (h : History) : List (Offer Text) := (h.filterMap Entry.offer?).reverse

/-- The instants of the events of a key and a severity that are enabled and not fatal. -/
def instantsOf (key : Text) (severity : Severity) (h : History) : List Nat :=
  Offer.instantsOf key severity h.offers

theorem offers_cons (e : Entry) (h : History) : offers (e :: h) = offers h ++ e.offer?.toList := by
  unfold offers
  cases he : e.offer? <;> simp [he]

/-- The triggers see nothing of what tells of no event. -/
theorem offers_append {later : History} (hl : ∀ e ∈ later, e.occurrence.event? = none)
    (earlier : History) : offers (later ++ earlier) = offers earlier := by
  unfold offers
  rw [List.filterMap_append, List.filterMap_eq_nil_iff.2 fun e he => Entry.offer?_of_event? (hl e he),
    List.nil_append]

end History

/-! ## What they ask for -/

/-- The rules of the triggers of a shipper. -/
def Shipper.triggerRules (s : Shipper) : List (TriggerRule Binary64) :=
  s.settings.effectiveTriggers.map TriggerSettings.rule

/-- The stack depth, if any, with which an event of a severity is to be sampled at an instant, after
events of its key and severity at the given instants. -/
def Shipper.request (s : Shipper) (severity : Severity) (instants : List Nat) (now : Nat) :
    Option Int :=
  TriggerRule.request s.triggerRules severity instants now

/-- What becomes of an event answers a request: without one, no sample is taken; with one, the event
is captured with the depth of the request, and its sample joins the queue unless that fails. -/
def Sampling.Answers (reading : Reading) (sampling : Sampling) : Option Int → Prop
  | none => sampling = .unsampled
  | some depth => match Sample.capture reading depth with
    | .error reason => sampling = .failed reason
    | .ok sample => ∃ evicted, sampling = .queued sample evicted

namespace Intake

variable {s : Shipper} (hsend : s.settings.sendSamples = true) (i : Intake) (now : Nat)
  (reading : Reading)

/-- An event that is enabled and not fatal is offered to the triggers, and what becomes of it
answers their request. -/
theorem sampleTriggered_answers : (i.sampleTriggered now reading).1.triggers =
      (i.triggers.offer reading.key reading.severity now).1 ∧
    (i.sampleTriggered now reading).2.Answers reading
      (i.triggers.offer reading.key reading.severity now).2 := by
  unfold sampleTriggered
  dsimp only
  split
  · rename_i hnone
    rw [hnone]
    exact ⟨rfl, rfl⟩
  · rename_i depth hdepth
    rw [hdepth]
    unfold Sampling.Answers
    dsimp only
    cases Sample.capture reading depth with
    | error reason => exact ⟨rfl, rfl⟩
    | ok sample => exact ⟨rfl, _, rfl⟩

include hsend

/-- Registering such an event. -/
theorem register_of_offered (henabled : reading.enabled = true) (hfatal : reading.fatal = false) :
    i.register s now reading = (i.count reading).sampleTriggered now reading := by
  unfold register
  rw [hsend, henabled, hfatal]
  rfl

/-- The triggers are offered what they see of the event. -/
theorem triggers_register (sampling : Sampling) : (i.register s now reading).1.triggers =
    i.triggers.offerAll (Entry.offer? ⟨now, .registered reading sampling⟩).toList := by
  unfold Entry.offer?
  dsimp only
  by_cases henabled : reading.enabled = true
  · by_cases hfatal : reading.fatal = true
    · rw [if_neg fun h => h.2 hfatal]
      unfold register
      rw [hsend, henabled, hfatal]
      rcases (i.count reading).sampleFatal_cases reading with ⟨_, heq, -⟩ | ⟨_, heq, -⟩
      · exact congrArg (fun p => p.1.triggers) heq
      · exact congrArg (fun p => p.1.triggers) heq
    · rw [if_pos ⟨henabled, hfatal⟩, i.register_of_offered hsend now reading henabled
        (Bool.eq_false_of_not_eq_true hfatal)]
      exact ((i.count reading).sampleTriggered_answers now reading).1
  · rw [if_neg fun h => henabled h.1]
    unfold register
    rw [hsend, Bool.eq_false_of_not_eq_true henabled]
    rfl

end Intake

/-! ## Where the triggers stand -/

variable {τ : Type} {s : Shipper}

/-- The triggers stand where the events that they see bring them. -/
def Offered (s : Shipper) (r : Run τ) : Prop :=
  r.intake.triggers = (TriggerSet.ofRules s.triggerRules).offerAll r.history.offers

theorem Offered.register {r : Run τ} (h : Offered s r) (hsend : s.settings.sendSamples = true)
    (reading : Reading) : Offered s (r.register s reading).1 := by
  unfold Offered
  rw [Run.history_register, History.offers_cons, TriggerSet.offerAll_append, ← h,
    Run.intake_register]
  exact r.intake.triggers_register hsend r.now reading _

/-- No piece of work touches the triggers. -/
theorem Work.triggers_eq {p p' : Run τ × List Rendered} (hw : Work s p p') :
    p'.1.intake.triggers = p.1.intake.triggers := by
  cases hw with
  | announce r lines => rfl
  | flush r lines forced hdue =>
    show (r.flush s forced).1.intake.triggers = _
    rw [Run.flush_eq]
  | collect r lines =>
    show (r.collect s).1.intake.triggers = _
    rw [Run.collect_eq]
    rfl
  | attempt r lines => rfl
  | note r lines o ho => rfl
  | control lines intake reporting history now => rw [intake]

theorem Work.offered {p p' : Run τ × List Rendered} (hw : Work s p p') (h : Offered s p.1) :
    Offered s p'.1 := by
  obtain ⟨added, hadded, hnone⟩ := hw.extends
  unfold Offered
  rw [hw.triggers_eq, hadded, History.offers_append hnone]
  exact h

theorem Moves.offered [Transport τ] {r₀ r : Run τ} (h : Moves s r₀ r)
    (hsend : s.settings.sendSamples = true) (hr : Offered s r₀) : Offered s r :=
  Moves.keeps (P := fun p => Offered s p.1) (fun hw => hw.offered)
    (fun reading hr => hr.register hsend reading) h hr

/-! ## Every event of a run -/

/-- Whether an event that is enabled and not fatal is sampled, and with which depth, is told by the
instants of the earlier such events of its key and severity, and by its own. -/
theorem Moves.answers_request [Transport τ] {transport : τ} {built : Nat} {r : Run τ}
    (h : Moves s (Run.new s transport built) r) (hsend : s.settings.sendSamples = true)
    {later t reading sampling earlier}
    (hsplit : r.history = later ++ ⟨t, .registered reading sampling⟩ :: earlier)
    (henabled : reading.enabled = true) (hfatal : reading.fatal = false) :
    sampling.Answers reading
      (s.request reading.severity (History.instantsOf reading.key reading.severity earlier) t) := by
  obtain ⟨r₁, h₁, rfl, -, rfl, -⟩ := h.moment_of_registration rfl hsplit
  have htriggers : r₁.intake.triggers = _ := h₁.offered hsend rfl
  let offer : Offer Text := ⟨reading.key, reading.severity, t⟩
  have hrequest : (r₁.intake.triggers.offer reading.key reading.severity t).2 =
      s.request reading.severity (History.instantsOf reading.key reading.severity r₁.history) t := by
    rw [htriggers]
    exact TriggerSet.offer_offerAll s.triggerRules r₁.history.offers offer
  rw [r₁.intake.register_of_offered hsend t reading henabled hfatal, ← hrequest]
  exact ((r₁.intake.count reading).sampleTriggered_answers t reading).2

/-- **Budgets are isolated.**  Take two runs of a shipper that sends samples, on any transports, and
in each of them an event that is enabled and not fatal, both of the same key and severity and
registered at the same instant.  As long as the earlier events of this key and severity that were
enabled and not fatal were registered at the same instants in both runs, both events answer the same
request: neither is sampled, or both are captured with the same stack depth.  The runs may differ in
all else that happened before. -/
theorem Moves.budgets_isolated {τ₁ τ₂ : Type} [Transport τ₁] [Transport τ₂] {s : Shipper}
    (hsend : s.settings.sendSamples = true) {transport₁ : τ₁} {transport₂ : τ₂}
    {built₁ built₂ : Nat} {r₁ : Run τ₁} {r₂ : Run τ₂}
    (h₁ : Moves s (Run.new s transport₁ built₁) r₁) (h₂ : Moves s (Run.new s transport₂ built₂) r₂)
    {t later₁ reading₁ sampling₁ earlier₁ later₂ reading₂ sampling₂ earlier₂}
    (hsplit₁ : r₁.history = later₁ ++ ⟨t, .registered reading₁ sampling₁⟩ :: earlier₁)
    (hsplit₂ : r₂.history = later₂ ++ ⟨t, .registered reading₂ sampling₂⟩ :: earlier₂)
    (henabled₁ : reading₁.enabled = true) (hfatal₁ : reading₁.fatal = false)
    (henabled₂ : reading₂.enabled = true) (hfatal₂ : reading₂.fatal = false)
    (hkey : reading₁.key = reading₂.key) (hseverity : reading₁.severity = reading₂.severity)
    (hinstants : History.instantsOf reading₁.key reading₁.severity earlier₁ =
      History.instantsOf reading₁.key reading₁.severity earlier₂) :
    ∃ request, request = s.request reading₁.severity
        (History.instantsOf reading₁.key reading₁.severity earlier₁) t ∧
      sampling₁.Answers reading₁ request ∧ sampling₂.Answers reading₂ request := by
  refine ⟨_, rfl, h₁.answers_request hsend hsplit₁ henabled₁ hfatal₁, ?_⟩
  rw [hinstants, hkey, hseverity]
  exact h₂.answers_request hsend hsplit₂ henabled₂ hfatal₂

/-- The fourth error of a key, with and without a fatal one, a disabled one, one of another key, a
warning, a start and a stop in between: it is sampled with its whole stack in both runs. -/
theorem Moves.budgets_isolated_of_insertions :
    let s := Shipper.plain
    let failed : Reading :=
      { key := "app", label := "ERROR", severity := .error, rendered := .ok "boom" }
    let r₁ := (Run.new s ({} : Scripted) 0).exec s
      [.register failed, .register failed, .sleep 5, .register failed, .sleep 5]
    let r₂ := (Run.new s (⟨1, true⟩ : Scripted) 0).exec s
      [.register failed, .register { failed with fatal := true }, .start true, .register failed,
        .register { failed with enabled := false }, .sleep 5,
        .register { failed with key := "db" }, .register failed,
        .register { failed with severity := .warn }, .sleep 5, .stop]
    (r₁.register s failed).2.Answers failed (some unlimitedStack) ∧
      (r₂.register s failed).2.Answers failed (some unlimitedStack) := by
  intro s failed r₁ r₂
  have hmoves₁ : Moves s (Run.new s ({} : Scripted) 0) (r₁.register s failed).1 :=
    (Moves.exec s _ _).tail (.register r₁ failed)
  have hmoves₂ : Moves s (Run.new s (⟨1, true⟩ : Scripted) 0) (r₂.register s failed).1 :=
    (Moves.exec s _ _).tail (.register r₂ failed)
  have hnow₁ : r₁.now = 10 := by decide +kernel
  have hnow₂ : r₂.now = 10 := by decide +kernel
  have hinstants : r₁.history.instantsOf failed.key failed.severity =
      r₂.history.instantsOf failed.key failed.severity := by decide +kernel
  have hdepth : s.request failed.severity (r₁.history.instantsOf failed.key failed.severity) 10 =
      some unlimitedStack := by decide +kernel
  clear_value r₁ r₂
  have hsplit₁ : (r₁.register s failed).1.history =
      [] ++ ⟨10, .registered failed (r₁.register s failed).2⟩ :: r₁.history := by
    rw [← hnow₁]
    exact r₁.history_register s failed
  have hsplit₂ : (r₂.register s failed).1.history =
      [] ++ ⟨10, .registered failed (r₂.register s failed).2⟩ :: r₂.history := by
    rw [← hnow₂]
    exact r₂.history_register s failed
  obtain ⟨request, hrequest, hanswers⟩ := Moves.budgets_isolated (s := s) rfl hmoves₁ hmoves₂
    hsplit₁ hsplit₂ rfl rfl rfl rfl rfl rfl hinstants
  rw [hrequest, hdepth] at hanswers
  exact hanswers

end LogShipper
