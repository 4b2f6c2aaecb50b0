import LogShipper.Aggregator.Intake

/-!
# What registering does

Every event is counted.  Besides, registering does one of three things (`Intake.register_cases`): no
sample is taken, or the sample of a fatal event joins the urgent ones, or the sample of another event
is pushed into the queue.
-/

namespace LogShipper

/-- The sample that joined the queue. -/
def Sampling.queued? : Sampling → Option Sample
  | .queued sample _ => some sample
  | _ => none

/-- The sample that was dropped for another one. -/
def Sampling.evicted? : Sampling → Option Sample
  | .queued _ evicted => evicted
  | _ => none

/-- The sample that joined the urgent ones. -/
def Sampling.urgent? : Sampling → Option Sample
  | .urgent sample => some sample
  | _ => none

/-- The sample of a fatal event, if it is to be sampled and can be written. -/
def Shipper.fatalSample? (s : Shipper) (reading : Reading) : Option Sample :=
  if s.settings.sendSamples && reading.enabled && reading.fatal then
    (Sample.capture reading unlimitedStack).toOption
  else none

namespace Intake

variable (s : Shipper) (i : Intake) (now : Nat) (reading : Reading)

/-- A fatal event: its sample joins the urgent ones, if it can be written. -/
theorem sampleFatal_cases :
    (∃ reason, i.sampleFatal reading = (i, .failed reason) ∧
      (Sample.capture reading unlimitedStack).toOption = none) ∨
    ∃ sample, i.sampleFatal reading = ({ i with urgent := i.urgent ++ [sample] }, .urgent sample) ∧
      (Sample.capture reading unlimitedStack).toOption = some sample := by
  unfold sampleFatal
  cases Sample.capture reading unlimitedStack with
  | error reason => exact .inl ⟨reason, rfl, rfl⟩
  | ok sample => exact .inr ⟨sample, rfl, rfl⟩

/-- Any other event: its sample is pushed into the queue, if a trigger asks for it and it can be
written. -/
theorem sampleTriggered_cases :
    (∃ triggers sampling, i.sampleTriggered now reading = ({ i with triggers }, sampling) ∧
      sampling.queued? = none ∧ sampling.evicted? = none ∧ sampling.urgent? = none) ∨
    ∃ triggers sample, i.sampleTriggered now reading =
      ({ i with triggers, queue := (i.queue.push sample).1 },
        .queued sample (i.queue.push sample).2) := by
  unfold sampleTriggered
  dsimp only
  split
  · exact .inl ⟨_, _, rfl, rfl, rfl, rfl⟩
  · rename_i depth hdepth
    cases Sample.capture reading depth with
    | error reason => exact .inl ⟨_, _, rfl, rfl, rfl, rfl⟩
    | ok sample => exact .inr ⟨_, sample, rfl⟩

/-- What registering does besides counting. -/
theorem register_cases :
    (∃ triggers sampling, i.register s now reading =
        ({ i.count reading with triggers }, sampling) ∧
      sampling.queued? = none ∧ sampling.evicted? = none ∧ s.fatalSample? reading = none ∧
      sampling.urgent? = none) ∨
    (∃ sample, i.register s now reading =
        ({ i.count reading with urgent := i.urgent ++ [sample] }, .urgent sample) ∧
      s.fatalSample? reading = some sample) ∨
    ∃ triggers sample, i.register s now reading =
        ({ i.count reading with triggers, queue := (i.queue.push sample).1 },
          .queued sample (i.queue.push sample).2) ∧
      s.fatalSample? reading = none := by
  unfold register Shipper.fatalSample?
  dsimp only
  by_cases hoff : (!s.settings.sendSamples || !reading.enabled) = true
  · have hon : (s.settings.sendSamples && reading.enabled) = false := by
      simpa [← Bool.not_and] using hoff
    rw [if_pos hoff, hon]
    exact .inl ⟨_, _, rfl, rfl, rfl, rfl, rfl⟩
  have hon : (s.settings.sendSamples && reading.enabled) = true := by
    simpa [← Bool.not_and] using hoff
  rw [if_neg hoff, hon, Bool.true_and]
  by_cases hfatal : reading.fatal = true
  · rw [if_pos hfatal, if_pos hfatal]
    rcases (i.count reading).sampleFatal_cases reading with
        ⟨reason, heq, hnone⟩ | ⟨sample, heq, hsome⟩
    · exact .inl ⟨_, _, heq, rfl, rfl, hnone, rfl⟩
    · exact .inr (.inl ⟨sample, heq, hsome⟩)
  · rw [if_neg hfatal, if_neg hfatal]
    rcases (i.count reading).sampleTriggered_cases now reading with
        ⟨triggers, sampling, heq, hqueued, hevicted, hurgent⟩ | ⟨triggers, sample, heq⟩
    · exact .inl ⟨triggers, sampling, heq, hqueued, hevicted, rfl, hurgent⟩
    · exact .inr (.inr ⟨triggers, sample, heq, rfl⟩)

/-- Every event is counted. -/
theorem counter_register : (i.register s now reading).1.counter =
    i.counter.increment reading.key reading.label := by
  rcases i.register_cases s now reading with
      ⟨_, _, heq, -⟩ | ⟨_, heq, -⟩ | ⟨_, _, heq, -⟩ <;>
  · rw [heq]
    rfl

/-- What is urgent after an event. -/
theorem urgent_register : (i.register s now reading).1.urgent =
    i.urgent ++ (s.fatalSample? reading).toList := by
  rcases i.register_cases s now reading with
      ⟨_, _, heq, -, -, hnone, -⟩ | ⟨sample, heq, hsome⟩ | ⟨_, _, heq, hnone⟩
  · rw [heq, hnone]
    exact (List.append_nil _).symm
  · rw [heq, hsome]
    rfl
  · rw [heq, hnone]
    exact (List.append_nil _).symm

/-- What is told of the sample of a fatal event. -/
theorem urgent?_register : (i.register s now reading).2.urgent? = s.fatalSample? reading := by
  rcases i.register_cases s now reading with
      ⟨_, _, heq, -, -, hnone, hurgent⟩ | ⟨sample, heq, hsome⟩ | ⟨_, _, heq, hnone⟩
  · rw [heq, hnone]
    exact hurgent
  · rw [heq, hsome]
    rfl
  · rw [heq, hnone]
    rfl

end Intake

end LogShipper
