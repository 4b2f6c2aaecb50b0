import LogShipper.Event.Sample
import LogShipper.Number.Binary64
import LogShipper.Table

/-!
# Triggers

A trigger thins out the events of one severity. Within a window of time the first event of a key
is forwarded, and from then on each event whose number reaches a threshold that grows by a factor
with every event forwarded: with the factor 2 these are the events 1, 2, 4, 8 and so on. A factor
of at most one never lets the threshold grow, so that every event is forwarded. An event that
comes later than the window allows opens a new one.

The thresholds are taken from a `ThresholdArithmetic`: the shipper uses the 64-bit binary format,
and the law of thinning is exact over the rational numbers.
-/

namespace LogShipper

universe u v

/-- The numbers that thresholds are made of. -/
class ThresholdArithmetic (θ : Type v) where
  ofNat : Nat → θ
  le : θ → θ → Bool
  lt : θ → θ → Bool
  mul : θ → θ → θ

instance : ThresholdArithmetic Binary64 :=
  ⟨Binary64.ofNat, Binary64.le, Binary64.lt, Binary64.mul⟩

instance : ThresholdArithmetic Rat :=
  ⟨fun n => n, fun x y => decide (x ≤ y), fun x y => decide (x < y), fun x y => x * y⟩

/-- Which events a trigger is about, how it thins them out, and what it asks of a sample. -/
structure TriggerRule (θ : Type v) where
  severity : Severity
  /-- The factor by which the threshold grows. -/
  multiplier : θ
  /-- The length of a window in milliseconds. -/
  window : Nat
  /-- The stack depth of a sample. -/
  depth : Int
deriving Repr

/-- The events of one key in the present window. -/
structure TriggerWindow (θ : Type v) where
  count : Nat
  opened : Nat
  threshold : θ
deriving Repr

variable {κ : Type u} {θ : Type v} [DecidableEq κ] [ThresholdArithmetic θ]

namespace TriggerWindow

/-- The window that opens at an instant. -/
def openAt (now : Nat) : TriggerWindow θ := ⟨0, now, ThresholdArithmetic.ofNat 1⟩

/-- The window in which an event at an instant falls: the present one, unless the instant is more
than the length of the window after its start. -/
def atInstant (w : TriggerWindow θ) (length now : Nat) : TriggerWindow θ :=
  if length < now - w.opened then openAt now else w

/-- Counts an event, and says whether it is forwarded. -/
def advance (w : TriggerWindow θ) (multiplier : θ) : TriggerWindow θ × Bool :=
  let count := w.count + 1
  let fires := ThresholdArithmetic.le w.threshold (ThresholdArithmetic.ofNat count)
  let grows := fires && ThresholdArithmetic.lt (ThresholdArithmetic.ofNat 1) multiplier
  ({ w with
      count
      threshold := if grows then ThresholdArithmetic.mul w.threshold multiplier else w.threshold },
    fires)

end TriggerWindow

/-- A trigger with its window for each key. -/
structure Trigger (κ : Type u) (θ : Type v) where
  rule : TriggerRule θ
  windows : Table κ (TriggerWindow θ)

namespace Trigger

/-- A trigger that has seen no event. -/
def new (rule : TriggerRule θ) : Trigger κ θ := ⟨rule, .empty⟩

/-- Whether the trigger is about a severity. -/
def appliesTo (t : Trigger κ θ) (severity : Severity) : Bool := t.rule.severity = severity

/-- Counts an event of a key at an instant, and says whether it is forwarded. -/
def offer (t : Trigger κ θ) (key : κ) (now : Nat) : Trigger κ θ × Bool :=
  let present := (t.windows.find? key).getD (.openAt now)
  let step := (present.atInstant t.rule.window now).advance t.rule.multiplier
  ({ t with windows := t.windows.insert key step.1 }, step.2)

end Trigger

/-- The triggers of a shipper. -/
structure TriggerSet (κ : Type u) (θ : Type v) where
  triggers : List (Trigger κ θ)

namespace TriggerSet

/-- The triggers with the given rules. -/
def ofRules (rules : List (TriggerRule θ)) : TriggerSet κ θ := ⟨rules.map .new⟩

/-- The depth to ask for when one more trigger fires. -/
def join (requested : Option Int) (depth : Int) : Option Int :=
  some (requested.elim depth fun present => joinDepths present depth)

/-- Offers an event to the triggers of its severity, one after the other. -/
def offerTo (key : κ) (severity : Severity) (now : Nat) :
    Option Int → List (Trigger κ θ) → List (Trigger κ θ) × Option Int
  | requested, [] => ([], requested)
  | requested, t :: ts =>
    if t.appliesTo severity then
      let step := t.offer key now
      let rest := offerTo key severity now
        (if step.2 then join requested t.rule.depth else requested) ts
      (step.1 :: rest.1, rest.2)
    else
      let rest := offerTo key severity now requested ts
      (t :: rest.1, rest.2)

/-- Offers an event to every trigger of its severity. If one of them forwards it, the result is
the stack depth that satisfies all of those. -/
def offer (set : TriggerSet κ θ) (key : κ) (severity : Severity) (now : Nat) :
    TriggerSet κ θ × Option Int :=
  let step := offerTo key severity now none set.triggers
  (⟨step.1⟩, step.2)

end TriggerSet

end LogShipper
