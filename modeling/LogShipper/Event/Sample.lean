import LogShipper.Severity
import LogShipper.Wire.Tag

/-!
# Events and samples

A `Reading` is what a logging system says about one of its events: the key and the label under
which it is counted, its severity, its message (or why it could not be written), and whether it
may be sampled. A `Sample` is an event captured to be forwarded word for word, with as much of
its stack as was asked for.

A stack depth is a number of lines, or `unlimitedStack`; other negative depths keep no line.
-/

namespace LogShipper

/-- The stack depth that keeps every line. -/
def unlimitedStack : Int := -1

/-- What a logging system says about one event. -/
structure Reading where
  key : Text
  label : Text
  severity : Severity
  /-- The message, or the reason why there is none. -/
  rendered : Except Text Text
  /-- Whether the event is serious enough to be sampled. -/
  enabled : Bool := true
  /-- Whether the event is forwarded at once, whatever the triggers say. -/
  fatal : Bool := false
  stack : List Text := []
  context : List Wire.Tag := []
deriving Repr

/-- An event captured to be forwarded. -/
structure Sample where
  key : Text
  label : Text
  severity : Severity
  message : Text
  stack : List Text
  context : List Wire.Tag
  /-- The stack depth that was asked for. -/
  depth : Int
deriving DecidableEq, Repr

/-- The lines of a stack up to a depth. -/
def keepStack (depth : Int) (stack : List Text) : List Text :=
  if depth = unlimitedStack then stack else stack.take depth.toNat

/-- The greater of two stack depths. -/
def joinDepths (a b : Int) : Int :=
  if a = unlimitedStack ∨ b = unlimitedStack then unlimitedStack else max a b

/-- Captures an event with its stack up to a depth. -/
def Sample.capture (reading : Reading) (depth : Int) : Except Text Sample :=
  reading.rendered.map fun message =>
    { key := reading.key
      label := reading.label
      severity := reading.severity
      message
      stack := keepStack depth reading.stack
      context := reading.context
      depth }

@[simp] theorem keepStack_unlimited (stack : List Text) : keepStack unlimitedStack stack = stack := by
  simp [keepStack]

@[simp] theorem keepStack_zero (stack : List Text) : keepStack 0 stack = [] := by
  simp [keepStack, unlimitedStack]

theorem joinDepths_comm (a b : Int) : joinDepths a b = joinDepths b a := by
  simp only [joinDepths, Or.comm, Int.max_comm]

@[simp] theorem joinDepths_unlimited_left (b : Int) :
    joinDepths unlimitedStack b = unlimitedStack := if_pos (.inl rfl)

@[simp] theorem joinDepths_unlimited_right (a : Int) :
    joinDepths a unlimitedStack = unlimitedStack := if_pos (.inr rfl)

theorem joinDepths_of_ne {a b : Int} (ha : a ≠ unlimitedStack) (hb : b ≠ unlimitedStack) :
    joinDepths a b = max a b := if_neg (not_or.2 ⟨ha, hb⟩)

/-- Capturing fails exactly when the event could not be written, with the same reason. -/
theorem Sample.capture_eq_error_iff {reading : Reading} {depth : Int} {reason : Text} :
    Sample.capture reading depth = .error reason ↔ reading.rendered = .error reason := by
  unfold Sample.capture
  cases reading.rendered <;> simp [Except.map]

end LogShipper
