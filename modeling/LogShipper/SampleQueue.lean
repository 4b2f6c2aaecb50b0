/-!
# The queue of samples

Samples wait in a queue until they are collected. No sample is refused: when more wait than the
threshold allows, the oldest one is dropped. The drops are counted until they are asked for.
-/

namespace LogShipper

universe u

/-- Samples that wait, oldest first. -/
structure SampleQueue (α : Type u) where
  items : List α
  /-- The number of samples that wait, as the queue counts it. -/
  waiting : Nat
  threshold : Nat
  /-- The drops that were not yet asked for. -/
  dropped : Nat
deriving Repr

namespace SampleQueue

variable {α : Type u}

/-- The queue in which at most `threshold` samples wait. -/
def new (threshold : Nat) : SampleQueue α := ⟨[], 0, threshold, 0⟩

/-- Adds a sample. The second part is the sample that is dropped for it, if there is one. -/
def push (q : SampleQueue α) (x : α) : SampleQueue α × Option α :=
  let items := q.items ++ [x]
  if q.threshold < q.waiting + 1 then
    ({ q with items := items.tail, dropped := q.dropped + 1 }, items.head?)
  else ({ q with items, waiting := q.waiting + 1 }, none)

/-- Takes out all samples, oldest first. -/
def drain (q : SampleQueue α) : SampleQueue α × List α :=
  ({ q with items := [], waiting := q.waiting - q.items.length }, q.items)

/-- Asks for the number of drops since it was last asked for. -/
def takeDropped (q : SampleQueue α) : SampleQueue α × Nat := ({ q with dropped := 0 }, q.dropped)

/-- The number of samples that wait. -/
def size (q : SampleQueue α) : Nat := q.items.length

/-- Whether no sample waits. -/
def isEmpty (q : SampleQueue α) : Bool := q.items.isEmpty

end SampleQueue

end LogShipper
