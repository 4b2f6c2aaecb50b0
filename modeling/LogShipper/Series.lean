import LogShipper.Counting

/-!
# Series

A cycle turns the growth of the counts into the values that are reported. A counter reports the
sum of its deltas in the cycle; when it has none it goes on to report zero for a number of further
cycles, the repeat count, and is then silent until it grows again. Beside the counter of each key
and label stands the total of each label over all keys, which starts from a seed and never goes
back to zero. Values and totals are numbers of 64 bits and are added up as such.
-/

namespace LogShipper

universe u v

variable {κ : Type u} {ι : Type v} [DecidableEq κ] [DecidableEq ι]

/-- The value of a counter in the present cycle, and the number of cycles for which it will still
be reported. -/
structure CycleCounter where
  value : Int := 0
  repeats : Int := 0
deriving DecidableEq, Repr

namespace CycleCounter

/-- The counter at the start of a further cycle. -/
def age (c : CycleCounter) : CycleCounter := ⟨0, c.repeats - 1⟩

/-- The counter after a delta. -/
def add (c : CycleCounter) (delta : Int) (repeatCount : Nat) : CycleCounter :=
  ⟨Word.add c.value delta, repeatCount⟩

/-- Whether the counter is reported. -/
def isLive (c : CycleCounter) : Bool := 0 ≤ c.repeats

end CycleCounter

/-- A counter with the sum of its values in earlier cycles. -/
structure TotalCounter where
  counter : CycleCounter := {}
  sum : Int
deriving DecidableEq, Repr

namespace TotalCounter

/-- The reported value. -/
def value (t : TotalCounter) : Int := Word.wrap (t.sum + t.counter.value)

/-- The counter at the start of a further cycle. -/
def age (t : TotalCounter) : TotalCounter := ⟨t.counter.age, t.value⟩

/-- The counter after a delta. -/
def add (t : TotalCounter) (delta : Int) (repeatCount : Nat) : TotalCounter :=
  ⟨t.counter.add delta repeatCount, t.sum⟩

end TotalCounter

/-- The values of one cycle. -/
structure SeriesBatch (κ : Type u) (ι : Type v) where
  counters : List ((κ × ι) × Int)
  totals : List (ι × Int)
deriving Repr

/-- Whether nothing is reported. -/
def SeriesBatch.isEmpty (batch : SeriesBatch κ ι) : Bool :=
  batch.counters.isEmpty && batch.totals.isEmpty

/-- The counters between two cycles. -/
structure Series (κ : Type u) (ι : Type v) where
  repeatCount : Nat
  /-- What the total of each label starts from. -/
  seed : ι → Int64
  counters : Table (κ × ι) CycleCounter
  totals : Table ι TotalCounter

namespace Series

/-- The greatest repeat count. -/
def maxRepeatCount : Nat := 0x7FFFFFFF

/-- No counters; a repeat count beyond the greatest one is taken as the greatest. -/
def new (repeatCount : Nat) (seed : ι → Int64) : Series κ ι :=
  ⟨min repeatCount maxRepeatCount, seed, .empty, .empty⟩

/-- All counters at the start of a further cycle. -/
def age (s : Series κ ι) : Series κ ι :=
  { s with
    counters := s.counters.mapValues fun _ c => c.age
    totals := s.totals.mapValues fun _ t => t.age }

/-- The counters after a delta of one key and label. -/
def add (s : Series κ ι) (key : κ) (label : ι) (delta : Int) : Series κ ι :=
  { s with
    counters := s.counters.upsert (key, label) fun c => (c.getD {}).add delta s.repeatCount
    totals := s.totals.upsert label fun t =>
      (t.getD { sum := (s.seed label).toInt }).add delta s.repeatCount }

/-- The deltas one by one. -/
def flatten (deltas : List (κ × Deltas ι)) : List ((κ × ι) × Int) :=
  deltas.flatMap fun entry => entry.2.entries.map fun e => ((entry.1, e.1), e.2)

/-- What is reported of the present counters. -/
def batch (s : Series κ ι) : SeriesBatch κ ι where
  counters := (s.counters.entries.filter fun e => e.2.isLive).map fun e => (e.1, e.2.value)
  totals := (s.totals.entries.filter fun e => e.2.counter.isLive).map fun e => (e.1, e.2.value)

/-- One cycle: the counters age, take their deltas, and are reported. -/
def cycle (s : Series κ ι) (deltas : List (κ × Deltas ι)) : Series κ ι × SeriesBatch κ ι :=
  let next := (flatten deltas).foldl (fun s d => s.add d.1.1 d.1.2 d.2) s.age
  (next, next.batch)

end Series

end LogShipper
