import LogShipper.Number.Word
import LogShipper.Table

/-!
# Counting

Events are counted by key and label, and counts only grow. An observer keeps a snapshot of the
counts that it saw last, and a look gives it the growth since then. A snapshot holds numbers of 64
bits, which need not come from a look, and the growth is the difference in 64 bits. Observers do not
know of each other: a look changes the observer's own snapshot and nothing else.
-/

namespace LogShipper

universe u v

variable {κ : Type u} {ι : Type v} [DecidableEq κ] [DecidableEq ι]

/-- What an observer saw last, by label. -/
abbrev Snapshot (ι : Type v) := Table ι Int

/-- Growth by label. -/
abbrev Deltas (ι : Type v) := Table ι Int

/-- Events counted by label. -/
structure LabelCounter (ι : Type v) where
  counts : Table ι Nat
deriving Repr

namespace LabelCounter

/-- The counter that has seen no event. -/
def empty : LabelCounter ι := ⟨.empty⟩

/-- Counts one event. -/
def increment (c : LabelCounter ι) (label : ι) : LabelCounter ι :=
  ⟨c.counts.upsert label fun n => n.getD 0 + 1⟩

/-- The number of events with a label. -/
def count (c : LabelCounter ι) (label : ι) : Nat := (c.counts.find? label).getD 0

/-- The labels that have grown since the snapshot, and by how much. -/
def growth (c : LabelCounter ι) (last : Snapshot ι) : Deltas ι :=
  c.counts.filterMapValues fun label n =>
    let delta := Word.sub n ((last.find? label).getD 0)
    if 0 < delta then some delta else none

/-- The snapshot after a look: every counted label at its count. -/
def observe (c : LabelCounter ι) (last : Snapshot ι) : Snapshot ι :=
  last.overwrite (c.counts.mapValues fun _ n => (n : Int))

/-- A look: the growth since the snapshot, if there is any, and the new snapshot. -/
def diff (c : LabelCounter ι) (last : Snapshot ι) : Option (Deltas ι) × Snapshot ι :=
  let deltas := c.growth last
  (if deltas.entries.isEmpty then none else some deltas, c.observe last)

@[simp] theorem count_empty (label : ι) : (empty : LabelCounter ι).count label = 0 := rfl

theorem count_increment (c : LabelCounter ι) (label label' : ι) :
    (c.increment label).count label' = c.count label' + if label' = label then 1 else 0 := by
  unfold count increment
  by_cases h : label' = label <;> simp [Table.find?_upsert, h]

end LabelCounter

/-- Events counted by key and label. -/
structure EventCounter (κ : Type u) (ι : Type v) where
  keys : Table κ (LabelCounter ι)
deriving Repr

namespace EventCounter

/-- The counter that has seen no event. -/
def empty : EventCounter κ ι := ⟨.empty⟩

/-- The counter of a key, without events if the key has none. -/
def labels (c : EventCounter κ ι) (key : κ) : LabelCounter ι := (c.keys.find? key).getD .empty

/-- Counts one event. -/
def increment (c : EventCounter κ ι) (key : κ) (label : ι) : EventCounter κ ι :=
  ⟨c.keys.upsert key fun labels => (labels.getD .empty).increment label⟩

/-- The number of events with a key and a label. -/
def count (c : EventCounter κ ι) (key : κ) (label : ι) : Nat := (c.labels key).count label

/-- The number of keys. -/
def keyCount (c : EventCounter κ ι) : Nat := c.keys.size

/-- A look at one key. -/
def diff (c : EventCounter κ ι) (key : κ) (last : Snapshot ι) : Option (Deltas ι) × Snapshot ι :=
  match c.keys.find? key with
  | none => (none, last)
  | some labels => labels.diff last

/-- A look at some keys, with their counters, one after the other. -/
def diffEach : List (κ × LabelCounter ι) → Table κ (Snapshot ι) →
    List (κ × Deltas ι) × Table κ (Snapshot ι)
  | [], snapshots => ([], snapshots)
  | (key, labels) :: rest, snapshots =>
    let look := labels.diff ((snapshots.find? key).getD .empty)
    let others := diffEach rest (snapshots.insert key look.2)
    match look.1 with
    | none => others
    | some deltas => ((key, deltas) :: others.1, others.2)

/-- A look at every key; a missing snapshot is empty. -/
def diffAll (c : EventCounter κ ι) (snapshots : Table κ (Snapshot ι)) :
    List (κ × Deltas ι) × Table κ (Snapshot ι) :=
  diffEach c.keys.entries snapshots

theorem labels_increment (c : EventCounter κ ι) (key key' : κ) (label : ι) :
    (c.increment key label).labels key' =
      if key' = key then (c.labels key).increment label else c.labels key' := by
  unfold labels increment
  by_cases h : key' = key <;> simp [Table.find?_upsert, h]

@[simp] theorem count_empty (key : κ) (label : ι) : (empty : EventCounter κ ι).count key label = 0 :=
  rfl

theorem count_increment (c : EventCounter κ ι) (key key' : κ) (label label' : ι) :
    (c.increment key label).count key' label' =
      c.count key' label' + if key' = key ∧ label' = label then 1 else 0 := by
  unfold count
  rw [labels_increment]
  by_cases h : key' = key
  · subst h; simp [LabelCounter.count_increment]
  · simp [h]

end EventCounter

end LogShipper
