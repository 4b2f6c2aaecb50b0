import LogShipper.Series
import Mathlib.Algebra.BigOperators.Group.Finset.Piecewise

/-!
# What a look adds up to

`sumAt` adds up what a list of keyed amounts holds for one key.  A look at one key gives, for each
label, what the count has grown by since the observer saw it last (`EventCounter.sumAt_diff`), and
leaves the observer at the present count (`EventCounter.seen_diff`).  A look at all keys says of
each key what a look at it would (`EventCounter.valueIn_diffAll`, `EventCounter.snapshot_diffAll`),
so that the same holds of it (`EventCounter.sumAt_diffAll`, `EventCounter.seen_diffAll`).
-/

namespace LogShipper

universe u v

/-! ## Sums of one key -/

section Sums

variable {α : Type u} [DecidableEq α]

/-- The sum of the amounts of one key. -/
def sumAt (k : α) : List (α × Int) → Int
  | [] => 0
  | e :: amounts => (if e.1 = k then e.2 else 0) + sumAt k amounts

@[simp] theorem sumAt_nil (k : α) : sumAt k [] = 0 := rfl

@[simp] theorem sumAt_cons (k : α) (e : α × Int) (amounts : List (α × Int)) :
    sumAt k (e :: amounts) = (if e.1 = k then e.2 else 0) + sumAt k amounts := rfl

@[simp] theorem sumAt_append (k : α) (xs ys : List (α × Int)) :
    sumAt k (xs ++ ys) = sumAt k xs + sumAt k ys := by
  induction xs with
  | nil => exact (Int.zero_add _).symm
  | cons e xs ih => rw [List.cons_append, sumAt_cons, sumAt_cons, ih, Int.add_assoc]

/-- A key that does not occur has nothing. -/
theorem sumAt_eq_zero {k : α} {amounts : List (α × Int)} (h : k ∉ amounts.map Prod.fst) :
    sumAt k amounts = 0 := by
  induction amounts with
  | nil => rfl
  | cons e amounts ih =>
    rw [List.map_cons, List.mem_cons, not_or] at h
    rw [sumAt_cons, if_neg (Ne.symm h.1), ih h.2]
    rfl

/-- Where each key occurs once, the sum is its value. -/
theorem sumAt_eq_valueIn (k : α) {amounts : List (α × Int)} (h : (amounts.map Prod.fst).Nodup) :
    sumAt k amounts = (Table.valueIn k amounts).getD 0 := by
  induction amounts with
  | nil => rfl
  | cons e amounts ih =>
    rw [List.map_cons, List.nodup_cons] at h
    rw [sumAt_cons]
    by_cases hk : e.1 = k
    · rw [if_pos hk, sumAt_eq_zero (hk ▸ h.1)]
      simp [Table.valueIn, hk]
    · simp [Table.valueIn, hk, ih h.2]

theorem Table.valueIn_eq_none {β : Type v} {k : α} {entries : List (α × β)}
    (h : k ∉ entries.map Prod.fst) : Table.valueIn k entries = none := by
  rw [← Option.not_isSome_iff_eq_none, Table.valueIn_isSome_iff]
  exact h

/-- An entry that may be missing, before others. -/
theorem Table.valueIn_toList_append {β : Type v} (k k' : α) (b : Option β)
    (entries : List (α × β)) :
    Table.valueIn k (b.toList.map (fun b => (k', b)) ++ entries) =
      (if k' = k then b else none).or (Table.valueIn k entries) := by
  cases b with
  | none => simp
  | some b => by_cases hk : k' = k <;> simp [Table.valueIn, hk]

/-- In a table each key occurs once. -/
theorem Table.sumAt_entries (t : Table α Int) (k : α) :
    sumAt k t.entries = (t.find? k).getD 0 :=
  sumAt_eq_valueIn k t.distinct

/-- Amounts of one count at a time. -/
theorem sumAt_ones {β : Type v} (f : β → α) (k : α) (xs : List β) :
    sumAt k (xs.map fun x => (f x, 1)) = xs.countP fun x => f x = k := by
  induction xs with
  | nil => rfl
  | cons x xs ih =>
    rw [List.map_cons, sumAt_cons, ih, List.countP_cons]
    by_cases hx : f x = k
    · simp [hx, Int.add_comm]
    · simp [hx]

omit [DecidableEq α] in
/-- The sum of all amounts. -/
def sumAll : List (α × Int) → Int
  | [] => 0
  | e :: amounts => e.2 + sumAll amounts

omit [DecidableEq α] in
theorem sumAll_ones {β : Type v} (f : β → α) (xs : List β) :
    sumAll (xs.map fun x => (f x, 1)) = xs.length := by
  induction xs with
  | nil => rfl
  | cons x xs ih =>
    rw [List.map_cons, sumAll, ih, List.length_cons]
    omega

/-- All amounts are those of the keys together. -/
theorem sumAll_eq_sum {keys : Finset α} {amounts : List (α × Int)}
    (h : ∀ e ∈ amounts, e.1 ∈ keys) : sumAll amounts = ∑ k ∈ keys, sumAt k amounts := by
  induction amounts with
  | nil => exact Finset.sum_const_zero.symm
  | cons e amounts ih =>
    obtain ⟨hkey, hrest⟩ := List.forall_mem_cons.1 h
    simp only [sumAll, sumAt_cons, Finset.sum_add_distrib, Finset.sum_ite_eq, if_pos hkey,
      ih hrest]

end Sums

variable {κ : Type u} {ι : Type v} [DecidableEq κ] [DecidableEq ι]

/-! ## Sums of one label -/

/-- Amounts of keys and labels, by their labels alone. -/
def byLabel (amounts : List ((κ × ι) × Int)) : List (ι × Int) := amounts.map fun e => (e.1.2, e.2)

/-- The amount of a label is that of all keys together. -/
theorem sumAt_byLabel (label : ι) {keys : Finset κ} {amounts : List ((κ × ι) × Int)}
    (h : ∀ e ∈ amounts, e.1.1 ∈ keys) :
    sumAt label (byLabel amounts) = ∑ key ∈ keys, sumAt (key, label) amounts := by
  induction amounts with
  | nil => exact Finset.sum_const_zero.symm
  | cons e amounts ih =>
    obtain ⟨hkey, hrest⟩ := List.forall_mem_cons.1 h
    have hfirst : (∑ key ∈ keys, if e.1 = (key, label) then e.2 else 0) =
        if e.1.2 = label then e.2 else 0 := by
      by_cases hlabel : e.1.2 = label
      · simp [Prod.ext_iff, hlabel, hkey]
      · simp [Prod.ext_iff, hlabel]
    simp only [sumAt_cons, Finset.sum_add_distrib, hfirst, ← ih hrest]
    rfl

/-- Sums are the same in 64 bits if their terms are. -/
theorem Word.wrap_sum_congr {keys : Finset κ} {f g : κ → Int}
    (h : ∀ key ∈ keys, wrap (f key) = wrap (g key)) :
    wrap (∑ key ∈ keys, f key) = wrap (∑ key ∈ keys, g key) := by
  induction keys using Finset.induction_on with
  | empty => rfl
  | insert key keys hkey ih =>
    obtain ⟨hfirst, hrest⟩ := Finset.forall_mem_insert _ _ _ |>.1 h
    rw [Finset.sum_insert hkey, Finset.sum_insert hkey, ← wrap_wrap_add, ← wrap_add_wrap, hfirst,
      ih hrest, wrap_add_wrap, wrap_wrap_add]

/-- The amount of a label is the same in 64 bits if those of all keys are. -/
theorem wrap_sumAt_byLabel_congr (label : ι) {xs ys : List ((κ × ι) × Int)}
    (h : ∀ key, Word.wrap (sumAt (key, label) xs) = Word.wrap (sumAt (key, label) ys)) :
    Word.wrap (sumAt label (byLabel xs)) = Word.wrap (sumAt label (byLabel ys)) := by
  let keys := ((xs ++ ys).map fun e => e.1.1).toFinset
  have hkeys : ∀ e ∈ xs ++ ys, e.1.1 ∈ keys := fun e he =>
    List.mem_toFinset.2 (List.mem_map_of_mem he)
  obtain ⟨hxs, hys⟩ := List.forall_mem_append.1 hkeys
  rw [sumAt_byLabel label hxs, sumAt_byLabel label hys]
  exact Word.wrap_sum_congr fun key _ => h key

/-! ## A look at the labels of one key -/

namespace LabelCounter

/-- What an observer saw last of a label. -/
def seen (last : Snapshot ι) (label : ι) : Int := (last.find? label).getD 0

theorem find?_growth (c : LabelCounter ι) (last : Snapshot ι) (label : ι) :
    (c.growth last).find? label = (c.counts.find? label).bind fun n =>
      if 0 < Word.sub n (seen last label) then some (Word.sub n (seen last label)) else none :=
  Table.find?_filterMapValues c.counts _ label

/-- A label has grown by what is counted beyond the count seen last. -/
theorem sumAt_growth (c : LabelCounter ι) {last : Snapshot ι} {label : ι}
    (hnonneg : 0 ≤ seen last label) (hle : seen last label ≤ c.count label) :
    sumAt label (c.growth last).entries = c.count label - seen last label := by
  rw [Table.sumAt_entries, find?_growth]
  unfold count at hle ⊢
  cases hcount : c.counts.find? label with
  | none =>
    rw [hcount] at hle
    simp only [Option.getD_none, Option.bind_none] at hle ⊢
    omega
  | some n =>
    rw [hcount] at hle
    simp only [Option.getD_some, Option.bind_some] at hle ⊢
    rw [Word.sub_of_nonneg (Int.natCast_nonneg n) hnonneg]
    split
    · rfl
    · rw [Option.getD_none]
      omega

/-- A look that finds no growth gives nothing. -/
theorem sumAt_diff (c : LabelCounter ι) (last : Snapshot ι) (label : ι) :
    ((c.diff last).1.map fun deltas => sumAt label deltas.entries).getD 0 =
      sumAt label (c.growth last).entries := by
  unfold diff
  dsimp only
  split
  · rename_i hempty
    rw [List.isEmpty_iff.1 hempty]
    rfl
  · rfl

/-- After a look the observer has seen the present count. -/
theorem seen_observe (c : LabelCounter ι) {last : Snapshot ι} {label : ι}
    (hnonneg : 0 ≤ seen last label) (hle : seen last label ≤ c.count label) :
    seen (c.observe last) label = c.count label := by
  unfold seen observe
  rw [Table.find?_overwrite, Table.find?_mapValues]
  unfold count at hle ⊢
  cases hcount : c.counts.find? label with
  | none =>
    rw [hcount] at hle
    simp only [Option.map_none, Option.none_or, Option.getD_none] at hle ⊢
    show seen last label = _
    omega
  | some n => simp

end LabelCounter

/-! ## A look at all keys -/

namespace EventCounter

/-- What an observer saw last of a key and a label. -/
def seen (snapshots : Table κ (Snapshot ι)) (key : κ) (label : ι) : Int :=
  LabelCounter.seen ((snapshots.find? key).getD .empty) label

/-- The deltas of one key among those of all. -/
theorem sumAt_flatten_cons (key : κ) (label : ι) (entry : κ × Deltas ι)
    (changed : List (κ × Deltas ι)) :
    sumAt (key, label) (Series.flatten (entry :: changed)) =
      (if entry.1 = key then sumAt label entry.2.entries else 0) +
        sumAt (key, label) (Series.flatten changed) := by
  unfold Series.flatten
  rw [List.flatMap_cons, sumAt_append]
  congr 1
  induction entry.2.entries with
  | nil => simp
  | cons e es ih =>
    rw [List.map_cons, sumAt_cons, ih]
    by_cases hkey : entry.1 = key <;> simp [hkey]

omit [DecidableEq κ] [DecidableEq ι] in
/-- Where each key occurs once, so does each key with a label. -/
theorem nodup_flatten {changed : List (κ × Deltas ι)} (h : (changed.map Prod.fst).Nodup) :
    ((Series.flatten changed).map Prod.fst).Nodup := by
  have hflat : (Series.flatten changed).map Prod.fst =
      changed.flatMap fun entry => (entry.2.entries.map Prod.fst).map (Prod.mk entry.1) := by
    simp [Series.flatten, List.map_flatMap, Function.comp_def]
  rw [hflat, List.nodup_flatMap]
  constructor
  · intro entry _
    exact entry.2.distinct.map (Prod.mk_right_injective entry.1)
  · refine (List.pairwise_map.1 h).imp fun hne => ?_
    intro k hk hk'
    obtain ⟨_, -, rfl⟩ := List.mem_map.1 hk
    obtain ⟨_, -, heq⟩ := List.mem_map.1 hk'
    exact hne (Prod.mk.inj heq).1.symm

/-- The deltas of one key, where each key occurs once. -/
theorem sumAt_flatten (key : κ) (label : ι) {changed : List (κ × Deltas ι)}
    (hdistinct : (changed.map Prod.fst).Nodup) :
    sumAt (key, label) (Series.flatten changed) =
      ((Table.valueIn key changed).map fun deltas => sumAt label deltas.entries).getD 0 := by
  induction changed with
  | nil => rfl
  | cons entry changed ih =>
    rw [List.map_cons, List.nodup_cons] at hdistinct
    rw [sumAt_flatten_cons, ih hdistinct.2]
    by_cases hkey : entry.1 = key
    · subst hkey
      rw [Table.valueIn_eq_none hdistinct.1]
      simp [Table.valueIn]
    · simp [Table.valueIn, hkey]

/-- A look at one more key comes before the others, if there is growth. -/
theorem diffEach_cons (first : κ × LabelCounter ι) (rest : List (κ × LabelCounter ι))
    (snapshots : Table κ (Snapshot ι)) :
    diffEach (first :: rest) snapshots =
      let look := first.2.diff ((snapshots.find? first.1).getD .empty)
      let others := diffEach rest (snapshots.insert first.1 look.2)
      ((look.1.toList.map fun deltas => (first.1, deltas)) ++ others.1, others.2) := by
  obtain ⟨key, labels⟩ := first
  rw [diffEach]
  dsimp only
  split
  · rename_i hnone
    rw [hnone]
    rfl
  · rename_i deltas hsome
    rw [hsome]
    rfl

theorem map_fst_diffEach_sublist (counters : List (κ × LabelCounter ι))
    (snapshots : Table κ (Snapshot ι)) :
    ((diffEach counters snapshots).1.map Prod.fst).Sublist (counters.map Prod.fst) := by
  induction counters generalizing snapshots with
  | nil => exact .slnil
  | cons first rest ih =>
    rw [diffEach_cons]
    dsimp only
    cases (first.2.diff ((snapshots.find? first.1).getD .empty)).1 with
    | none => exact (ih _).cons _
    | some deltas => exact (ih _).cons_cons _

/-- What a look at some keys, each of them once, says of one of them. -/
theorem valueIn_diffEach (key : κ) {counters : List (κ × LabelCounter ι)}
    (hdistinct : (counters.map Prod.fst).Nodup) (snapshots : Table κ (Snapshot ι)) :
    Table.valueIn key (diffEach counters snapshots).1 =
      (Table.valueIn key counters).bind fun c =>
        (c.diff ((snapshots.find? key).getD .empty)).1 := by
  induction counters generalizing snapshots with
  | nil => rfl
  | cons first rest ih =>
    rw [List.map_cons, List.nodup_cons] at hdistinct
    rw [diffEach_cons]
    dsimp only
    rw [Table.valueIn_toList_append, ih hdistinct.2, Table.find?_insert]
    by_cases hkey : first.1 = key
    · subst hkey
      rw [Table.valueIn_eq_none hdistinct.1]
      simp [Table.valueIn]
    · rw [if_neg (Ne.symm hkey)]
      simp [Table.valueIn, hkey]

/-- The snapshot of a key after looking at some keys, each of them once. -/
theorem find?_diffEach (key : κ) {counters : List (κ × LabelCounter ι)}
    (hdistinct : (counters.map Prod.fst).Nodup) (snapshots : Table κ (Snapshot ι)) :
    (diffEach counters snapshots).2.find? key =
      ((Table.valueIn key counters).map fun c =>
        (c.diff ((snapshots.find? key).getD .empty)).2).or (snapshots.find? key) := by
  induction counters generalizing snapshots with
  | nil => rfl
  | cons first rest ih =>
    rw [List.map_cons, List.nodup_cons] at hdistinct
    rw [diffEach_cons]
    dsimp only
    rw [ih hdistinct.2, Table.find?_insert]
    by_cases hkey : first.1 = key
    · subst hkey
      rw [Table.valueIn_eq_none hdistinct.1]
      simp [Table.valueIn]
    · rw [if_neg (Ne.symm hkey)]
      simp [Table.valueIn, hkey]

variable (c : EventCounter κ ι) (snapshots : Table κ (Snapshot ι)) (key : κ)

/-! A look at all keys says of each key what a look at it would, and leaves the same snapshot. -/

theorem nodup_diffAll : ((c.diffAll snapshots).1.map Prod.fst).Nodup :=
  c.keys.distinct.sublist (map_fst_diffEach_sublist c.keys.entries snapshots)

theorem valueIn_diffAll :
    Table.valueIn key (c.diffAll snapshots).1 =
      (c.diff key ((snapshots.find? key).getD .empty)).1 := by
  unfold diffAll diff Table.find?
  rw [valueIn_diffEach key c.keys.distinct]
  cases Table.valueIn key c.keys.entries <;> rfl

theorem snapshot_diffAll :
    ((c.diffAll snapshots).2.find? key).getD .empty =
      (c.diff key ((snapshots.find? key).getD .empty)).2 := by
  unfold diffAll diff
  rw [find?_diffEach key c.keys.distinct]
  unfold Table.find?
  cases Table.valueIn key c.keys.entries <;> rfl

variable {snapshots key} {last : Snapshot ι} {label : ι}

/-- A look at a key gives what was counted beyond the counts seen last. -/
theorem sumAt_diff (hnonneg : 0 ≤ LabelCounter.seen last label)
    (hle : LabelCounter.seen last label ≤ c.count key label) :
    ((c.diff key last).1.map fun deltas => sumAt label deltas.entries).getD 0 =
      c.count key label - LabelCounter.seen last label := by
  unfold diff
  unfold count labels at hle ⊢
  cases hfind : c.keys.find? key with
  | none =>
    rw [hfind] at hle
    simp only [Option.getD_none, LabelCounter.count_empty, Option.map_none] at hle ⊢
    omega
  | some labels =>
    rw [hfind] at hle
    rw [Option.getD_some, ← labels.sumAt_growth hnonneg hle]
    exact labels.sumAt_diff last label

/-- After a look at a key its present counts are the ones seen last. -/
theorem seen_diff (hnonneg : 0 ≤ LabelCounter.seen last label)
    (hle : LabelCounter.seen last label ≤ c.count key label) :
    LabelCounter.seen (c.diff key last).2 label = c.count key label := by
  unfold diff
  unfold count labels at hle ⊢
  cases hfind : c.keys.find? key with
  | none =>
    rw [hfind] at hle
    simp only [Option.getD_none, LabelCounter.count_empty] at hle ⊢
    omega
  | some labels =>
    rw [hfind] at hle
    exact labels.seen_observe hnonneg hle

/-- A look at all keys gives what was counted beyond the counts seen last. -/
theorem sumAt_diffAll (hnonneg : 0 ≤ seen snapshots key label)
    (hle : seen snapshots key label ≤ c.count key label) :
    sumAt (key, label) (Series.flatten (c.diffAll snapshots).1) =
      c.count key label - seen snapshots key label := by
  rw [sumAt_flatten key label (c.nodup_diffAll snapshots), valueIn_diffAll]
  exact c.sumAt_diff hnonneg hle

/-- After a look at all keys the present counts are the ones seen last. -/
theorem seen_diffAll (hnonneg : 0 ≤ seen snapshots key label)
    (hle : seen snapshots key label ≤ c.count key label) :
    seen (c.diffAll snapshots).2 key label = c.count key label := by
  unfold seen
  rw [snapshot_diffAll]
  exact c.seen_diff hnonneg hle

end EventCounter

end LogShipper
