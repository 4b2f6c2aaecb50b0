import LogShipper.Proofs.Observers

/-!
# A look at all keys is a look at each

What a look at a key gives and leaves can be said label by label, for any snapshot, be it ahead of
the counts or about labels that are not counted (`EventCounter.IsLook`).  A snapshot may hold any
number of 64 bits, and one far below zero can lie behind its count by more than 64 bits hold.  Looks
at different keys do not touch each other's snapshots, so that those at all keys may be made in any
order, and a look at all keys at once comes to the same (`EventCounter.diffAll_agrees`).
-/

namespace LogShipper

universe u v

variable {κ : Type u} {ι : Type v} [DecidableEq κ] [DecidableEq ι]

namespace LabelCounter

variable (c : LabelCounter ι) (last : Snapshot ι) (label : ι)

/-- What a look gives for a label. -/
theorem find?_diff : ((c.diff last).1.bind fun deltas => deltas.find? label) =
    (c.growth last).find? label := by
  unfold diff
  dsimp only
  split
  · rename_i hempty
    unfold Table.find?
    rw [List.isEmpty_iff.1 hempty]
    rfl
  · rfl

theorem find?_observe : (c.observe last).find? label =
    ((c.counts.find? label).map fun n : Nat => (n : Int)).or (last.find? label) := by
  unfold observe
  rw [Table.find?_overwrite, Table.find?_mapValues]

end LabelCounter

namespace EventCounter

variable (c : EventCounter κ ι) {keys : List κ}

/-! ## A look at one key -/

/-- The number of events with a key and a label, if the label is counted under the key. -/
def count? (key : κ) (label : ι) : Option Nat :=
  (c.keys.find? key).bind fun labels => labels.counts.find? label

/-- What a look at a key gives and leaves, label by label. -/
structure IsLook (key : κ) (last : Snapshot ι) (look : Option (Deltas ι) × Snapshot ι) : Prop where
  /-- It gives the labels that are counted beyond the snapshot, with the difference, which is that of
  numbers of 64 bits. -/
  given : ∀ label delta, (look.1.bind fun deltas => deltas.find? label) = some delta ↔
    ∃ n : Nat, c.count? key label = some n ∧ 0 < Word.sub n (LabelCounter.seen last label) ∧
      delta = Word.sub n (LabelCounter.seen last label)
  /-- Where the difference fits, the label is given exactly if its count is the greater one. -/
  exact : ∀ label (n : Nat), c.count? key label = some n →
    IsWord (n - LabelCounter.seen last label) →
    (look.1.bind fun deltas => deltas.find? label) =
      if LabelCounter.seen last label < n then some (n - LabelCounter.seen last label) else none
  /-- It gives nothing if there are no such labels. -/
  nothing : look.1 = none ↔
    ∀ label (n : Nat), c.count? key label = some n → Word.sub n (LabelCounter.seen last label) ≤ 0
  /-- It leaves every counted label at its count, and the others as they were. -/
  left : ∀ label, look.2.find? label =
    ((c.count? key label).map fun n : Nat => (n : Int)).or (last.find? label)

theorem isLook_diff (key : κ) (last : Snapshot ι) : c.IsLook key last (c.diff key last) := by
  unfold diff
  cases hkey : c.keys.find? key with
  | none =>
    have hcount (label : ι) : c.count? key label = none := by simp [count?, hkey]
    constructor <;> simp [hcount]
  | some labels =>
    have hcount (label : ι) : c.count? key label = labels.counts.find? label := by
      simp [count?, hkey]
    constructor
    · intro label delta
      dsimp only
      rw [LabelCounter.find?_diff, LabelCounter.find?_growth, hcount, Option.bind_eq_some_iff]
      refine exists_congr fun n => and_congr_right fun _ => ?_
      rw [Option.ite_none_right_eq_some, Option.some.injEq, eq_comm]
    · intro label n hn hfits
      dsimp only
      rw [hcount] at hn
      rw [LabelCounter.find?_diff, LabelCounter.find?_growth, hn, Option.bind_some,
        Word.sub_of_isWord hfits]
      simp only [Int.sub_pos]
    · simp only [hcount]
      exact LabelCounter.diff_eq_none_iff
    · intro label
      rw [hcount]
      exact labels.find?_observe last label

/-- A second look gives nothing. -/
theorem diff_diff_eq_none (key : κ) (last : Snapshot ι) :
    (c.diff key (c.diff key last).2).1 = none := by
  rw [(c.isLook_diff key _).nothing]
  intro label n hcount
  have hseen : LabelCounter.seen (c.diff key last).2 label = n := by
    unfold LabelCounter.seen
    rw [(c.isLook_diff key last).left, hcount]
    rfl
  rw [hseen, Word.sub_of_nonneg (Int.natCast_nonneg n) (Int.natCast_nonneg n)]
  omega

/-! ## Looks at keys, one after the other -/

/-- Looks at some keys, one after the other; a missing snapshot is empty. -/
def lookAtEach : List κ → Table κ (Snapshot ι) → List (κ × Deltas ι) × Table κ (Snapshot ι)
  | [], snapshots => ([], snapshots)
  | key :: keys, snapshots =>
    let look := c.diff key ((snapshots.find? key).getD .empty)
    let others := lookAtEach keys (snapshots.insert key look.2)
    ((look.1.toList.map fun deltas => (key, deltas)) ++ others.1, others.2)

theorem diffEach_eq_lookAtEach {counters : List (κ × LabelCounter ι)}
    (h : ∀ e ∈ counters, c.keys.find? e.1 = some e.2) (snapshots : Table κ (Snapshot ι)) :
    diffEach counters snapshots = c.lookAtEach (counters.map Prod.fst) snapshots := by
  induction counters generalizing snapshots with
  | nil => rfl
  | cons first rest ih =>
    obtain ⟨hfirst, hrest⟩ := List.forall_mem_cons.1 h
    have hlook (last : Snapshot ι) : first.2.diff last = c.diff first.1 last := by
      unfold diff
      rw [hfirst]
    rw [diffEach_cons, List.map_cons, lookAtEach]
    dsimp only
    rw [hlook, ih hrest]

/-- A look at all keys is looks at all keys, in the order in which they arrived. -/
theorem diffAll_eq_lookAtEach (snapshots : Table κ (Snapshot ι)) :
    c.diffAll snapshots = c.lookAtEach c.keys.keys snapshots :=
  c.diffEach_eq_lookAtEach (fun _ he => Table.find?_eq_some_iff.2 he) snapshots

/-- What looks at some keys give, each of them once: what a look at each gives by itself. -/
theorem fst_lookAtEach (h : keys.Nodup) (snapshots : Table κ (Snapshot ι)) :
    (c.lookAtEach keys snapshots).1 = keys.flatMap fun key =>
      (c.diff key ((snapshots.find? key).getD .empty)).1.toList.map fun deltas =>
        (key, deltas) := by
  induction keys generalizing snapshots with
  | nil => rfl
  | cons key keys ih =>
    obtain ⟨hkey, hkeys⟩ := List.nodup_cons.1 h
    rw [lookAtEach, List.flatMap_cons]
    dsimp only
    rw [ih hkeys]
    congr 1
    refine List.flatMap_congr fun k hk => ?_
    rw [Table.find?_insert, if_neg fun heq : k = key => hkey (heq ▸ hk)]

/-- The snapshots that looks at some keys leave, each of them once. -/
theorem find?_lookAtEach (h : keys.Nodup) (snapshots : Table κ (Snapshot ι)) (key : κ) :
    (c.lookAtEach keys snapshots).2.find? key =
      if key ∈ keys then some (c.diff key ((snapshots.find? key).getD .empty)).2
      else snapshots.find? key := by
  induction keys generalizing snapshots with
  | nil => simp [lookAtEach]
  | cons first keys ih =>
    obtain ⟨hfirst, hkeys⟩ := List.nodup_cons.1 h
    rw [lookAtEach]
    dsimp only
    rw [ih hkeys, Table.find?_insert]
    by_cases hkey : key = first
    · subst hkey
      simp [hfirst]
    · simp [hkey]

/-- The order in which the keys are looked at makes no difference. -/
theorem lookAtEach_perm {order : List κ} (horder : order.Perm keys) (h : keys.Nodup)
    (snapshots : Table κ (Snapshot ι)) :
    (c.lookAtEach order snapshots).1.Perm (c.lookAtEach keys snapshots).1 ∧
      ∀ key, (c.lookAtEach order snapshots).2.find? key =
        (c.lookAtEach keys snapshots).2.find? key := by
  have hnodup := horder.nodup_iff.2 h
  refine ⟨?_, fun key => ?_⟩
  · rw [c.fst_lookAtEach hnodup, c.fst_lookAtEach h]
    exact horder.flatMap_right _
  · rw [c.find?_lookAtEach hnodup, c.find?_lookAtEach h]
    simp only [horder.mem_iff]

/-! ## A look at all keys -/

/-- After a look at all keys, a second one gives nothing. -/
theorem diffAll_diffAll_eq_nil (snapshots : Table κ (Snapshot ι)) :
    (c.diffAll (c.diffAll snapshots).2).1 = [] := by
  refine List.eq_nil_iff_forall_not_mem.2 fun entry hentry => ?_
  have hkey : entry.1 ∉ (c.diffAll (c.diffAll snapshots).2).1.map Prod.fst := by
    rw [not_mem_diffAll_iff, snapshot_diffAll]
    exact c.diff_diff_eq_none entry.1 _
  exact hkey (List.mem_map_of_mem hentry)

end EventCounter

end LogShipper
