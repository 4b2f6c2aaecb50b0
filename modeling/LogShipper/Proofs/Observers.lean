import LogShipper.Proofs.Growth
import Mathlib.Data.List.DropRight

/-!
# Observers of one counter

Several observers look at one counter, each with snapshots of its own, at one key or at all keys and
in any order among the events that are counted.  `WatchedCounter` is the counter with what every
observer keeps and was answered.

A look at a key comes to the same for the key whether it is a look at this key alone or at all keys
(`WatchedCounter.snapshot_after`, `WatchedCounter.sumAt_reported_after`).  So what an observer was
told of a key and a label is what it saw last, and what it saw last falls short of the present count
by the events since its last look (`WatchedCounter.Accounts`); looks of others are nothing to it
(`WatchedCounter.SameFor`).
-/

namespace LogShipper

universe u v w

/-! ## Uses of a counter -/

/-- What is done with a counter that observers look at. -/
inductive CounterUse (ω : Type w) (κ : Type u) (ι : Type v) where
  /-- An event is counted. -/
  | increment (key : κ) (label : ι)
  /-- An observer looks at one key. -/
  | look (observer : ω) (key : κ)
  /-- An observer looks at all keys. -/
  | lookAll (observer : ω)

variable {ω : Type w} {κ : Type u} {ι : Type v} [DecidableEq ω] [DecidableEq κ] [DecidableEq ι]

namespace CounterUse

/-- The event that is counted. -/
def event? : CounterUse ω κ ι → Option (κ × ι)
  | .increment key label => some (key, label)
  | .look .. | .lookAll _ => none

/-- Whether an observer looks at a key, perhaps among others. -/
def looksAt (observer : ω) (key : κ) : CounterUse ω κ ι → Bool
  | .increment .. => false
  | .look o k => o = observer ∧ k = key
  | .lookAll o => o = observer

/-- Whether an observer has anything to do with a use: an event is counted, or it looks itself. -/
def concerns (observer : ω) : CounterUse ω κ ι → Bool
  | .increment .. => true
  | .look o _ | .lookAll o => o = observer

/-- The number of events of a key and a label that are counted. -/
def counted (key : κ) (label : ι) (uses : List (CounterUse ω κ ι)) : Nat :=
  (uses.filterMap event?).count (key, label)

/-- The uses since the last look of an observer at a key. -/
def sinceLook (observer : ω) (key : κ) (uses : List (CounterUse ω κ ι)) :
    List (CounterUse ω κ ι) :=
  uses.rtakeWhile fun use => !use.looksAt observer key

variable {observer : ω} {key : κ} {label : ι} (uses : List (CounterUse ω κ ι))
  (use : CounterUse ω κ ι)

omit [DecidableEq ω] in
theorem counted_concat : counted key label (uses ++ [use]) =
    counted key label uses + if use.event? = some (key, label) then 1 else 0 := by
  unfold counted
  rw [List.filterMap_append, List.count_append]
  cases huse : use.event? with
  | none => simp [huse]
  | some e => by_cases he : e = (key, label) <;> simp [huse, he]

theorem counted_sinceLook_le :
    counted key label (sinceLook observer key uses) ≤ counted key label uses :=
  ((List.rtakeWhile_suffix _ _).sublist.filterMap event?).count_le _

omit [DecidableEq ι] in
/-- A look counts nothing. -/
theorem event?_of_looksAt (h : use.looksAt observer key = true) : use.event? = none := by
  cases use with
  | increment key label => cases h
  | look o k => rfl
  | lookAll o => rfl

end CounterUse

/-! ## One look -/

namespace LabelCounter

variable {c : LabelCounter ι} {last : Snapshot ι}

theorem eq_growth_of_diff {deltas : Deltas ι} (h : (c.diff last).1 = some deltas) :
    deltas = c.growth last := by
  unfold diff at h
  dsimp only at h
  split at h
  · cases h
  · exact (Option.some.inj h).symm

theorem find?_growth_eq_none_iff {label : ι} : (c.growth last).find? label = none ↔
    ∀ n, c.counts.find? label = some n → Word.sub n (seen last label) ≤ 0 := by
  rw [find?_growth, Option.bind_eq_none_iff]
  refine forall₂_congr fun n _ => ?_
  simp

theorem pos_of_mem_growth {e : ι × Int} (he : e ∈ (c.growth last).entries) : 0 < e.2 := by
  have hfind : (c.growth last).find? e.1 = some e.2 := Table.find?_eq_some_iff.2 he
  rw [find?_growth, Option.bind_eq_some_iff] at hfind
  obtain ⟨n, -, hdelta⟩ := hfind
  split at hdelta
  · rename_i hpos
    exact hpos.trans_eq (Option.some.inj hdelta)
  · cases hdelta

/-- A look gives nothing exactly when no label is counted beyond what was seen last. -/
theorem diff_eq_none_iff : (c.diff last).1 = none ↔
    ∀ label n, c.counts.find? label = some n → Word.sub n (seen last label) ≤ 0 := by
  have hempty : (c.diff last).1 = none ↔ (c.growth last).entries = [] := by
    unfold diff
    dsimp only
    split
    · rename_i h
      exact iff_of_true rfl (List.isEmpty_iff.1 h)
    · rename_i h
      exact iff_of_false nofun fun hnil => h (List.isEmpty_iff.2 hnil)
  rw [hempty]
  constructor
  · intro hnil label
    rw [← find?_growth_eq_none_iff]
    unfold Table.find?
    rw [hnil]
    rfl
  · intro hle
    apply List.eq_nil_iff_forall_not_mem.2
    rintro ⟨label, delta⟩ hmem
    have hnone := find?_growth_eq_none_iff.2 (hle label)
    rw [Table.find?_eq_some_iff.2 hmem] at hnone
    cases hnone

end LabelCounter

namespace EventCounter

variable {c : EventCounter κ ι} {key : κ} {last : Snapshot ι}

theorem pos_of_diff {deltas : Deltas ι} (h : (c.diff key last).1 = some deltas) {e : ι × Int}
    (he : e ∈ deltas.entries) : 0 < e.2 := by
  unfold diff at h
  split at h
  · cases h
  · rw [LabelCounter.eq_growth_of_diff h] at he
    exact LabelCounter.pos_of_mem_growth he

/-- A look at a key gives nothing exactly when all its labels stand where they were seen. -/
theorem diff_eq_none_iff (hnonneg : ∀ label, 0 ≤ LabelCounter.seen last label) :
    (c.diff key last).1 = none ↔
      ∀ label, (c.count key label : Int) ≤ LabelCounter.seen last label := by
  unfold diff count labels
  cases c.keys.find? key with
  | none => exact iff_of_true rfl fun label => hnonneg label
  | some labels =>
    refine LabelCounter.diff_eq_none_iff.trans (forall_congr' fun label => ?_)
    rw [Option.getD_some]
    unfold LabelCounter.count
    cases labels.counts.find? label with
    | none => exact iff_of_true nofun (hnonneg label)
    | some n =>
      have hsub := Word.sub_of_nonneg (Int.natCast_nonneg n) (hnonneg label)
      simp only [Option.some.injEq, forall_eq', Option.getD_some, hsub]
      omega

/-- A look at all keys leaves a key out exactly when a look at the key would give nothing. -/
theorem not_mem_diffAll_iff {snapshots : Table κ (Snapshot ι)} :
    key ∉ (c.diffAll snapshots).1.map Prod.fst ↔
      (c.diff key ((snapshots.find? key).getD .empty)).1 = none := by
  rw [← valueIn_diffAll, ← Table.valueIn_isSome_iff, Option.not_isSome_iff_eq_none]

theorem diff_of_mem_diffAll {snapshots : Table κ (Snapshot ι)} {entry : κ × Deltas ι}
    (h : entry ∈ (c.diffAll snapshots).1) :
    (c.diff entry.1 ((snapshots.find? entry.1).getD .empty)).1 = some entry.2 := by
  rw [← valueIn_diffAll, Table.valueIn_eq_some_iff (c.nodup_diffAll snapshots)]
  exact h

end EventCounter

/-! ## A counter with its observers -/

/-- A counter with what its observers keep and were answered. -/
structure WatchedCounter (ω : Type w) (κ : Type u) (ι : Type v) where
  counter : EventCounter κ ι
  /-- The snapshots that each observer keeps. -/
  snapshots : ω → Table κ (Snapshot ι)
  /-- The answers that each observer was given, the latest one last. -/
  answers : ω → List (List (κ × Deltas ι))

namespace WatchedCounter

/-- A counter that has seen no event, with observers that have seen nothing. -/
def new : WatchedCounter ω κ ι := ⟨.empty, fun _ => .empty, fun _ => []⟩

/-- What an observer keeps of a key. -/
def snapshot (w : WatchedCounter ω κ ι) (observer : ω) (key : κ) : Snapshot ι :=
  ((w.snapshots observer).find? key).getD .empty

/-- All deltas that an observer was given. -/
def reported (w : WatchedCounter ω κ ι) (observer : ω) : List ((κ × ι) × Int) :=
  Series.flatten (w.answers observer).flatten

/-- An observer is given an answer and keeps new snapshots. -/
def answer (w : WatchedCounter ω κ ι) (observer : ω)
    (look : List (κ × Deltas ι) × Table κ (Snapshot ι)) : WatchedCounter ω κ ι :=
  { w with
    snapshots := Function.update w.snapshots observer look.2
    answers := Function.update w.answers observer (w.answers observer ++ [look.1]) }

/-- A look of an observer at one key, which answers with the key if any of its labels grew. -/
def lookAt (w : WatchedCounter ω κ ι) (observer : ω) (key : κ) :
    List (κ × Deltas ι) × Table κ (Snapshot ι) :=
  let look := w.counter.diff key (w.snapshot observer key)
  (look.1.toList.map fun deltas => (key, deltas), (w.snapshots observer).insert key look.2)

/-- The counter after a use. -/
def after (w : WatchedCounter ω κ ι) : CounterUse ω κ ι → WatchedCounter ω κ ι
  | .increment key label => { w with counter := w.counter.increment key label }
  | .look observer key => w.answer observer (w.lookAt observer key)
  | .lookAll observer => w.answer observer (w.counter.diffAll (w.snapshots observer))

/-- The counter after some uses from the start. -/
def afterAll (uses : List (CounterUse ω κ ι)) : WatchedCounter ω κ ι := uses.foldl after new

theorem afterAll_concat (uses : List (CounterUse ω κ ι)) (use : CounterUse ω κ ι) :
    afterAll (uses ++ [use]) = (afterAll uses).after use := List.foldl_append

variable (w : WatchedCounter ω κ ι) {observer o : ω} {key : κ} {label : ι}
  {look : List (κ × Deltas ι) × Table κ (Snapshot ι)}

omit [DecidableEq ι] in
theorem snapshot_answer_self : (w.answer observer look).snapshot observer key =
    (look.2.find? key).getD .empty := by
  simp [answer, snapshot]

omit [DecidableEq ι] in
theorem snapshot_answer_of_ne (h : o ≠ observer) :
    (w.answer o look).snapshot observer key = w.snapshot observer key := by
  simp [answer, snapshot, Ne.symm h]

omit [DecidableEq κ] [DecidableEq ι] in
theorem reported_answer_self : (w.answer observer look).reported observer =
    w.reported observer ++ Series.flatten look.1 := by
  simp [answer, reported, Series.flatten]

omit [DecidableEq κ] [DecidableEq ι] in
theorem reported_answer_of_ne (h : o ≠ observer) :
    (w.answer o look).reported observer = w.reported observer := by
  simp [answer, reported, Ne.symm h]

/-! ### What one use does -/

theorem count_after (use : CounterUse ω κ ι) : (w.after use).counter.count key label =
    w.counter.count key label + if use.event? = some (key, label) then 1 else 0 := by
  cases use with
  | increment k l =>
    refine (EventCounter.count_increment w.counter k key l label).trans ?_
    simp [CounterUse.event?, eq_comm]
  | look o k => rfl
  | lookAll o => rfl

/-- A look at a key leaves the snapshot of a look at this key alone; all else leaves it as it is. -/
theorem snapshot_after (use : CounterUse ω κ ι) : (w.after use).snapshot observer key =
    if use.looksAt observer key then (w.counter.diff key (w.snapshot observer key)).2
    else w.snapshot observer key := by
  cases use with
  | increment k l => rfl
  | look o k =>
    unfold after CounterUse.looksAt
    by_cases ho : o = observer
    · subst ho
      rw [snapshot_answer_self]
      unfold lookAt
      rw [Table.find?_insert]
      by_cases hk : k = key
      · subst hk
        simp
      · simp [hk, Ne.symm hk, snapshot]
    · simp [snapshot_answer_of_ne, ho]
  | lookAll o =>
    unfold after CounterUse.looksAt
    by_cases ho : o = observer
    · subst ho
      rw [snapshot_answer_self, EventCounter.snapshot_diffAll]
      simp [snapshot]
    · simp [snapshot_answer_of_ne, ho]

/-- What a look adds to what an observer was told of a key. -/
theorem sumAt_reported_after (use : CounterUse ω κ ι) :
    sumAt (key, label) ((w.after use).reported observer) =
      sumAt (key, label) (w.reported observer) +
        if use.looksAt observer key then
          ((w.counter.diff key (w.snapshot observer key)).1.map fun deltas =>
            sumAt label deltas.entries).getD 0
        else 0 := by
  cases use with
  | increment k l => exact (Int.add_zero _).symm
  | look o k =>
    unfold after CounterUse.looksAt
    by_cases ho : o = observer
    · subst ho
      rw [reported_answer_self, sumAt_append]
      unfold lookAt
      dsimp only
      by_cases hk : k = key
      · subst hk
        cases (w.counter.diff k (w.snapshot o k)).1 with
        | none => simp [Series.flatten]
        | some deltas => simp [EventCounter.sumAt_flatten, Table.valueIn]
      · cases (w.counter.diff k (w.snapshot o k)).1 with
        | none => simp [Series.flatten, hk]
        | some deltas => simp [EventCounter.sumAt_flatten, Table.valueIn, hk]
    · simp [reported_answer_of_ne, ho]
  | lookAll o =>
    unfold after CounterUse.looksAt
    by_cases ho : o = observer
    · subst ho
      rw [reported_answer_self, sumAt_append,
        EventCounter.sumAt_flatten key label (w.counter.nodup_diffAll _),
        EventCounter.valueIn_diffAll]
      simp [snapshot]
    · simp [reported_answer_of_ne, ho]

/-- An answer of positive growth adds positive deltas. -/
theorem pos_of_mem_reported_answer (h : ∀ e ∈ w.reported observer, 0 < e.2)
    (hlook : ∀ entry ∈ look.1, ∃ last, (w.counter.diff entry.1 last).1 = some entry.2) :
    ∀ e ∈ (w.answer o look).reported observer, 0 < e.2 := by
  by_cases ho : o = observer
  · subst ho
    rw [reported_answer_self]
    refine List.forall_mem_append.2 ⟨h, ?_⟩
    rintro e he
    obtain ⟨entry, hentry, he⟩ := List.mem_flatMap.1 he
    obtain ⟨d, hd, rfl⟩ := List.mem_map.1 he
    obtain ⟨last, hlast⟩ := hlook entry hentry
    exact EventCounter.pos_of_diff hlast hd
  · rw [reported_answer_of_ne w ho]
    exact h

theorem pos_of_mem_reported_after (h : ∀ e ∈ w.reported observer, 0 < e.2)
    (use : CounterUse ω κ ι) : ∀ e ∈ (w.after use).reported observer, 0 < e.2 := by
  cases use with
  | increment k l => exact h
  | look o k =>
    refine w.pos_of_mem_reported_answer h ?_
    rintro entry hentry
    obtain ⟨deltas, hdeltas, rfl⟩ := List.mem_map.1 hentry
    exact ⟨_, Option.mem_toList.1 hdeltas⟩
  | lookAll o =>
    refine w.pos_of_mem_reported_answer h ?_
    rintro entry hentry
    exact ⟨_, EventCounter.diff_of_mem_diffAll hentry⟩

/-! ### What is told, seen and counted -/

open CounterUse

/-- What an observer was told of a key and a label is what it saw last, and that falls short of the
count by the events since its last look at the key. -/
structure Accounts (uses : List (CounterUse ω κ ι)) (w : WatchedCounter ω κ ι) (observer : ω)
    (key : κ) (label : ι) : Prop where
  count_eq : w.counter.count key label = counted key label uses
  seen_add : LabelCounter.seen (w.snapshot observer key) label +
    counted key label (sinceLook observer key uses) = counted key label uses
  told_eq : sumAt (key, label) (w.reported observer) =
    LabelCounter.seen (w.snapshot observer key) label

theorem accounts_new : Accounts [] (new : WatchedCounter ω κ ι) observer key label :=
  ⟨rfl, rfl, rfl⟩

namespace Accounts

variable {w} {uses : List (CounterUse ω κ ι)} (h : Accounts uses w observer key label)

include h

theorem seen_nonneg : 0 ≤ LabelCounter.seen (w.snapshot observer key) label := by
  have hle : counted key label (sinceLook observer key uses) ≤ counted key label uses :=
    counted_sinceLook_le uses
  have hadd := h.seen_add
  omega

theorem seen_le :
    LabelCounter.seen (w.snapshot observer key) label ≤ w.counter.count key label := by
  have hadd := h.seen_add
  rw [h.count_eq]
  omega

theorem after (use : CounterUse ω κ ι) :
    Accounts (uses ++ [use]) (w.after use) observer key label := by
  have hcount : (w.after use).counter.count key label = counted key label (uses ++ [use]) := by
    rw [count_after, counted_concat, h.count_eq]
  have hsince := List.rtakeWhile_concat (fun use => !use.looksAt observer key) uses use
  cases hlooks : use.looksAt observer key with
  | true =>
    rw [hlooks] at hsince
    have hseen : LabelCounter.seen ((w.after use).snapshot observer key) label =
        w.counter.count key label := by
      rw [snapshot_after, hlooks]
      exact w.counter.seen_diff h.seen_nonneg h.seen_le
    refine ⟨hcount, ?_, ?_⟩
    · unfold sinceLook
      rw [hsince, hseen, counted_concat, event?_of_looksAt use hlooks, h.count_eq]
      rfl
    · rw [sumAt_reported_after, hlooks, hseen, h.told_eq, if_pos rfl,
        w.counter.sumAt_diff h.seen_nonneg h.seen_le]
      omega
  | false =>
    rw [hlooks] at hsince
    have hsnapshot : (w.after use).snapshot observer key = w.snapshot observer key := by
      rw [snapshot_after, hlooks]
      rfl
    refine ⟨hcount, ?_, ?_⟩
    · have hadd := h.seen_add
      have hsuffix : sinceLook observer key (uses ++ [use]) =
          sinceLook observer key uses ++ [use] := hsince
      rw [hsuffix, hsnapshot, counted_concat, counted_concat]
      push_cast
      omega
    · rw [sumAt_reported_after, hlooks, hsnapshot, h.told_eq]
      exact Int.add_zero _

end Accounts

theorem accounts_afterAll (uses : List (CounterUse ω κ ι)) :
    Accounts uses (afterAll uses) observer key label := by
  induction uses using List.reverseRecOn with
  | nil => exact accounts_new
  | append_singleton uses use ih =>
    rw [afterAll_concat]
    exact ih.after use

theorem pos_of_mem_reported_afterAll (uses : List (CounterUse ω κ ι)) :
    ∀ e ∈ (afterAll uses).reported observer, 0 < e.2 := by
  induction uses using List.reverseRecOn with
  | nil => exact List.forall_mem_nil _
  | append_singleton uses use ih =>
    rw [afterAll_concat]
    exact (afterAll uses).pos_of_mem_reported_after ih use

/-- A look at a key gives nothing exactly when no event of the key came since the last look. -/
theorem diff_afterAll_eq_none_iff (uses : List (CounterUse ω κ ι)) (observer : ω) (key : κ) :
    ((afterAll uses).counter.diff key ((afterAll uses).snapshot observer key)).1 = none ↔
      ∀ label, counted key label (sinceLook observer key uses) = 0 := by
  have haccounts (label : ι) : Accounts uses (afterAll uses) observer key label :=
    accounts_afterAll uses
  rw [EventCounter.diff_eq_none_iff fun label => (haccounts label).seen_nonneg]
  refine forall_congr' fun label => ?_
  have hcount := (haccounts label).count_eq
  have hadd := (haccounts label).seen_add
  rw [hcount]
  omega

/-! ### Looks of others -/

/-- Two counters that are the same to an observer. -/
structure SameFor (observer : ω) (w w' : WatchedCounter ω κ ι) : Prop where
  counter : w.counter = w'.counter
  snapshots : w.snapshots observer = w'.snapshots observer
  answers : w.answers observer = w'.answers observer

namespace SameFor

variable {w w' : WatchedCounter ω κ ι} (h : SameFor observer w w')

include h

/-- A use that concerns the observer changes both in the same way. -/
theorem after {use : CounterUse ω κ ι} (huse : use.concerns observer = true) :
    SameFor observer (w.after use) (w'.after use) := by
  have hanswer {look look' : List (κ × Deltas ι) × Table κ (Snapshot ι)} (hlook : look = look') :
      SameFor observer (w.answer observer look) (w'.answer observer look') := by
    subst hlook
    refine ⟨h.counter, ?_, ?_⟩
    · simp [answer]
    · simp [answer, h.answers]
  cases use with
  | increment k l => exact ⟨congrArg (·.increment k l) h.counter, h.snapshots, h.answers⟩
  | look o k =>
    obtain rfl := of_decide_eq_true huse
    refine hanswer ?_
    unfold lookAt snapshot
    rw [h.counter, h.snapshots]
  | lookAll o =>
    obtain rfl := of_decide_eq_true huse
    refine hanswer ?_
    rw [h.counter, h.snapshots]

/-- A look of another one changes nothing that the observer could tell. -/
theorem after_left {use : CounterUse ω κ ι} (huse : use.concerns observer = false) :
    SameFor observer (w.after use) w' := by
  have hanswer {o : ω} (ho : o ≠ observer) (look : List (κ × Deltas ι) × Table κ (Snapshot ι)) :
      SameFor observer (w.answer o look) w' := by
    refine ⟨h.counter, ?_, ?_⟩
    · simp [answer, Ne.symm ho, h.snapshots]
    · simp [answer, Ne.symm ho, h.answers]
  cases use with
  | increment k l => cases huse
  | look o k => exact hanswer (of_decide_eq_false huse) _
  | lookAll o => exact hanswer (of_decide_eq_false huse) _

end SameFor

/-- An observer cannot tell whether others have looked. -/
theorem sameFor_filter (observer : ω) (uses : List (CounterUse ω κ ι)) :
    SameFor observer (afterAll uses) (afterAll (uses.filter (concerns observer))) := by
  induction uses using List.reverseRecOn with
  | nil => exact ⟨rfl, rfl, rfl⟩
  | append_singleton uses use ih =>
    rw [afterAll_concat, List.filter_append]
    cases huse : use.concerns observer with
    | true =>
      rw [List.filter_cons_of_pos huse, List.filter_nil, afterAll_concat]
      exact ih.after huse
    | false =>
      rw [List.filter_cons_of_neg (by simp [huse]), List.filter_nil, List.append_nil]
      exact ih.after_left huse

/-! ## Growth is told once to every observer -/

/-- **Growth is told once to every observer.**  Take any events, looks at one key and looks at all
keys, and one of the observers.  Of every key and label, what it was told and what the count is
ahead of its snapshot make the number of events.  It was told positive deltas only; a look at a key
gives it nothing, and a look at all keys leaves the key out, exactly when no label of the key has an
event since its last look at the key; and its answers are the same without the looks of others. -/
theorem growth_told_once (uses : List (CounterUse ω κ ι)) (observer : ω) :
    let w := afterAll uses
    (∀ key label, sumAt (key, label) (w.reported observer) +
        (w.counter.count key label - LabelCounter.seen (w.snapshot observer key) label) =
      counted key label uses) ∧
      (∀ e ∈ w.reported observer, 0 < e.2) ∧
      (∀ key, ((w.counter.diff key (w.snapshot observer key)).1 = none ↔
          ∀ label, counted key label (sinceLook observer key uses) = 0) ∧
        (key ∉ (w.counter.diffAll (w.snapshots observer)).1.map Prod.fst ↔
          ∀ label, counted key label (sinceLook observer key uses) = 0)) ∧
      w.answers observer = (afterAll (uses.filter (concerns observer))).answers observer := by
  intro w
  refine ⟨?_, pos_of_mem_reported_afterAll uses, ?_, (sameFor_filter observer uses).answers⟩
  · intro key label
    have haccounts : Accounts uses w observer key label := accounts_afterAll uses
    rw [haccounts.told_eq, haccounts.count_eq]
    omega
  · intro key
    have hnone := diff_afterAll_eq_none_iff uses observer key
    exact ⟨hnone, EventCounter.not_mem_diffAll_iff.trans hnone⟩

/-- Two observers, one of which looks at single keys too.  The other is told of two errors of a key
at once, finds nothing at the other key, and has the third error before it. -/
theorem growth_told_once_of_two :
    let uses : List (CounterUse Bool String String) :=
      [.increment "app" "ERROR", .look true "app", .increment "app" "ERROR", .increment "db" "WARN",
        .lookAll false, .look false "db", .increment "app" "ERROR", .lookAll true]
    let w := afterAll uses
    (("app", "ERROR"), 2) ∈ w.reported false ∧ (0 : Int) < 2 ∧
      sumAt ("app", "ERROR") (w.reported false) + (w.counter.count "app" "ERROR" -
        LabelCounter.seen (w.snapshot false "app") "ERROR") = 3 ∧
      (w.counter.diff "db" (w.snapshot false "db")).1 = none ∧
      "app" ∈ (w.counter.diffAll (w.snapshots false)).1.map Prod.fst := by
  intro uses w
  obtain ⟨hsum, hpos, hnone, -⟩ := growth_told_once uses false
  have hmem : (("app", "ERROR"), 2) ∈ w.reported false := by decide +kernel
  refine ⟨hmem, hpos _ hmem, hsum "app" "ERROR", (hnone "db").1.2 ?_, ?_⟩
  · intro label
    show [("app", "ERROR")].count ("db", label) = 0
    simp
  · by_contra hleft
    have hquiet := (hnone "app").2.1 hleft "ERROR"
    exact absurd hquiet (by decide +kernel)

end WatchedCounter

end LogShipper
