import LogShipper.Trigger
import LogShipper.Proofs.Number.Exactness

/-!
# The law of thinning

A trigger whose factor is a whole number `m` forwards the calls of a window whose positions are
powers of `m`.  The trigger keeps only a count and a threshold; `TriggerWindow.Thinned` says that
the threshold stands for the least power of `m` that the count has not reached, which opening a
window and counting a call keep.

Where a call stands is said without a trigger: `place` follows the instants of the calls of one key
and tells when the present window opened and how many calls fell into it.  A trigger follows each
key in this way, whatever is offered for other keys (`Trigger.find?_offerAll`,
`TriggerWindow.place_after`).
-/

namespace LogShipper

universe u v

/-! ## Places of calls -/

/-- Where a call stands among the calls of its key. -/
structure Place where
  /-- When the window of the call opened. -/
  opened : Nat
  /-- The position of the call in its window; the first call has position 1. -/
  position : Nat

/-- The place of a call at an instant, after the place of the call before it, where windows have
some length.  A call more than the length after the opening of the window opens a new one; one at
an earlier instant comes as if no time had passed. -/
def Place.next (length now : Nat) : Option Place → Place
  | none => ⟨now, 1⟩
  | some p => if length < now - p.opened then ⟨now, 1⟩ else ⟨p.opened, p.position + 1⟩

/-- The place of the last of some calls at the given instants. -/
def place (length : Nat) (instants : List Nat) : Option Place :=
  instants.foldl (fun p now => some (Place.next length now p)) none

/-- The position in its window of a call at an instant, after calls at the given instants. -/
def positionAfter (length : Nat) (instants : List Nat) (now : Nat) : Nat :=
  (Place.next length now (place length instants)).position

theorem place_append_singleton (length : Nat) (instants : List Nat) (now : Nat) :
    place length (instants ++ [now]) = some (Place.next length now (place length instants)) :=
  List.foldl_append

theorem Place.position_next_le (length now : Nat) (p : Place) :
    (Place.next length now (some p)).position ≤ p.position + 1 := by
  unfold next
  dsimp only
  split
  · exact Nat.le_add_left 1 p.position
  · exact Nat.le_refl _

theorem positionAfter_le (length : Nat) (instants : List Nat) (now : Nat) :
    positionAfter length instants now ≤ instants.length + 1 := by
  induction instants using List.reverseRecOn generalizing now with
  | nil => exact Nat.le_refl 1
  | append_singleton instants last ih =>
    unfold positionAfter
    rw [place_append_singleton, List.length_append]
    exact (Place.position_next_le length now _).trans (Nat.succ_le_succ (ih last))

variable {κ : Type u} {θ : Type v} [DecidableEq κ] [ThresholdArithmetic θ]

/-! ## The window of each key -/

namespace TriggerWindow

/-- The window of a key after one more call, if there was none or there was one. -/
def next (rule : TriggerRule θ) (w : Option (TriggerWindow θ)) (now : Nat) : TriggerWindow θ :=
  ((w.getD (openAt now)).atInstant rule.window now |>.advance rule.multiplier).1

/-- The window of a key after calls at the given instants. -/
def after (rule : TriggerRule θ) (instants : List Nat) : Option (TriggerWindow θ) :=
  instants.foldl (fun w now => some (next rule w now)) none

/-- The place of the last call that a window counted. -/
def place (w : TriggerWindow θ) : Place := ⟨w.opened, w.count⟩

theorem after_append_singleton (rule : TriggerRule θ) (instants : List Nat) (now : Nat) :
    after rule (instants ++ [now]) = some (next rule (after rule instants) now) :=
  List.foldl_append

/-- Windows follow the places of calls, whatever their thresholds. -/
theorem place_next (rule : TriggerRule θ) (w : Option (TriggerWindow θ)) (now : Nat) :
    (next rule w now).place = Place.next rule.window now (w.map place) := by
  unfold next
  cases w with
  | none =>
    have hpresent : atInstant (openAt now : TriggerWindow θ) rule.window now = openAt now :=
      ite_self _
    dsimp only [Option.getD_none]
    rw [hpresent]
    rfl
  | some w =>
    dsimp only [Option.getD_some, Option.map_some, Place.next]
    unfold atInstant
    split
    · rename_i hlate
      exact (if_pos hlate).symm
    · rename_i hlate
      exact (if_neg hlate).symm

theorem place_after (rule : TriggerRule θ) (instants : List Nat) :
    (after rule instants).map place = LogShipper.place rule.window instants := by
  induction instants using List.reverseRecOn with
  | nil => rfl
  | append_singleton instants now ih =>
    rw [after_append_singleton, place_append_singleton, Option.map_some, place_next, ih]

end TriggerWindow

namespace Trigger

/-- The trigger after some calls, each with a key and an instant. -/
def offerAll (t : Trigger κ θ) (calls : List (κ × Nat)) : Trigger κ θ :=
  calls.foldl (fun t call => (t.offer call.1 call.2).1) t

/-- The instants of the calls of a key. -/
def instantsOf (key : κ) (calls : List (κ × Nat)) : List Nat :=
  (calls.filter fun call => call.1 = key).map Prod.snd

theorem instantsOf_append (key : κ) (earlier later : List (κ × Nat)) :
    instantsOf key (earlier ++ later) = instantsOf key earlier ++ instantsOf key later := by
  unfold instantsOf
  rw [List.filter_append, List.map_append]

theorem instantsOf_append_singleton (key : κ) (calls : List (κ × Nat)) (call : κ × Nat) :
    instantsOf key (calls ++ [call]) =
      instantsOf key calls ++ if call.1 = key then [call.2] else [] := by
  rw [instantsOf_append]
  unfold instantsOf
  by_cases hkey : call.1 = key <;> simp [hkey]

theorem rule_offerAll (t : Trigger κ θ) (calls : List (κ × Nat)) :
    (t.offerAll calls).rule = t.rule := by
  induction calls generalizing t with
  | nil => rfl
  | cons call calls ih => exact ih _

/-- Keys do not disturb each other: the window of a key depends on the calls of the key alone. -/
theorem find?_offerAll (rule : TriggerRule θ) (calls : List (κ × Nat)) (key : κ) :
    ((new rule).offerAll calls).windows.find? key =
      TriggerWindow.after rule (instantsOf key calls) := by
  induction calls using List.reverseRecOn with
  | nil => rfl
  | append_singleton calls call ih =>
    have hlast : (new rule).offerAll (calls ++ [call]) =
        (((new rule).offerAll calls).offer call.1 call.2).1 := List.foldl_append
    rw [hlast]
    unfold offer
    dsimp only
    rw [Table.find?_insert, rule_offerAll, instantsOf_append_singleton]
    split
    · rename_i hkey
      subst hkey
      rw [ih, if_pos rfl, TriggerWindow.after_append_singleton]
      rfl
    · rename_i hkey
      rw [ih, if_neg (Ne.symm hkey), List.append_nil]

end Trigger

/-! ## Thresholds -/

namespace TriggerWindow

/-- A count that has reached the threshold lets it grow, if the factor does. -/
theorem threshold_advance_of_reached {w : TriggerWindow θ} {multiplier : θ}
    (hreached : ThresholdArithmetic.le w.threshold (ThresholdArithmetic.ofNat (w.count + 1)) = true)
    (hgrows : ThresholdArithmetic.lt (ThresholdArithmetic.ofNat 1) multiplier = true) :
    (w.advance multiplier).1.threshold = ThresholdArithmetic.mul w.threshold multiplier := by
  apply if_pos
  rw [Bool.and_eq_true]
  exact ⟨hreached, hgrows⟩

/-- Otherwise the threshold stays. -/
theorem threshold_advance_of_not_reached {w : TriggerWindow θ} {multiplier : θ}
    (h : ¬ThresholdArithmetic.le w.threshold (ThresholdArithmetic.ofNat (w.count + 1)) = true) :
    (w.advance multiplier).1.threshold = w.threshold := by
  apply if_neg
  rw [Bool.and_eq_true]
  exact fun hboth => h hboth.1

variable {m : Nat} {w : TriggerWindow Binary64} {multiplier : Binary64}

/-- The threshold of a window stands for the least power of `m` that is greater than the count. -/
def Thinned (m : Nat) (w : TriggerWindow Binary64) : Prop :=
  ∃ k, w.threshold.Stands (m ^ k) ∧ w.count < m ^ k ∧ ∀ j < k, m ^ j ≤ w.count

theorem thinned_openAt (m now : Nat) : (openAt now : TriggerWindow Binary64).Thinned m :=
  ⟨0, Binary64.stands_ofNat Nat.one_pos, Nat.one_pos, nofun⟩

theorem Thinned.atInstant (h : w.Thinned m) (length now : Nat) :
    (w.atInstant length now).Thinned m := by
  unfold TriggerWindow.atInstant
  split
  · exact thinned_openAt m now
  · exact h

/-- A call is forwarded when its number is a power of `m`. -/
theorem Thinned.forwards_iff (h : w.Thinned m) (hm : 2 ≤ m) (hcount : w.count + 1 < 2 ^ 53) :
    (w.advance multiplier).2 = true ↔ ∃ j, w.count + 1 = m ^ j := by
  obtain ⟨k, hstands, hlt, hleast⟩ := h
  refine (hstands.le_ofNat_iff (Nat.succ_pos _) hcount).trans ?_
  constructor
  · intro hreached
    exact ⟨k, Nat.le_antisymm hlt hreached⟩
  · rintro ⟨j, hj⟩
    show m ^ k ≤ w.count + 1
    rw [hj]
    apply Nat.pow_le_pow_right (by omega)
    by_contra hjk
    have hle := hleast j (Nat.not_le.1 hjk)
    omega

/-- Counting a call keeps the threshold above the count: where the count reaches the threshold, the
next power stands beyond. -/
theorem Thinned.advance (h : w.Thinned m) (hm : 2 ≤ m) (hmultiplier : multiplier.HasValue m)
    (hcount : w.count + 1 < 2 ^ 53) : (w.advance multiplier).1.Thinned m := by
  obtain ⟨k, hstands, hlt, hleast⟩ := h
  have hreached := hstands.le_ofNat_iff (Nat.succ_pos w.count) hcount
  have hgrows : Binary64.lt (.ofNat 1) multiplier = true := hmultiplier.one_lt hm
  by_cases hfires : m ^ k ≤ w.count + 1
  · have hpower : w.count + 1 = m ^ k := Nat.le_antisymm hlt hfires
    have hthreshold : (w.advance multiplier).1.threshold = w.threshold.mul multiplier :=
      threshold_advance_of_reached (hreached.2 hfires) hgrows
    refine ⟨k + 1, ?_, ?_, ?_⟩
    · rw [hthreshold, Nat.pow_succ]
      exact hstands.mul (by omega) (by omega) hmultiplier (by omega)
    · show w.count + 1 < m ^ (k + 1)
      rw [hpower]
      exact Nat.pow_lt_pow_right hm (Nat.lt_succ_self k)
    · intro j hj
      show m ^ j ≤ w.count + 1
      rw [hpower]
      exact Nat.pow_le_pow_right (by omega) (Nat.le_of_lt_succ hj)
  · have hthreshold : (w.advance multiplier).1.threshold = w.threshold :=
      threshold_advance_of_not_reached (mt hreached.1 hfires)
    refine ⟨k, ?_, Nat.not_le.1 hfires, ?_⟩
    · rw [hthreshold]
      exact hstands
    · intro j hj
      exact Nat.le_succ_of_le (hleast j hj)

end TriggerWindow

/-! ## The law -/

section Law

variable {m : Nat} {rule : TriggerRule Binary64}

/-- The window in which a call is counted, before it is. -/
theorem TriggerWindow.count_atInstant (rule : TriggerRule θ) (instants : List Nat)
    (now : Nat) : (((after rule instants).getD (openAt now)).atInstant rule.window now).count + 1 =
      positionAfter rule.window instants now := by
  have hplace := place_next rule (after rule instants) now
  rw [place_after] at hplace
  exact congrArg Place.position hplace

/-- The thresholds of all windows stand for powers of `m`. -/
theorem TriggerWindow.thinned_after (hm : 2 ≤ m) (hrule : rule.multiplier.HasValue m)
    (instants : List Nat) (hlength : instants.length < 2 ^ 53) (now : Nat) :
    ((after rule instants).getD (openAt now)).Thinned m := by
  induction instants using List.reverseRecOn generalizing now with
  | nil => exact thinned_openAt m now
  | append_singleton instants last ih =>
    rw [List.length_append] at hlength
    rw [after_append_singleton]
    refine Thinned.advance ((ih (by omega) last).atInstant _ _) hm hrule ?_
    rw [count_atInstant]
    exact (positionAfter_le _ _ _).trans_lt hlength

/-- **The law of thinning.**  Let the factor of a trigger be a whole number `m` of at least 2.  A
call is forwarded exactly when its position in its window is a power of `m`, whatever other calls
came before it, as long as there are fewer than `2 ^ 53` calls.  The position depends on the
instants of the calls of the same key alone. -/
theorem Trigger.forwards_powers (hm : 2 ≤ m) (hrule : rule.multiplier.HasValue m)
    (calls : List (κ × Nat)) (key : κ) (now : Nat) (hlength : calls.length + 1 < 2 ^ 53) :
    (((new rule).offerAll calls).offer key now).2 = true ↔
      ∃ j, positionAfter rule.window (instantsOf key calls) now = m ^ j := by
  have hinstants : (instantsOf key calls).length ≤ calls.length := by
    unfold instantsOf
    rw [List.length_map]
    exact List.length_filter_le _ _
  have hthinned := TriggerWindow.thinned_after hm hrule (instantsOf key calls) (by omega) now
  have hposition : positionAfter rule.window (instantsOf key calls) now < 2 ^ 53 :=
    (positionAfter_le _ _ _).trans_lt (by omega)
  rw [← TriggerWindow.count_atInstant] at hposition ⊢
  unfold offer
  dsimp only
  rw [find?_offerAll, rule_offerAll]
  exact (hthinned.atInstant _ _).forwards_iff hm hposition

/-- With the factor 3 and windows of 10, two calls for another key in between: the calls at 5, 2 and
15 fall into one window, in which the third is forwarded and the second is not; the one at 16 opens
another window. -/
theorem Trigger.forwards_powers_of_three :
    let rule : TriggerRule Binary64 :=
      { severity := .warn, multiplier := .ofNat 3, window := 10, depth := 0 }
    let t : Trigger String Binary64 := new rule
    ((t.offerAll [("app", 5), ("db", 4)]).offer "app" 2).2 = false ∧
    ((t.offerAll [("app", 5), ("db", 4), ("app", 2), ("db", 90)]).offer "app" 15).2 = true ∧
    ((t.offerAll [("app", 5), ("db", 4), ("app", 2), ("db", 90)]).offer "app" 16).2 = true := by
  intro rule t
  have hthree : (Binary64.ofNat 3).HasValue 3 := Binary64.hasValue_ofNat (by decide) (by decide)
  have hlaw (calls : List (String × Nat)) (now : Nat) (hlength : calls.length + 1 < 2 ^ 53) :
      ((t.offerAll calls).offer "app" now).2 = true ↔
        ∃ j, positionAfter rule.window (instantsOf "app" calls) now = 3 ^ j :=
    Trigger.forwards_powers (by decide) hthree calls "app" now hlength
  refine ⟨?_, ?_, ?_⟩
  · rw [← Bool.not_eq_true, hlaw _ _ (by decide)]
    rintro ⟨j, hj⟩
    have hposition : (2 : Nat) = 3 ^ j := hj
    cases j with
    | zero => cases hposition
    | succ j =>
      rw [Nat.pow_succ] at hposition
      omega
  · exact (hlaw _ _ (by decide)).2 ⟨1, by decide⟩
  · exact (hlaw _ _ (by decide)).2 ⟨0, by decide⟩

end Law

end LogShipper
