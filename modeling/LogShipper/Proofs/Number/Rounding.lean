import LogShipper.Number.Binary64
import Mathlib.Algebra.Order.Field.Rat
import Mathlib.Algebra.Order.Field.Power
import Mathlib.Tactic.GCongr
import Mathlib.Tactic.Positivity
import Mathlib.Tactic.Ring

/-!
# Rounding

A fraction has a rational value.  It is short if it has at most 53 bits and the last of them is
not below `2 ^ -1074` (`BinaryFraction.IsShort`).  Rounding does not cross the value of a short
fraction, from above (`BinaryFraction.le_round`) or from below (`BinaryFraction.round_le`), so it
keeps the values that short fractions have (`BinaryFraction.value_round`).

The argument for both is where the unit of the rounded fraction stands.  If the short fraction is a
multiple of the unit then the quotient is on the same side of it; otherwise the 53 bits that remain
are all above the short fraction.
-/

namespace LogShipper

namespace BinaryFraction

/-! ## Values -/

/-- The value of a fraction. -/
def value (x : BinaryFraction) : ℚ := x.mantissa * 2 ^ x.exponent

theorem two_zpow_add (i j : ℤ) : (2 : ℚ) ^ (i + j) = 2 ^ i * 2 ^ j :=
  zpow_add₀ two_ne_zero i j

/-- Taking factors of two out of the mantissa. -/
theorem value_shift (m k : Nat) (e : ℤ) : value ⟨m * 2 ^ k, e⟩ = value ⟨m, e + k⟩ := by
  simp only [value, two_zpow_add, zpow_natCast]
  push_cast
  ring

@[simp] theorem value_mul (x y : BinaryFraction) : (x.mul y).value = x.value * y.value := by
  simp only [value, mul, two_zpow_add, Nat.cast_mul]
  ring

@[simp] theorem value_natCast (n : Nat) : value ⟨n, 0⟩ = n := by simp [value]

/-- A fraction in units has the value of the units. -/
theorem inUnits_mul (x : BinaryFraction) {unit : ℤ} (h : unit ≤ x.exponent) :
    (x.inUnits unit : ℚ) * 2 ^ unit = x.value := by
  have hexponent : x.exponent = unit + (x.exponent - unit).toNat := by omega
  calc (x.inUnits unit : ℚ) * 2 ^ unit = value ⟨x.mantissa * 2 ^ (x.exponent - unit).toNat, unit⟩ :=
        rfl
    _ = x.value := by
      rw [value_shift, ← hexponent]

/-! ## The number of bits -/

theorem mantissa_lt (x : BinaryFraction) : x.mantissa < 2 ^ x.bits := by
  unfold bits
  split
  · rename_i hzero
    simp [hzero]
  · exact Nat.lt_log2_self

theorem le_mantissa {x : BinaryFraction} (h : x.bits ≠ 0) : 2 ^ (x.bits - 1) ≤ x.mantissa := by
  unfold bits at h ⊢
  split at h
  · exact absurd rfl h
  · rename_i hmantissa
    rw [if_neg hmantissa]
    exact Nat.log2_self_le hmantissa

theorem le_value {x : BinaryFraction} (h : x.bits ≠ 0) :
    (2 : ℚ) ^ ((x.bits : ℤ) - 1 + x.exponent) ≤ x.value := by
  have hbits : (x.bits : ℤ) - 1 = (x.bits - 1 : Nat) := by omega
  rw [hbits, two_zpow_add, zpow_natCast]
  unfold value
  gcongr
  exact_mod_cast le_mantissa h

/-- The leading bit of a fraction whose value is below a power of two. -/
theorem bits_add_exponent_le {x : BinaryFraction} {p : ℤ} (h : x.value < 2 ^ p) (hx : x.bits ≠ 0) :
    (x.bits : ℤ) + x.exponent ≤ p := by
  have hpow := (le_value hx).trans_lt h
  have hlt := (zpow_lt_zpow_iff_right₀ (one_lt_two : (1 : ℚ) < 2)).1 hpow
  omega

/-! ## Rounding -/

/-- The bits that are rounded away. -/
def surplus (x : BinaryFraction) : ℤ :=
  max ((x.bits : ℤ) - precision) (leastExponent - x.exponent)

theorem round_of_surplus_nonpos {x : BinaryFraction} (h : x.surplus ≤ 0) : x.round = x := if_pos h

theorem round_of_surplus_pos {x : BinaryFraction} (h : ¬x.surplus ≤ 0) :
    x.round = ⟨roundShift x.mantissa x.surplus.toNat, x.exponent + x.surplus⟩ := if_neg h

/-- Rounding does not go below the quotient. -/
theorem le_roundShift (mantissa places : Nat) :
    mantissa / 2 ^ places ≤ roundShift mantissa places := by
  unfold roundShift
  dsimp only
  split
  · exact Nat.le_refl _
  · exact Nat.le_succ _

theorem bits_ne_zero {x : BinaryFraction} (h : 0 < x.value) : x.bits ≠ 0 := by
  intro hbits
  have hmantissa : x.mantissa = 0 := by
    have hlt := x.mantissa_lt
    rw [hbits] at hlt
    omega
  simp [value, hmantissa] at h

/-- A number below `2 ^ 1024` is not too large. -/
theorem overflows_eq_false {x : BinaryFraction} (hpos : 0 < x.value) (hx : x.value < 2 ^ 1024) :
    x.overflows = false := by
  have hbits := bits_add_exponent_le (p := 1024) hx (bits_ne_zero hpos)
  simp only [overflows, decide_eq_false_iff_not]
  omega

/-- Rounding goes at most to the next multiple. -/
theorem roundShift_le {mantissa places k : Nat} (h : mantissa ≤ k * 2 ^ places) :
    roundShift mantissa places ≤ k := by
  have hquotient : mantissa / 2 ^ places ≤ k :=
    Nat.div_le_of_le_mul (by rwa [Nat.mul_comm])
  unfold roundShift
  dsimp only
  split
  · exact hquotient
  · rename_i hup
    rcases hquotient.lt_or_eq with hlt | heq
    · exact hlt
    · -- a quotient that is the bound leaves no rest, and is not rounded up
      have hrest : mantissa % 2 ^ places = 0 := by
        have hsplit := Nat.div_add_mod mantissa (2 ^ places)
        rw [heq, Nat.mul_comm] at hsplit
        omega
      refine absurd (.inl ?_) hup
      show 2 * (mantissa % 2 ^ places) < 2 ^ places
      rw [hrest]
      exact Nat.two_pow_pos places

/-- A fraction that needs no rounding. -/
structure IsShort (x : BinaryFraction) : Prop where
  mantissa_lt : x.mantissa < 2 ^ precision
  le_exponent : leastExponent ≤ x.exponent

section Short

variable {x y : BinaryFraction}

theorem IsShort.value_lt (h : y.IsShort) : y.value < 2 ^ (precision + y.exponent) := by
  rw [two_zpow_add, zpow_natCast]
  unfold value
  gcongr
  exact_mod_cast h.mantissa_lt

/-- What is rounded to a positive number of places has the unit of its 53 bits, or the least. -/
theorem unit_cases (h : ¬x.surplus ≤ 0) : x.exponent + x.surplus = leastExponent ∨
    x.bits ≠ 0 ∧ x.surplus = x.bits - precision := by
  unfold surplus precision at *
  omega

/-- A multiple of the unit of the rounded fraction, with the exponent of the fraction. -/
theorem value_units (h : ¬x.surplus ≤ 0) (hunit : x.exponent + x.surplus ≤ y.exponent) :
    value ⟨y.inUnits (x.exponent + x.surplus) * 2 ^ x.surplus.toNat, x.exponent⟩ = y.value := by
  have hexponent : x.exponent + (x.surplus.toNat : ℤ) = x.exponent + x.surplus := by omega
  rw [value_shift, hexponent]
  exact inUnits_mul y hunit

/-- Rounding does not go above a short fraction. -/
theorem round_le (hy : y.IsShort) (h : x.value ≤ y.value) : x.round.value ≤ y.value := by
  by_cases hsurplus : x.surplus ≤ 0
  · rwa [round_of_surplus_nonpos hsurplus]
  · have hunit : x.exponent + x.surplus ≤ y.exponent := by
      rcases unit_cases hsurplus with hleast | ⟨hbits, hplaces⟩
      · rw [hleast]
        exact hy.le_exponent
      · have hle := bits_add_exponent_le (h.trans_lt hy.value_lt) hbits
        omega
    rw [round_of_surplus_pos hsurplus, ← inUnits_mul y hunit]
    have hmantissa : x.mantissa ≤ y.inUnits (x.exponent + x.surplus) * 2 ^ x.surplus.toNat := by
      rw [← value_units hsurplus hunit] at h
      exact_mod_cast le_of_mul_le_mul_right h (by positivity)
    have hround := roundShift_le hmantissa
    unfold value
    gcongr

/-- Rounding does not go below a short fraction. -/
theorem le_round (hy : y.IsShort) (h : y.value ≤ x.value) : y.value ≤ x.round.value := by
  by_cases hsurplus : x.surplus ≤ 0
  · rwa [round_of_surplus_nonpos hsurplus]
  · rw [round_of_surplus_pos hsurplus]
    by_cases hunit : x.exponent + x.surplus ≤ y.exponent
    · rw [← inUnits_mul y hunit]
      have hmantissa : y.inUnits (x.exponent + x.surplus) * 2 ^ x.surplus.toNat ≤ x.mantissa := by
        rw [← value_units hsurplus hunit] at h
        exact_mod_cast le_of_mul_le_mul_right h (by positivity)
      have hround : y.inUnits (x.exponent + x.surplus) ≤ roundShift x.mantissa x.surplus.toNat :=
        ((Nat.le_div_iff_mul_le (Nat.two_pow_pos _)).2 hmantissa).trans (le_roundShift _ _)
      unfold value
      gcongr
    · -- the unit is beyond the short fraction, and 53 bits remain
      obtain ⟨hbits, hplaces⟩ : x.bits ≠ 0 ∧ x.surplus = x.bits - precision := by
        refine (unit_cases hsurplus).resolve_left fun hleast => hunit ?_
        rw [hleast]
        exact hy.le_exponent
      have hround : 2 ^ (precision - 1) ≤ roundShift x.mantissa x.surplus.toNat := by
        refine le_trans ?_ (le_roundShift _ _)
        rw [Nat.le_div_iff_mul_le (Nat.two_pow_pos _), ← Nat.pow_add]
        have hsum : precision - 1 + x.surplus.toNat = x.bits - 1 := by
          unfold precision at *
          omega
        rw [hsum]
        exact le_mantissa hbits
      calc y.value ≤ 2 ^ (precision + y.exponent) := hy.value_lt.le
        _ ≤ 2 ^ (((precision - 1 : Nat) : ℤ) + (x.exponent + x.surplus)) := by
          apply zpow_le_zpow_right₀ one_le_two
          unfold precision
          omega
        _ = (2 ^ (precision - 1) : Nat) * 2 ^ (x.exponent + x.surplus) := by
          rw [two_zpow_add, zpow_natCast]
          push_cast
          rfl
        _ ≤ value ⟨roundShift x.mantissa x.surplus.toNat, x.exponent + x.surplus⟩ := by
          unfold value
          gcongr

/-- What a short fraction has as its value is not rounded. -/
theorem value_round (hy : y.IsShort) (h : x.value = y.value) : x.round.value = y.value :=
  le_antisymm (round_le hy h.le) (le_round hy h.ge)

end Short

/-- Whole numbers up to `2 ^ 53` are short. -/
theorem exists_isShort {n : Nat} (hn : n ≤ 2 ^ 53) :
    ∃ y : BinaryFraction, y.IsShort ∧ y.value = n := by
  rcases hn.lt_or_eq with hlt | rfl
  · exact ⟨⟨n, 0⟩, ⟨hlt, show leastExponent ≤ 0 by decide⟩, value_natCast n⟩
  · refine ⟨⟨1, 53⟩, ⟨by decide, by decide⟩, ?_⟩
    simp only [value]
    norm_num

end BinaryFraction

end LogShipper
