import LogShipper.Proofs.Number.Rounding

/-!
# Exact numbers in the binary format

Comparing two finite numbers of the format compares their values (`Binary64.le_finite_iff`).  A
product whose exact value the format has is not changed by rounding, and any other may be rounded,
or become an infinity, but it does not fall below a whole number up to `2 ^ 53` that it has reached
(`Binary64.standsBelow_ofMagnitude`).

`Binary64.StandsBelow` says that a number stands for a value as far as the whole numbers below a
limit can tell; `Binary64.Stands` says so for whole numbers and the limit `2 ^ 53`, below which the
format has all of them.
-/

namespace LogShipper

namespace Binary64

open BinaryFraction

/-! ## Comparison -/

section Comparison

variable {x y : BinaryFraction}

theorem compare?_finite : compare? (.finite false x) (.finite false y) =
    some (compare (x.inUnits (min x.exponent y.exponent) : ℤ)
      (y.inUnits (min x.exponent y.exponent))) := rfl

/-- Units compare as the values do. -/
theorem inUnits_le_iff : (x.inUnits (min x.exponent y.exponent) : ℤ) ≤
    y.inUnits (min x.exponent y.exponent) ↔ x.value ≤ y.value := by
  have hunit : (0 : ℚ) < 2 ^ min x.exponent y.exponent := by positivity
  rw [← x.inUnits_mul (min_le_left x.exponent y.exponent),
    ← y.inUnits_mul (min_le_right x.exponent y.exponent), mul_le_mul_iff_left₀ hunit]
  norm_cast

/-- Comparing magnitudes compares their values. -/
theorem le_finite_iff : le (.finite false x) (.finite false y) = true ↔ x.value ≤ y.value := by
  unfold le
  rw [compare?_finite, ← inUnits_le_iff, le_iff_lt_or_eq]
  simp [compare_lt_iff_lt]

theorem lt_finite_iff : lt (.finite false x) (.finite false y) = true ↔ x.value < y.value := by
  unfold lt
  rw [compare?_finite, ← not_le, ← inUnits_le_iff (x := y), min_comm, not_le]
  simp [compare_lt_iff_lt]

end Comparison

/-! ## Values of the format -/

/-- The values of the finite numbers of the format that have no sign. -/
def Representable (q : ℚ) : Prop := q < 2 ^ 1024 ∧ ∃ y : BinaryFraction, y.IsShort ∧ y.value = q

theorem representable_of_isShort {y : BinaryFraction} (hy : y.IsShort) (hle : y.value ≤ 2 ^ 53) :
    Representable y.value :=
  ⟨hle.trans_lt (pow_lt_pow_right₀ one_lt_two (by decide)), y, hy, rfl⟩

theorem representable_natCast {n : Nat} (hn : n ≤ 2 ^ 53) : Representable n := by
  obtain ⟨y, hshort, hy⟩ := exists_isShort hn
  rw [← hy]
  refine representable_of_isShort hshort ?_
  rw [hy]
  exact_mod_cast hn

/-- A number that stands for a value as far as the whole numbers below a limit can tell: it has the
value, or both are at least the limit. -/
def StandsBelow (limit : Nat) (t : Binary64) (q : ℚ) : Prop :=
  (∃ x, t = .finite false x ∧ x.value = q) ∨
    limit ≤ q ∧ (t = .infinity false ∨ ∃ x, t = .finite false x ∧ limit ≤ x.value)

/-- A magnitude stands for its value, rounded as it may be. -/
theorem standsBelow_ofMagnitude {limit : Nat} (hlimit : limit ≤ 2 ^ 53) {x : BinaryFraction}
    (hpos : 0 < x.value) (hx : x.value < limit → Representable x.value) :
    (ofMagnitude false x).StandsBelow limit x.value := by
  unfold ofMagnitude
  by_cases hbelow : x.value < limit
  · obtain ⟨hlt, y, hshort, hy⟩ := hx hbelow
    have hround : x.round.value = x.value := (value_round hshort hy.symm).trans hy
    have hoverflows : x.round.overflows = false :=
      overflows_eq_false (by rwa [hround]) (by rwa [hround])
    rw [hoverflows]
    exact .inl ⟨x.round, rfl, hround⟩
  · obtain ⟨y, hshort, hy⟩ := exists_isShort hlimit
    have hround : (limit : ℚ) ≤ x.round.value := by
      rw [← hy] at hbelow ⊢
      exact le_round hshort (not_lt.1 hbelow)
    refine .inr ⟨not_lt.1 hbelow, ?_⟩
    split
    · exact .inl rfl
    · exact .inr ⟨x.round, rfl, hround⟩

/-! ## Whole numbers -/

/-- A number whose value is a whole number. -/
def HasValue (t : Binary64) (n : Nat) : Prop := ∃ x, t = .finite false x ∧ x.value = n

/-- A number that stands for a whole number as far as those below `2 ^ 53` can tell: it is the
number if that is one of them, and otherwise at least as great as all of them. -/
def Stands (t : Binary64) (n : Nat) : Prop :=
  t.HasValue n ∧ n < 2 ^ 53 ∨
    2 ^ 53 ≤ n ∧ (t = .infinity false ∨ ∃ x, t = .finite false x ∧ 2 ^ 53 ≤ x.value)

theorem stands_iff {t : Binary64} {n : Nat} : t.Stands n ↔ t.StandsBelow (2 ^ 53) n := by
  unfold Stands StandsBelow HasValue
  push_cast
  constructor
  · rintro (⟨hvalue, -⟩ | ⟨hle, hbeyond⟩)
    · exact .inl hvalue
    · exact .inr ⟨by exact_mod_cast hle, hbeyond⟩
  · rintro (⟨x, rfl, hx⟩ | ⟨hle, hbeyond⟩)
    · by_cases hn : n < 2 ^ 53
      · exact .inl ⟨⟨x, rfl, hx⟩, hn⟩
      · refine .inr ⟨Nat.not_lt.1 hn, .inr ⟨x, rfl, ?_⟩⟩
        rw [hx]
        exact_mod_cast Nat.not_lt.1 hn
    · exact .inr ⟨by exact_mod_cast hle, hbeyond⟩

/-- A magnitude stands for its value, rounded as it may be. -/
theorem stands_ofMagnitude {x : BinaryFraction} {n : Nat} (hx : x.value = n) (hpos : 0 < n) :
    (ofMagnitude false x).Stands n := by
  rw [stands_iff, ← hx]
  apply standsBelow_ofMagnitude (Nat.le_refl _)
  · rw [hx]
    exact_mod_cast hpos
  · intro hlt
    rw [hx] at hlt ⊢
    exact representable_natCast (le_of_lt (by exact_mod_cast hlt))

theorem stands_ofNat {n : Nat} (hpos : 0 < n) : (ofNat n).Stands n :=
  stands_ofMagnitude (value_natCast n) hpos

theorem hasValue_ofNat {n : Nat} (hpos : 0 < n) (hn : n < 2 ^ 53) : (ofNat n).HasValue n := by
  rcases stands_ofNat hpos with ⟨hvalue, -⟩ | ⟨hle, -⟩
  · exact hvalue
  · exact absurd hn (Nat.not_lt.2 hle)

/-- A whole number above one is greater than one. -/
theorem HasValue.one_lt {u : Binary64} {m : Nat} (h : u.HasValue m) (hm : 1 < m) :
    lt (ofNat 1) u = true := by
  obtain ⟨y, rfl, hy⟩ := h
  have hone : ofNat 1 = .finite false ⟨1, 0⟩ := rfl
  rw [hone, lt_finite_iff, value_natCast, hy]
  exact_mod_cast hm

/-- Which counts have reached the value that a number stands for. -/
theorem StandsBelow.le_ofNat_iff {t : Binary64} {limit : Nat} {q : ℚ} (h : t.StandsBelow limit q)
    (hlimit : limit ≤ 2 ^ 53) {count : Nat} (hpos : 0 < count) (hcount : count < limit) :
    t.le (ofNat count) = true ↔ q ≤ count := by
  obtain ⟨y, hofNat, hy⟩ := hasValue_ofNat hpos (hcount.trans_le hlimit)
  have hlt : (count : ℚ) < limit := by exact_mod_cast hcount
  rw [hofNat]
  rcases h with ⟨x, rfl, hx⟩ | ⟨hle, rfl | ⟨x, rfl, hx⟩⟩
  · rw [le_finite_iff, hx, hy]
  · have hnever : (infinity false).le (.finite false y) = false := rfl
    rw [hnever]
    exact iff_of_false Bool.false_ne_true (not_le.2 (hlt.trans_le hle))
  · rw [le_finite_iff, hy]
    exact iff_of_false (not_le.2 (hlt.trans_le hx)) (not_le.2 (hlt.trans_le hle))

namespace Stands

variable {t u : Binary64} {n m : Nat}

/-- Which counts have reached the number. -/
theorem le_ofNat_iff (h : t.Stands n) {count : Nat} (hpos : 0 < count) (hcount : count < 2 ^ 53) :
    t.le (ofNat count) = true ↔ n ≤ count :=
  ((stands_iff.1 h).le_ofNat_iff (Nat.le_refl _) hpos hcount).trans Nat.cast_le

/-- The product with a whole number, if the number is not beyond all others. -/
theorem mul (h : t.Stands n) (hpos : 0 < n) (hn : n < 2 ^ 53) (hu : u.HasValue m) (hm : 0 < m) :
    (t.mul u).Stands (n * m) := by
  obtain ⟨y, rfl, hy⟩ := hu
  rcases h with ⟨⟨x, rfl, hx⟩, -⟩ | ⟨hle, -⟩
  · refine stands_ofMagnitude (x := x.mul y) ?_ (Nat.mul_pos hpos hm)
    rw [value_mul, hx, hy, Nat.cast_mul]
  · exact absurd hn (Nat.not_lt.2 hle)

end Stands

end Binary64

end LogShipper
