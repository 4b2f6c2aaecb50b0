/-!
# Numbers of 64 bits

Signed numbers of 64 bits, as whole numbers with their arithmetic. A result that does not fit comes
back from the other end of the range (`wrap`), and so it is right up to a multiple of `2 ^ 64`, and
right as it stands whenever it fits (`wrap_of_isWord`).

Events are counted without a bound, since no run lasts long enough to leave the range. So `add` and
`sub` take numbers that do not fit as well, and are then exact.
-/

namespace LogShipper

/-- Whether a number has 64 bits. -/
def IsWord (i : Int) : Prop := -0x8000000000000000 ≤ i ∧ i < 0x8000000000000000

theorem isWord_ofNat_iff {n : Nat} : n < 0x8000000000000000 ↔ IsWord (.ofNat n) := by
  unfold IsWord
  rw [Int.ofNat_eq_natCast]
  omega

theorem isWord_negSucc_iff {n : Nat} : n < 0x8000000000000000 ↔ IsWord (.negSucc n) := by
  unfold IsWord
  omega

-- by the sign, so that the kernel need not subtract the bound from a number that it does not know
instance : DecidablePred IsWord
  | .ofNat _ => decidable_of_iff _ isWord_ofNat_iff
  | .negSucc _ => decidable_of_iff _ isWord_negSucc_iff

theorem isWord_toInt (w : Int64) : IsWord w.toInt := ⟨w.le_toInt, w.toInt_lt⟩

namespace Word

/-- The number of 64 bits that differs from a number by a multiple of `2 ^ 64`. -/
def wrap (i : Int) : Int := i.bmod 0x10000000000000000

theorem isWord_wrap (i : Int) : IsWord (wrap i) :=
  ⟨Int.le_bmod (by decide), Int.bmod_lt (by decide)⟩

/-- A number of 64 bits stays as it is. -/
theorem wrap_of_isWord {i : Int} (h : IsWord i) : wrap i = i := Int.bmod_eq_of_le h.1 h.2

/-- The sum in 64 bits; a number that does not fit is added exactly. -/
def add (i j : Int) : Int := if IsWord i ∧ IsWord j then wrap (i + j) else i + j

/-- The difference in 64 bits; with a number that does not fit it is exact. -/
def sub (i j : Int) : Int := if IsWord i ∧ IsWord j then wrap (i - j) else i - j

theorem wrap_wrap (i : Int) : wrap (wrap i) = wrap i := wrap_of_isWord (isWord_wrap i)

/-- A sum is the same whether one of its numbers was wrapped before. -/
theorem wrap_wrap_add (i j : Int) : wrap (wrap i + j) = wrap (i + j) := Int.bmod_add_bmod

theorem wrap_add_wrap (i j : Int) : wrap (i + wrap j) = wrap (i + j) := Int.add_bmod_bmod

theorem wrap_add (i j : Int) : wrap (add i j) = wrap (i + j) := by
  unfold add
  split
  · exact wrap_wrap _
  · rfl

theorem add_of_isWord {i j : Int} (hi : IsWord i) (hj : IsWord j) : add i j = wrap (i + j) :=
  if_pos ⟨hi, hj⟩

/-- A counter that starts at zero takes its first number as it is. -/
@[simp] theorem zero_add (i : Int) : add 0 i = i := by
  unfold add
  rw [Int.zero_add]
  split
  · rename_i h
    exact wrap_of_isWord h.2
  · rfl

/-- A difference that fits is exact. -/
theorem sub_of_isWord {i j : Int} (h : IsWord (i - j)) : sub i j = i - j := by
  unfold sub
  split
  · exact wrap_of_isWord h
  · rfl

/-- Numbers that are not negative have an exact difference. -/
theorem sub_of_nonneg {i j : Int} (hi : 0 ≤ i) (hj : 0 ≤ j) : sub i j = i - j := by
  unfold sub
  split
  · rename_i h
    unfold IsWord at h
    exact wrap_of_isWord (by unfold IsWord; omega)
  · rfl

end Word

end LogShipper
