import LogShipper.Text.Basic

/-!
# Decimal numbers

Whole numbers as text, and the reading of unsigned numbers of a bounded range. `readNat?_ofNat`
says that what is written is read back.
-/

namespace LogShipper.Decimal

/-- A natural number in decimal digits, without leading zeros. -/
def ofNat (n : Nat) : Text := Nat.toDigits 10 n

/-- An integer in decimal digits, after a minus sign if it is negative. -/
def ofInt : Int → Text
  | .ofNat n => ofNat n
  | .negSucc n => '-' :: ofNat (n + 1)

/-- The number that a row of digits stands for. -/
def value (digits : Text) : Nat := Nat.ofDigitChars 10 digits 0

/-- Reads an unsigned number below `limit`: at least one digit, after at most one plus sign. -/
def readNat? (limit : Nat) (t : Text) : Option Nat :=
  let digits := match t with
    | '+' :: rest => rest
    | _ => t
  if digits.isEmpty || !digits.all Char.isDigit then none
  else if value digits < limit then some (value digits)
  else none

/-- A truth value in lower case. -/
def ofBool : Bool → Text
  | true => "true"
  | false => "false"

theorem isDigit_of_mem_ofNat {n : Nat} {c : Char} (h : c ∈ ofNat n) : c.isDigit = true :=
  Nat.isDigit_of_mem_toDigits (by decide) (by decide) h

theorem ofNat_ne_nil (n : Nat) : ofNat n ≠ [] := Nat.toDigits_ne_nil

@[simp] theorem value_ofNat (n : Nat) : value (ofNat n) = n :=
  Nat.ofDigitChars_toDigits (by decide) (by decide)

/-- A number below the limit is read back from its digits. -/
theorem readNat?_ofNat {n limit : Nat} (h : n < limit) : readNat? limit (ofNat n) = some n := by
  have hall : (ofNat n).all Char.isDigit = true :=
    List.all_eq_true.2 fun c hc => isDigit_of_mem_ofNat hc
  have hhead : ∀ rest, ofNat n ≠ '+' :: rest := fun rest hc => by
    have := isDigit_of_mem_ofNat (n := n) (c := '+') (by simp [hc])
    exact absurd this (by decide)
  unfold readNat?
  split
  · exact absurd ‹_› (hhead _)
  · simp [ofNat_ne_nil, hall, h]

end LogShipper.Decimal
