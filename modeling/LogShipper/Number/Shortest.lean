import LogShipper.Number.Binary64
import LogShipper.Text.Basic

/-!
# The shortest decimal text of a number

A number is written with the fewest decimal digits that single it out among the numbers of its
format. The numbers that a decimal may be read as form an interval around the number, whose ends
belong to it when the mantissa is even. For one digit, two digits and so on the two neighbours of
the number on the decimal grid are tried, and the first grid with a neighbour in the interval
wins; of two, the nearer, and the upper one of a tie.

The digits are always written in full, without an exponent and without a fraction of zeros.
-/

namespace LogShipper.Shortest

/-- A whole number times a power of ten. -/
structure DecimalFraction where
  digits : Nat
  exponent : Int
deriving DecidableEq, Repr

/-- The mantissa with as many of 53 bits as the least exponent allows. -/
def normalize (x : BinaryFraction) : BinaryFraction :=
  let places := min (BinaryFraction.precision - x.bits) (x.exponent - BinaryFraction.leastExponent).toNat
  ⟨x.mantissa * Nat.pow 2 places, x.exponent - places⟩

/-- Compares a decimal with a binary fraction. -/
def compareTo (d : DecimalFraction) (x : BinaryFraction) : Ordering :=
  compare (d.digits * Nat.pow 10 d.exponent.toNat * Nat.pow 2 (-x.exponent).toNat)
    (x.mantissa * Nat.pow 2 x.exponent.toNat * Nat.pow 10 (-d.exponent).toNat)

/-- The lower end of the interval that is read as a normalized number. Below a power of two the
numbers lie twice as close. -/
def lowerEnd (x : BinaryFraction) : BinaryFraction :=
  if x.mantissa = Nat.pow 2 52 ∧ BinaryFraction.leastExponent < x.exponent then
    ⟨4 * x.mantissa - 1, x.exponent - 2⟩
  else ⟨2 * x.mantissa - 1, x.exponent - 1⟩

/-- The upper end of the interval that is read as a normalized number. -/
def upperEnd (x : BinaryFraction) : BinaryFraction := ⟨2 * x.mantissa + 1, x.exponent - 1⟩

/-- Whether the decimal is read as the normalized number. -/
def readsAs (x : BinaryFraction) (d : DecimalFraction) : Bool :=
  match compareTo d (lowerEnd x), compareTo d (upperEnd x) with
  | .gt, .lt => true
  | .eq, _ | _, .eq => x.mantissa % 2 = 0
  | _, _ => false

/-- The exponent of the leading decimal digit of `numerator / denominator`. -/
def leadingExponent (numerator denominator : Nat) : Int :=
  if denominator ≤ numerator then ((Nat.toDigits 10 (numerator / denominator)).length : Int) - 1
  else -((Nat.toDigits 10 ((denominator - 1) / numerator)).length : Int)

/-- The number as a quotient of whole numbers. -/
def numerator (x : BinaryFraction) : Nat := x.mantissa * Nat.pow 2 x.exponent.toNat

@[inherit_doc numerator]
def denominator (x : BinaryFraction) : Nat := Nat.pow 2 (-x.exponent).toNat

/-- The better of the two neighbours of the number on the grid of the given exponent, if one of
them is read as the number. -/
def onGrid? (x : BinaryFraction) (exponent : Int) : Option DecimalFraction :=
  let num := numerator x * Nat.pow 10 (-exponent).toNat
  let den := denominator x * Nat.pow 10 exponent.toNat
  let below : DecimalFraction := ⟨num / den, exponent⟩
  let above : DecimalFraction := ⟨num / den + 1, exponent⟩
  match readsAs x below, readsAs x above with
  | true, true => some (if 2 * (num % den) < den then below else above)
  | true, false => some below
  | false, true => some above
  | false, false => none

/-- The decimal that equals the number. -/
def exact (x : BinaryFraction) : DecimalFraction :=
  let places := (-x.exponent).toNat
  ⟨numerator x * Nat.pow 5 places, -(places : Int)⟩

/-- The shortest decimal that is read as a number other than zero. Seventeen digits single out
every number, so that the grids up to there suffice. -/
def ofBinary (x : BinaryFraction) : DecimalFraction :=
  let n := normalize x
  let leading := leadingExponent (numerator n) (denominator n)
  ((List.range 17).findSome? fun (places : Nat) => onGrid? n (leading - places)).getD (exact n)

/-- A row of digits without its trailing zeros. -/
def dropTrailingZeros (digits : Text) : Text := (digits.reverse.dropWhile (· = '0')).reverse

/-- A decimal written in full. -/
def positional (d : DecimalFraction) : Text :=
  let digits := Nat.toDigits 10 d.digits
  if 0 ≤ d.exponent then digits ++ List.replicate d.exponent.toNat '0'
  else
    let places := (-d.exponent).toNat
    let padded := List.replicate (places + 1 - digits.length) '0' ++ digits
    let whole := padded.take (padded.length - places)
    let fraction := dropTrailingZeros (padded.drop (padded.length - places))
    if fraction.isEmpty then whole else whole ++ '.' :: fraction

end LogShipper.Shortest

namespace LogShipper.Binary64

/-- The text of a number: its shortest decimal, written in full. -/
def toText : Binary64 → Text
  | .nan => "NaN"
  | .infinity negative => if negative then "-inf" else "inf"
  | .finite negative x =>
    let digits := if x.mantissa = 0 then ['0'] else Shortest.positional (Shortest.ofBinary x)
    if negative then '-' :: digits else digits

end LogShipper.Binary64
