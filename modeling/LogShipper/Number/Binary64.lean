/-!
# Binary floating point

The numbers of the 64-bit binary format, with the operations that a growing threshold needs:
whole numbers, comparison and multiplication. A finite number is held exactly, as a whole number
times a power of two; `BinaryFraction.round` brings a result back to 53 significant bits, a half
going to the even neighbour.
-/

namespace LogShipper

/-- The number `mantissa · 2 ^ exponent`. -/
structure BinaryFraction where
  mantissa : Nat
  exponent : Int
deriving DecidableEq, Repr

namespace BinaryFraction

/-- The number in units of `2 ^ unit`, for a unit that divides it. -/
def inUnits (x : BinaryFraction) (unit : Int) : Nat :=
  x.mantissa * Nat.pow 2 (x.exponent - unit).toNat

/-- The exact product. -/
def mul (x y : BinaryFraction) : BinaryFraction :=
  ⟨x.mantissa * y.mantissa, x.exponent + y.exponent⟩

/-- The number of significant bits. -/
def bits (x : BinaryFraction) : Nat := if x.mantissa = 0 then 0 else x.mantissa.log2 + 1

/-- The quotient by `2 ^ places` rounded to the nearest whole number, a half to the even one. -/
def roundShift (mantissa places : Nat) : Nat :=
  let unit := Nat.pow 2 places
  let quotient := mantissa / unit
  let rest := 2 * (mantissa % unit)
  if rest < unit ∨ (rest = unit ∧ quotient % 2 = 0) then quotient else quotient + 1

/-- The least exponent of a representable number. -/
def leastExponent : Int := -1074

/-- The number of significant bits of a representable number. -/
def precision : Nat := 53

/-- The nearest number of at most 53 bits that is a multiple of `2 ^ -1074`. -/
def round (x : BinaryFraction) : BinaryFraction :=
  let places := max ((x.bits : Int) - precision) (leastExponent - x.exponent)
  if places ≤ 0 then x
  else ⟨roundShift x.mantissa places.toNat, x.exponent + places⟩

/-- Whether the number is `2 ^ 1024` or more. -/
def overflows (x : BinaryFraction) : Bool := 1024 < (x.bits : Int) + x.exponent

end BinaryFraction

/-- A number of the 64-bit binary format. -/
inductive Binary64 where
  /-- Not a number. -/
  | nan
  | infinity (negative : Bool)
  | finite (negative : Bool) (magnitude : BinaryFraction)
deriving DecidableEq, Repr

namespace Binary64

/-- The finite number nearest to the magnitude, or an infinity if it is too large. -/
def ofMagnitude (negative : Bool) (x : BinaryFraction) : Binary64 :=
  if x.round.overflows then .infinity negative else .finite negative x.round

/-- The number nearest to a whole number. -/
def ofNat (n : Nat) : Binary64 := ofMagnitude false ⟨n, 0⟩

/-- The number with the given sign, exponent and fraction bits. -/
def ofBits (word : UInt64) : Binary64 :=
  let n := word.toNat
  let negative := decide (Nat.pow 2 63 ≤ n)
  let exponent : Nat := n / Nat.pow 2 52 % 2048
  let fraction : Nat := n % Nat.pow 2 52
  if exponent = 0 then .finite negative ⟨fraction, -1074⟩
  else if exponent = 2047 then if fraction = 0 then .infinity negative else .nan
  else .finite negative ⟨Nat.pow 2 52 + fraction, (exponent : Int) - 1075⟩

/-- Whether the number is neither an infinity nor `nan`. -/
def isFinite : Binary64 → Bool
  | .finite .. => true
  | _ => false

/-- A signed magnitude in units of `2 ^ unit`. -/
def signedUnits (negative : Bool) (x : BinaryFraction) (unit : Int) : Int :=
  if negative then -(x.inUnits unit : Int) else x.inUnits unit

/-- The order of the numbers; `nan` stands in none, and the two zeros are equal. -/
def compare? : Binary64 → Binary64 → Option Ordering
  | .nan, _ | _, .nan => none
  | .infinity a, .infinity b => some (if a = b then .eq else if a then .lt else .gt)
  | .infinity a, .finite .. => some (if a then .lt else .gt)
  | .finite .., .infinity b => some (if b then .gt else .lt)
  | .finite a x, .finite b y =>
    let unit := min x.exponent y.exponent
    some (compare (signedUnits a x unit) (signedUnits b y unit))

/-- Whether `x` is at most `y`. -/
def le (x y : Binary64) : Bool := compare? x y = some .lt || compare? x y = some .eq

/-- Whether `x` is less than `y`. -/
def lt (x y : Binary64) : Bool := compare? x y = some .lt

/-- Whether the magnitude of the number is zero. -/
def isZero : Binary64 → Bool
  | .finite _ x => x.mantissa = 0
  | _ => false

/-- Whether the number has a minus sign. -/
def isNegative : Binary64 → Bool
  | .nan => false
  | .infinity negative | .finite negative _ => negative

/-- The product, rounded. -/
def mul : Binary64 → Binary64 → Binary64
  | .nan, _ | _, .nan => .nan
  | .finite a x, .finite b y => ofMagnitude (a != b) (x.mul y)
  | x, y => if x.isZero || y.isZero then .nan else .infinity (x.isNegative != y.isNegative)

end Binary64

end LogShipper
