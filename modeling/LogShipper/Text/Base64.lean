import LogShipper.Text.Basic

/-!
# Base 64

Octets as characters of an alphabet of 64. Three octets become four characters; a last group of one
or two octets is filled up with equals signs, so that the number of characters is always a multiple
of four (`length_encode`).
-/

namespace LogShipper.Base64

/-- The characters for the numbers below 64, in their order. -/
def alphabet : Text := "ABCDEFGHIJKLMNOPQRSTUVWXYZabcdefghijklmnopqrstuvwxyz0123456789+/"

/-- The character that fills up a last group. -/
def filler : Char := '='

/-- The character for a number below 64. -/
def digit (n : Nat) : Char := alphabet.getD n filler

/-- Three octets as four characters. -/
def group (a b c : UInt8) : Text :=
  let n := a.toNat * 0x10000 + b.toNat * 0x100 + c.toNat
  [digit (n / 0x40000), digit (n / 0x1000 % 64), digit (n / 0x40 % 64), digit (n % 64)]

/-- The text of some octets. -/
def encode : List UInt8 → Text
  | [] => []
  | [a] => (group a 0 0).take 2 ++ [filler, filler]
  | [a, b] => (group a b 0).take 3 ++ [filler]
  | a :: b :: c :: rest => group a b c ++ encode rest

@[simp] theorem encode_nil : encode [] = [] := rfl

@[simp] theorem length_group (a b c : UInt8) : (group a b c).length = 4 := rfl

/-- Each group of three octets, the last of which may be incomplete, has four characters. -/
theorem length_encode (octets : List UInt8) :
    (encode octets).length = 4 * ((octets.length + 2) / 3) := by
  fun_induction encode octets with
  | case1 => rfl
  | case2 a => simp [group]
  | case3 a b => simp [group]
  | case4 a b c rest ih =>
    simp only [List.length_append, length_group, ih, List.length_cons]
    omega

end LogShipper.Base64
