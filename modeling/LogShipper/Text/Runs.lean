/-!
# Runs of characters

A set of characters as the lengths of the runs of code points that lie outside and inside of it in
turn, from U+0000 on. What lies beyond the last run is outside.
-/

namespace LogShipper.Runs

/-- Whether the code point `n` places after the start of the runs is in the set, where `inside`
says whether the first run is. -/
def holdsFrom (inside : Bool) (n : Nat) : List Nat → Bool
  | [] => false
  | run :: rest => if n < run then inside else holdsFrom (!inside) (n - run) rest

/-- Whether a character is in the set. -/
def holds (runs : List Nat) (c : Char) : Bool := holdsFrom false c.toNat runs

end LogShipper.Runs
