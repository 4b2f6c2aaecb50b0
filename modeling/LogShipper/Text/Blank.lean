/-!
# Blank characters

The characters that count as white space: the Unicode property `White_Space`. The zero-width
characters U+200B and U+FEFF and the information separators U+001C to U+001F do not have it. Two of
them break a line: the line feed and the carriage return.
-/

namespace LogShipper

/-- The ranges of code points with the property `White_Space`, both ends included. -/
def blankRanges : List (Nat × Nat) :=
  [(0x0009, 0x000D), (0x0020, 0x0020), (0x0085, 0x0085), (0x00A0, 0x00A0), (0x1680, 0x1680),
   (0x2000, 0x200A), (0x2028, 0x2029), (0x202F, 0x202F), (0x205F, 0x205F), (0x3000, 0x3000)]

/-- Whether a character is white space. -/
def isBlank (c : Char) : Bool :=
  blankRanges.any fun r => r.1 ≤ c.toNat && c.toNat ≤ r.2

theorem isBlank_eq_true_iff {c : Char} :
    isBlank c = true ↔ ∃ r ∈ blankRanges, r.1 ≤ c.toNat ∧ c.toNat ≤ r.2 := by
  simp [isBlank]

theorem isBlank_space : isBlank ' ' = true := by decide

/-- Whether a character ends a line: a line feed or a carriage return. -/
def isLineBreak (c : Char) : Bool := c = '\n' || c = '\r'

theorem isLineBreak_eq_false {c : Char} (hfeed : c ≠ '\n') (hreturn : c ≠ '\r') :
    isLineBreak c = false := by
  simp [isLineBreak, hfeed, hreturn]

theorem isBlank_of_isLineBreak {c : Char} (h : isLineBreak c = true) : isBlank c = true := by
  obtain rfl | rfl : c = '\n' ∨ c = '\r' := by simpa [isLineBreak] using h
  · decide
  · decide

end LogShipper
