import LogShipper.Text.Basic
import LogShipper.Text.Extender
import LogShipper.Text.Graphic

/-!
# Text in diagnostics

A diagnostic shows a text between double quotes. A quote and a backslash inside it follow a
backslash, the common controls have a letter, and every other character that has no shape of its
own is given by its code point.
-/

namespace LogShipper.Literal

/-- Whether a character has a shape of its own. -/
def isShown (c : Char) : Bool := Graphic.isGraphic c && !Extender.isExtender c

/-- A character as it stands between the quotes. -/
def escapeChar (c : Char) : Text :=
  if c = '\x00' then "\\0"
  else if c = '\t' then "\\t"
  else if c = '\r' then "\\r"
  else if c = '\n' then "\\n"
  else if c = '"' then "\\\""
  else if c = '\\' then "\\\\"
  else if isShown c then [c]
  else "\\u\x7b" ++ Nat.toDigits 16 c.toNat ++ "\x7d"

/-- A text between quotes. -/
def quote (t : Text) : Text := '"' :: t.flatMap escapeChar ++ ['"']

end LogShipper.Literal
