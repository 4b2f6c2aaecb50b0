import LogShipper.Text.Basic

/-!
# Values

The value of a tag or of a message stands bare on its line unless a character in it would split
the token; then it stands between double quotes, with each quote inside written twice. A value
of several lines is folded onto one: each line break becomes a backslash and an `n`.
-/

namespace LogShipper.Wire

/-- Whether a value has to stand between quotes. -/
def needsQuotes (value : Text) : Bool :=
  value.isEmpty || value.any fun c => c = ' ' || c = '=' || c = '\t' || c = '"'

/-- A text with each double quote written twice. -/
def doubleQuotes (t : Text) : Text := t.flatMap fun c => if c = '"' then ['"', '"'] else [c]

/-- A value as it stands on a line. -/
def escapeValue (value : Text) : Text :=
  if needsQuotes value then '"' :: doubleQuotes value ++ ['"'] else value

/-- The mark that stands for a line break. -/
def foldMark : Text := "\\n"

/-- A text of several lines on one line: first the pairs of carriage return and line feed, then
the other line feeds, then the other carriage returns become marks. A text without line breaks is
on one line already. -/
def foldNewlines (t : Text) : Text :=
  if t.any isLineBreak then
    Text.replaceChar '\r' foldMark
      (Text.replaceChar '\n' foldMark (Text.replacePair '\r' '\n' foldMark t))
  else t

theorem escapeValue_of_not_needsQuotes {value : Text} (h : needsQuotes value = false) :
    escapeValue value = value := by simp [escapeValue, h]

theorem escapeValue_of_needsQuotes {value : Text} (h : needsQuotes value = true) :
    escapeValue value = '"' :: doubleQuotes value ++ ['"'] := by simp [escapeValue, h]

end LogShipper.Wire
