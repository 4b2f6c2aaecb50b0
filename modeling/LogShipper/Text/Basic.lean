import LogShipper.Text.Blank

/-!
# Text

Text is a list of characters, so that every rule about names, values and lines is a rule about
lists. String literals stand for their characters.

The operations here are the ones that the settings, the wire format and the reader of log lines
share: trimming blanks, cutting at the first character of a kind, replacing a pattern, and
comparing without regard to ASCII case.
-/

namespace LogShipper

/-- A sequence of Unicode characters. -/
abbrev Text := List Char

instance : Coe String Text := ⟨String.toList⟩

namespace Text

/-! ## Trimming -/

/-- The text without its leading blanks. -/
def trimStart (t : Text) : Text := t.dropWhile isBlank

/-- The text without its trailing blanks. -/
def trimEnd (t : Text) : Text := (t.reverse.dropWhile isBlank).reverse

/-- The text without leading and trailing blanks. -/
def trim (t : Text) : Text := trimEnd (trimStart t)

/-- Whether the text has no character that is not blank. -/
def isAllBlank (t : Text) : Bool := t.all isBlank

@[simp] theorem trimStart_nil : trimStart [] = [] := rfl
@[simp] theorem trimEnd_nil : trimEnd [] = [] := rfl
@[simp] theorem trim_nil : trim [] = [] := rfl

/-! ## Cutting -/

/-- Cuts at the first character of the kind `p`, which belongs to neither half. -/
def cutAt? (p : Char → Bool) : Text → Option (Text × Text)
  | [] => none
  | c :: t => if p c then some ([], t) else (cutAt? p t).map fun halves => (c :: halves.1, halves.2)

/-- The two halves of a cut, joined by a character of the kind, are the text. -/
theorem eq_of_cutAt? {p : Char → Bool} {t before after : Text}
    (h : cutAt? p t = some (before, after)) :
    ∃ c, p c = true ∧ t = before ++ c :: after ∧ before.all (fun c => !p c) = true := by
  induction t generalizing before with
  | nil => simp [cutAt?] at h
  | cons c t ih =>
    by_cases hc : p c = true
    · simp only [cutAt?, hc, if_true, Option.some.injEq, Prod.mk.injEq] at h
      exact ⟨c, hc, by simp [← h.1, h.2], by simp [← h.1]⟩
    · simp only [cutAt?, hc, Bool.false_eq_true, if_false, Option.map_eq_some_iff, Prod.mk.injEq,
        Prod.exists] at h
      obtain ⟨b, a, hba, rfl, rfl⟩ := h
      obtain ⟨d, hd, rfl, hall⟩ := ih hba
      exact ⟨d, hd, rfl, by simpa [hc] using hall⟩

/-- There is no cut exactly when no character is of the kind. -/
theorem cutAt?_eq_none_iff {p : Char → Bool} {t : Text} :
    cutAt? p t = none ↔ ∀ c ∈ t, p c = false := by
  induction t with
  | nil => simp [cutAt?]
  | cons c t ih => by_cases hc : p c = true <;> simp [cutAt?, hc, ih]

/-- The text before and after the first occurrence of `mark`. -/
def cutAtText? (mark : Text) : Text → Option (Text × Text)
  | [] => if mark.isEmpty then some ([], []) else none
  | c :: t =>
    if mark.isPrefixOf (c :: t) then some ([], (c :: t).drop mark.length)
    else (cutAtText? mark t).map fun halves => (c :: halves.1, halves.2)

/-- The text with every occurrence of a character replaced. -/
def replaceChar (old : Char) (new : Text) (t : Text) : Text :=
  t.flatMap fun c => if c = old then new else [c]

/-- The text with every occurrence of two adjacent characters replaced, scanning from the left. -/
def replacePair (first second : Char) (new : Text) : Text → Text
  | [] => []
  | [c] => [c]
  | c :: d :: t =>
    if c = first ∧ d = second then new ++ replacePair first second new t
    else c :: replacePair first second new (d :: t)

@[simp] theorem replaceChar_nil (old : Char) (new : Text) : replaceChar old new [] = [] := rfl

theorem replaceChar_append (old : Char) (new s t : Text) :
    replaceChar old new (s ++ t) = replaceChar old new s ++ replaceChar old new t := by
  simp [replaceChar]

/-! ## Lines -/

/-- The lines joined by line feeds. -/
def joinLines (lines : List Text) : Text := List.intercalate ['\n'] lines

/-- The lines of a text; a final line feed starts no further line. -/
def lines (t : Text) : List Text :=
  match (t.splitOn '\n').reverse with
  | [] :: rest => rest.reverse
  | all => all.reverse

/-! ## ASCII case -/

/-- ASCII letters in lower case, all else unchanged. -/
def lower (t : Text) : Text := t.map Char.toLower

/-- ASCII letters in upper case, all else unchanged. -/
def upper (t : Text) : Text := t.map Char.toUpper

/-- Whether two texts differ at most in the case of ASCII letters. -/
def sameIgnoringCase (s t : Text) : Bool := lower s == lower t

@[simp] theorem sameIgnoringCase_self (t : Text) : sameIgnoringCase t t = true := by
  simp [sameIgnoringCase]

theorem sameIgnoringCase_comm (s t : Text) : sameIgnoringCase s t = sameIgnoringCase t s :=
  BEq.comm

theorem sameIgnoringCase_iff {s t : Text} : sameIgnoringCase s t = true ↔ lower s = lower t := by
  simp [sameIgnoringCase]

end Text

end LogShipper
