import LogShipper.Text.Basic

/-!
# Names

Entities, tag keys and metric names are bare tokens of a line: they hold neither blanks nor double
quotes. Any text is made a name by trimming it, dropping its quotes, and writing an underscore
for each row of blanks that stands before a further character.
-/

namespace LogShipper.Wire

/-- Writes the characters of a name, where `pending` says whether blanks were passed since the
last one. -/
def nameFrom (pending : Bool) : Text → Text
  | [] => []
  | c :: t =>
    if isBlank c then nameFrom true t
    else if c = '"' then nameFrom pending t
    else if pending then '_' :: c :: nameFrom false t
    else c :: nameFrom false t

/-- The name made of a text. -/
def sanitizeName (t : Text) : Text := nameFrom false t.trim

@[simp] theorem nameFrom_nil (pending : Bool) : nameFrom pending [] = [] := rfl

theorem mem_nameFrom {pending : Bool} {t : Text} {c : Char} (h : c ∈ nameFrom pending t) :
    c = '_' ∨ (c ∈ t ∧ isBlank c = false ∧ c ≠ '"') := by
  induction t generalizing pending with
  | nil => simp at h
  | cons d t ih =>
    simp only [nameFrom] at h
    split at h
    · exact (ih h).imp_right fun ⟨hm, hb⟩ => ⟨List.mem_cons_of_mem _ hm, hb⟩
    rename_i hd
    split at h
    · exact (ih h).imp_right fun ⟨hm, hb⟩ => ⟨List.mem_cons_of_mem _ hm, hb⟩
    rename_i hq
    split at h
    · rcases List.mem_cons.1 h with rfl | h
      · exact Or.inl rfl
      rcases List.mem_cons.1 h with rfl | h
      · exact Or.inr ⟨by simp, by simpa using hd, hq⟩
      · exact (ih h).imp_right fun ⟨hm, hb⟩ => ⟨List.mem_cons_of_mem _ hm, hb⟩
    · rcases List.mem_cons.1 h with rfl | h
      · exact Or.inr ⟨by simp, by simpa using hd, hq⟩
      · exact (ih h).imp_right fun ⟨hm, hb⟩ => ⟨List.mem_cons_of_mem _ hm, hb⟩

theorem isBlank_of_mem_sanitizeName {t : Text} {c : Char} (h : c ∈ sanitizeName t) :
    isBlank c = false := by
  rcases mem_nameFrom h with rfl | ⟨-, hb, -⟩
  · decide
  · exact hb

theorem ne_quote_of_mem_sanitizeName {t : Text} {c : Char} (h : c ∈ sanitizeName t) : c ≠ '"' := by
  rcases mem_nameFrom h with rfl | ⟨-, -, hq⟩
  · decide
  · exact hq

end LogShipper.Wire
