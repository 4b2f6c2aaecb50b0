import LogShipper.Proofs.Text.Splitting
import LogShipper.Wire.Name

/-!
# Names and words

Put simply, the name made of a text is the words of the text without its quotes, with an underscore
between each two (`plainName`).  Names are made in one pass over the trimmed text, which drops the
quotes as it meets them.  So a quote in front keeps the blanks behind it from being trimmed, and an
underscore is written for them (`HidesBlank`).  In all other cases the name is the simple one, and
wherever it is not, this underscore is all that it has too much
(`sanitizeName_eq_plainName_iff`).
-/

namespace LogShipper.Wire

/-! ## What a name is made of -/

/-- Whether a text holds a character that its name keeps. -/
def HasName (t : Text) : Prop := ∃ c ∈ t, isBlank c = false ∧ c ≠ '"'

instance (t : Text) : Decidable (HasName t) :=
  List.decidableBEx (fun c => isBlank c = false ∧ c ≠ '"') t

/-- The characters of a text that its name keeps. -/
def keptChars (t : Text) : Text := t.filter fun c => !isBlank c && c ≠ '"'

/-- A text without its quotes. -/
def unquoted (t : Text) : Text := t.filter fun c => c ≠ '"'

/-- The words of a text without its quotes, with an underscore between each two. -/
def plainName (t : Text) : Text := List.intercalate ['_'] (unquoted t).words

/-- Whether quotes in front of a text hide a blank behind them from being trimmed, and a character
that the name keeps comes later. -/
def HidesBlank (t : Text) : Prop := HasName t ∧ (unquoted t.trim).head?.any isBlank = true

instance (t : Text) : Decidable (HidesBlank t) := inferInstanceAs (Decidable (_ ∧ _))

variable {c : Char} {t : Text}

/-! ## Joined words -/

/-- Underscores before all words, and between them. -/
theorem flatMap_underscore {words : List Text} (h : words ≠ []) :
    words.flatMap (fun word => '_' :: word) = '_' :: List.intercalate ['_'] words := by
  induction words with
  | nil => exact absurd rfl h
  | cons word rest ih =>
    rw [List.flatMap_cons]
    cases rest with
    | nil => simp
    | cons next rest =>
      rw [ih (List.cons_ne_nil _ _), List.intercalate_cons_cons]
      simp

/-- Joined words start as the first of them. -/
theorem head?_intercalate {words : List Text} (h : ∀ word ∈ words, word ≠ []) :
    (List.intercalate ['_'] words).head? = words.flatten.head? := by
  cases words with
  | nil => rfl
  | cons word rest =>
    obtain ⟨c, word, rfl⟩ := List.exists_cons_of_ne_nil (h word List.mem_cons_self)
    cases rest with
    | nil => simp
    | cons next rest =>
      rw [List.intercalate_cons_cons]
      rfl

/-- Joined words end as the last of them. -/
theorem getLast?_intercalate {words : List Text} (h : ∀ word ∈ words, word ≠ []) :
    (List.intercalate ['_'] words).getLast? = words.flatten.getLast? := by
  induction words with
  | nil => rfl
  | cons word rest ih =>
    obtain ⟨-, hrest⟩ := List.forall_mem_cons.1 h
    cases rest with
    | nil => simp
    | cons next rest =>
      have hne : (next :: rest).flatten ≠ [] := by
        simp [hrest next List.mem_cons_self]
      have hjoined : List.intercalate ['_'] (next :: rest) ≠ [] := by
        intro hnil
        have hlast := ih hrest
        rw [hnil, eq_comm, List.getLast?_nil, List.getLast?_eq_none_iff] at hlast
        exact hne hlast
      have hall : (word :: next :: rest).flatten = word ++ (next :: rest).flatten := rfl
      rw [List.intercalate_cons_cons, hall, List.getLast?_append_of_ne_nil _ hjoined, ih hrest,
        List.getLast?_append_of_ne_nil _ hne]

/-! ## One pass over a text -/

/-- Quotes make no difference to the pass. -/
theorem nameFrom_unquoted (pending : Bool) (t : Text) :
    nameFrom pending (unquoted t) = nameFrom pending t := by
  unfold unquoted
  induction t generalizing pending with
  | nil => rfl
  | cons c t ih =>
    by_cases hc : c = '"'
    · subst hc
      rw [List.filter_cons_of_neg (by decide), ih, nameFrom, if_neg (by decide), if_pos rfl]
    · rw [List.filter_cons_of_pos (by simpa using hc), nameFrom, nameFrom, ih, ih, ih]

theorem quote_not_mem_unquoted (t : Text) : '"' ∉ unquoted t := by
  simp [unquoted]

/-- What the pass writes for the pieces between the blanks of a text.  Of the first piece only the
underscore before it depends on the blanks that came earlier. -/
theorem nameFrom_eq (hquote : '"' ∉ t) {first : Text} {rest : List Text}
    (hpieces : t.splitOnP isBlank = first :: rest) (pending : Bool) :
    nameFrom pending t = (if pending && !first.isEmpty then ['_'] else []) ++ first ++
      (rest.filter fun word => !word.isEmpty).flatMap fun word => '_' :: word := by
  induction t generalizing first rest pending with
  | nil =>
    rw [List.splitOnP_nil] at hpieces
    cases hpieces
    simp
  | cons c t ih =>
    obtain ⟨hc, ht⟩ := not_or.1 (mt List.mem_cons.2 hquote)
    obtain ⟨first', rest', hpieces', hcons⟩ := Text.exists_splitOnP_cons isBlank c t
    rw [hcons] at hpieces
    rw [nameFrom]
    by_cases hblank : isBlank c = true
    · rw [if_pos hblank] at hpieces
      cases hpieces
      rw [if_pos hblank, ih ht hpieces']
      cases first' <;> simp
    · rw [if_neg hblank] at hpieces
      cases hpieces
      rw [if_neg hblank, if_neg (Ne.symm hc), ih ht hpieces']
      cases pending <;> simp

/-- After a blank, the pass writes an underscore before every word. -/
theorem nameFrom_true (hquote : '"' ∉ t) :
    nameFrom true t = t.words.flatMap fun word => '_' :: word := by
  obtain ⟨first, rest, hpieces⟩ := List.exists_cons_of_ne_nil (List.splitOnP_ne_nil isBlank t)
  rw [nameFrom_eq hquote hpieces]
  unfold Text.words
  rw [hpieces]
  cases first <;> simp

/-- From a character that is kept, the pass writes underscores between the words. -/
theorem nameFrom_false_cons (hquote : '"' ∉ c :: t) (hc : isBlank c = false) :
    nameFrom false (c :: t) = List.intercalate ['_'] (Text.words (c :: t)) := by
  have hne : c ≠ '"' := fun heq => hquote (heq ▸ List.mem_cons_self)
  have hwords : Text.words (c :: t) ≠ [] := by
    intro hnil
    have hflatten := Text.flatten_words (c :: t)
    rw [hnil, List.filter_cons_of_pos (by simp [hc])] at hflatten
    cases hflatten
  have htrue := nameFrom_true hquote
  rw [flatMap_underscore hwords, nameFrom, hc, if_neg Bool.false_ne_true, if_neg hne,
    if_pos rfl] at htrue
  rw [nameFrom, hc, if_neg Bool.false_ne_true, if_neg hne, if_neg Bool.false_ne_true]
  exact (List.cons.inj htrue).2

/-- From a blank, the pass writes an underscore before every word. -/
theorem nameFrom_false_cons_of_isBlank (hquote : '"' ∉ c :: t) (hc : isBlank c = true) :
    nameFrom false (c :: t) = (Text.words (c :: t)).flatMap fun word => '_' :: word := by
  have hwords : Text.words (c :: t) = t.words := Text.words_append_cons hc [] t
  have hrest : '"' ∉ t := fun hmem => hquote (List.mem_cons_of_mem c hmem)
  rw [nameFrom, if_pos hc, nameFrom_true hrest, hwords]

/-! ## The words of a text without its quotes -/

theorem words_unquoted_trim (t : Text) : (unquoted t.trim).words = (unquoted t).words := by
  obtain ⟨before, after, hbefore, hafter, ht⟩ := Text.exists_eq_trim t
  have hblank {blanks : Text} (h : blanks.isAllBlank = true) :
      (unquoted blanks).isAllBlank = true :=
    List.all_eq_true.2 fun c hc => List.all_eq_true.1 h c (List.mem_filter.1 hc).1
  have hsplit : unquoted t = unquoted before ++ unquoted t.trim ++ unquoted after := by
    unfold unquoted
    rw [← List.filter_append, ← List.filter_append, ← ht]
  rw [hsplit, Text.words_append_of_isAllBlank _ (hblank hafter),
    Text.words_of_isAllBlank_append (hblank hbefore)]

/-- Together the words are the characters that are kept. -/
theorem flatten_words_unquoted (t : Text) : (unquoted t).words.flatten = keptChars t := by
  rw [Text.flatten_words]
  unfold unquoted keptChars
  rw [List.filter_filter]

theorem keptChars_ne_nil_iff : keptChars t ≠ [] ↔ HasName t := by
  unfold keptChars HasName
  simp

theorem words_unquoted_of_not_hasName (h : ¬HasName t) : (unquoted t).words = [] := by
  have hflatten := flatten_words_unquoted t
  rw [not_not.1 (mt keptChars_ne_nil_iff.1 h), List.flatten_eq_nil_iff] at hflatten
  exact List.eq_nil_iff_forall_not_mem.2 fun word hword =>
    Text.ne_nil_of_mem_words hword (hflatten word hword)

theorem head?_plainName (t : Text) : (plainName t).head? = (keptChars t).head? := by
  unfold plainName
  rw [head?_intercalate fun _ => Text.ne_nil_of_mem_words, flatten_words_unquoted]

theorem getLast?_plainName (t : Text) : (plainName t).getLast? = (keptChars t).getLast? := by
  unfold plainName
  rw [getLast?_intercalate fun _ => Text.ne_nil_of_mem_words, flatten_words_unquoted]

theorem plainName_ne_nil_iff : plainName t ≠ [] ↔ HasName t := by
  rw [← keptChars_ne_nil_iff, ne_eq, ne_eq, ← List.head?_eq_none_iff, head?_plainName,
    List.head?_eq_none_iff]

/-! ## Names by words -/

theorem sanitizeName_eq_nameFrom (t : Text) :
    sanitizeName t = nameFrom false (unquoted t.trim) :=
  (nameFrom_unquoted false t.trim).symm

theorem plainName_eq_intercalate (t : Text) :
    plainName t = List.intercalate ['_'] (unquoted t.trim).words := by
  rw [words_unquoted_trim]
  rfl

/-- Where no blank is hidden, the name is the simple one. -/
theorem sanitizeName_of_not_hidesBlank (h : ¬HidesBlank t) : sanitizeName t = plainName t := by
  have hquote := quote_not_mem_unquoted t.trim
  have hwords := words_unquoted_trim t
  rw [sanitizeName_eq_nameFrom, plainName_eq_intercalate]
  cases hstart : unquoted t.trim with
  | nil => rfl
  | cons c rest =>
    rw [hstart] at hquote hwords
    cases hc : isBlank c with
    | false => exact nameFrom_false_cons hquote hc
    | true =>
      have hname : ¬HasName t := fun hname => h ⟨hname, by rw [hstart]; exact hc⟩
      rw [nameFrom_false_cons_of_isBlank hquote hc, hwords, words_unquoted_of_not_hasName hname]
      rfl

/-- Where a blank is hidden, an underscore comes first. -/
theorem sanitizeName_of_hidesBlank (h : HidesBlank t) : sanitizeName t = '_' :: plainName t := by
  obtain ⟨hname, hblank⟩ := h
  have hquote := quote_not_mem_unquoted t.trim
  have hwords : (unquoted t.trim).words ≠ [] := by
    intro hnil
    refine plainName_ne_nil_iff.2 hname ?_
    rw [plainName_eq_intercalate, hnil]
    rfl
  rw [sanitizeName_eq_nameFrom, plainName_eq_intercalate]
  cases hstart : unquoted t.trim with
  | nil =>
    rw [hstart] at hblank
    cases hblank
  | cons c rest =>
    rw [hstart] at hquote hblank hwords
    rw [nameFrom_false_cons_of_isBlank hquote hblank, flatMap_underscore hwords]

/-- A text has a name exactly when it holds a character that is neither blank nor a quote. -/
theorem sanitizeName_ne_nil_iff {t : Text} : sanitizeName t ≠ [] ↔ HasName t := by
  by_cases h : HidesBlank t
  · rw [sanitizeName_of_hidesBlank h]
    exact iff_of_true (List.cons_ne_nil _ _) h.1
  · rw [sanitizeName_of_not_hidesBlank h, plainName_ne_nil_iff]

/-! ## When the name is the simple one -/

/-- **Names are words joined by underscores, but for hidden blanks.**  The name made of a text is
the simple one exactly when no blank is hidden, and otherwise it has an underscore more in front.
So it depends on the text without its quotes alone, and starts with the first character that is
kept, wherever no blank is hidden.  It always ends with the last character that is kept, and has
neither blanks nor quotes. -/
theorem sanitizeName_eq_plainName_iff (t : Text) :
    (sanitizeName t = plainName t ↔ ¬HidesBlank t) ∧
      (HidesBlank t → sanitizeName t = '_' :: plainName t) ∧
      (∀ s, unquoted s = unquoted t → ¬HidesBlank s → ¬HidesBlank t →
        sanitizeName s = sanitizeName t) ∧
      (¬HidesBlank t → (sanitizeName t).head? = (keptChars t).head?) ∧
      (sanitizeName t).getLast? = (keptChars t).getLast? ∧
      ∀ c ∈ sanitizeName t, isBlank c = false ∧ c ≠ '"' := by
  refine ⟨⟨?_, sanitizeName_of_not_hidesBlank⟩, sanitizeName_of_hidesBlank, ?_, ?_, ?_, ?_⟩
  · intro heq h
    rw [sanitizeName_of_hidesBlank h] at heq
    exact List.cons_ne_self _ _ heq
  · intro s hs hhides hhides'
    have hplain : plainName s = plainName t := by
      unfold plainName
      rw [hs]
    rw [sanitizeName_of_not_hidesBlank hhides, sanitizeName_of_not_hidesBlank hhides', hplain]
  · intro h
    rw [sanitizeName_of_not_hidesBlank h, head?_plainName]
  · rw [← getLast?_plainName]
    by_cases h : HidesBlank t
    · rw [sanitizeName_of_hidesBlank h, List.getLast?_cons_of_ne_nil (plainName_ne_nil_iff.2 h.1)]
    · rw [sanitizeName_of_not_hidesBlank h]
  · intro c hc
    exact ⟨isBlank_of_mem_sanitizeName hc, ne_quote_of_mem_sanitizeName hc⟩

/-- Quotes inside a text, at its ends and next to blanks do no harm. -/
theorem sanitizeName_eq_plainName_of_quotes :
    let t : Text := "\"we\"ird  \" na\"me \""
    ¬HidesBlank t ∧ sanitizeName t = "weird_name" ∧ (sanitizeName t).head? = some 'w' ∧
      sanitizeName t = sanitizeName "weird   name " := by
  intro t
  have hshown : ¬HidesBlank t := by decide +kernel
  have hplain : ¬HidesBlank "weird   name " := by decide +kernel
  obtain ⟨hiff, -, hquotes, hhead, -⟩ := sanitizeName_eq_plainName_iff t
  refine ⟨hshown, ?_, hhead hshown, (hquotes _ (by decide +kernel) hplain hshown).symm⟩
  rw [hiff.2 hshown]
  decide +kernel

/-- A blank behind the quote that a text starts with is not trimmed, and an underscore is written
for it, though none is written for a blank before the quote at the end.  So it makes a difference
where the quote stands. -/
theorem underscore_before_name :
    sanitizeName "\" a" = "_a" ∧ plainName "\" a" = "a" ∧ sanitizeName "a \"" = "a" ∧
      unquoted "\" a" = unquoted " \"a" ∧ sanitizeName " \"a" = "a" := by
  decide +kernel

end LogShipper.Wire
