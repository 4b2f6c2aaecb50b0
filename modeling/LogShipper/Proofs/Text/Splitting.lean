import LogShipper.Proofs.Text.Trimming

/-!
# Texts that are cut

A text may be cut once, at the first character of a kind (`Text.cutAt?_append`), or at each.  No
piece holds what the text was cut at (`Text.eq_false_of_mem_splitOnP`).  The pieces between blanks
that are not empty are the words of a text (`Text.words`).  They have all its characters that are
not blank, in their order (`Text.flatten_words`).
-/

namespace LogShipper.Text

variable {p : Char → Bool} {c : Char} {s t : Text}

/-! ## One cut -/

theorem ne_of_not_mem (h : c ∉ t) : ∀ d ∈ t, decide (d = c) = false :=
  fun _ hd => decide_eq_false fun heq => h (heq ▸ hd)

theorem cutAt?_append (h : ∀ d ∈ s, p d = false) (hc : p c = true) (t : Text) :
    cutAt? p (s ++ c :: t) = some (s, t) := by
  induction s with
  | nil => exact if_pos hc
  | cons d s ih =>
    obtain ⟨hd, hs⟩ := List.forall_mem_cons.1 h
    rw [List.cons_append, cutAt?, hd, ih hs]
    rfl

/-- A text is cut at the first of the marks in it. -/
theorem cutAt?_mark (h : c ∉ s) (t : Text) : cutAt? (· = c) (s ++ c :: t) = some (s, t) :=
  cutAt?_append (ne_of_not_mem h) (decide_eq_true rfl) t

theorem cutAt?_of_not_mem (h : c ∉ t) : cutAt? (· = c) t = none :=
  cutAt?_eq_none_iff.2 (ne_of_not_mem h)

theorem not_mem_of_cutAt?_eq_none (h : cutAt? (· = c) t = none) : c ∉ t := by
  intro hmem
  have hc := cutAt?_eq_none_iff.1 h c hmem
  rw [decide_eq_true rfl] at hc
  cases hc

/-- The halves of a cut are the text, and the mark does not stand in the first. -/
theorem eq_of_cutAt?_mark {after : Text} (h : cutAt? (· = c) t = some (s, after)) :
    t = s ++ c :: after ∧ c ∉ s := by
  obtain ⟨d, hd, rfl, hs⟩ := eq_of_cutAt? h
  obtain rfl : d = c := of_decide_eq_true hd
  exact ⟨rfl, fun hmem => by simpa using List.all_eq_true.1 hs d hmem⟩

/-! ## Pieces -/

/-- A separator ends an empty piece, and any other character belongs to the first piece. -/
theorem exists_splitOnP_cons (p : Char → Bool) (c : Char) (t : Text) : ∃ first rest,
    t.splitOnP p = first :: rest ∧
      (c :: t).splitOnP p = if p c then [] :: first :: rest else (c :: first) :: rest := by
  obtain ⟨first, rest, hpieces⟩ := List.exists_cons_of_ne_nil (List.splitOnP_ne_nil p t)
  refine ⟨first, rest, hpieces, ?_⟩
  rw [List.splitOnP_cons_eq_if_modifyHead, hpieces]
  rfl

/-- What stands between separators is no separator. -/
theorem eq_false_of_mem_splitOnP {piece : Text} (h : piece ∈ t.splitOnP p) :
    ∀ c ∈ piece, p c = false := by
  induction t generalizing piece with
  | nil =>
    rw [List.splitOnP_nil, List.mem_singleton] at h
    subst h
    exact List.forall_mem_nil _
  | cons d t ih =>
    obtain ⟨first, rest, hpieces, hcons⟩ := exists_splitOnP_cons p d t
    rw [hcons] at h
    rw [hpieces] at ih
    split at h
    · rcases List.mem_cons.1 h with rfl | h
      · exact List.forall_mem_nil _
      · exact ih h
    · rename_i hd
      rcases List.mem_cons.1 h with rfl | h
      · exact List.forall_mem_cons.2 ⟨Bool.eq_false_iff.2 hd, ih List.mem_cons_self⟩
      · exact ih (List.mem_cons_of_mem _ h)

/-- What stands between two separators does not hold the separator. -/
theorem not_mem_of_mem_splitOn {piece : Text} (h : piece ∈ t.splitOn c) : c ∉ piece := by
  rw [List.splitOn_eq_splitOnP] at h
  intro hmem
  have hc := eq_false_of_mem_splitOnP h c hmem
  rw [beq_self_eq_true] at hc
  cases hc

/-! ## Words -/

/-- The words of a text: the longest runs of characters that are not blank. -/
def words (t : Text) : List Text := (t.splitOnP isBlank).filter fun word => !word.isEmpty

theorem ne_nil_of_mem_words {word : Text} (h : word ∈ t.words) : word ≠ [] := by
  have hkept := (List.mem_filter.1 h).2
  simpa using hkept

/-- A blank parts words. -/
theorem words_append_cons (hc : isBlank c = true) (s t : Text) :
    words (s ++ c :: t) = s.words ++ t.words := by
  unfold words
  rw [List.splitOnP_append_cons s t hc, List.filter_append]

/-! Blanks at the ends make no difference. -/

theorem words_append_of_isAllBlank (s : Text) (h : t.isAllBlank = true) :
    words (s ++ t) = s.words := by
  induction t generalizing s with
  | nil => rw [List.append_nil]
  | cons c t ih =>
    obtain ⟨hc, ht⟩ := isAllBlank_cons_iff.1 h
    have hnone : words t = [] := ih [] ht
    rw [words_append_cons hc, hnone, List.append_nil]

theorem words_of_isAllBlank_append (h : s.isAllBlank = true) (t : Text) :
    words (s ++ t) = t.words := by
  induction s with
  | nil => rfl
  | cons c s ih =>
    obtain ⟨hc, hs⟩ := isAllBlank_cons_iff.1 h
    exact (words_append_cons hc [] (s ++ t)).trans (ih hs)

/-- Together the pieces are the text without the separators. -/
theorem flatten_splitOnP (p : Char → Bool) (t : Text) :
    (t.splitOnP p).flatten = t.filter fun c => !p c := by
  induction t with
  | nil => rfl
  | cons c t ih =>
    obtain ⟨first, rest, hpieces, hcons⟩ := exists_splitOnP_cons p c t
    rw [hpieces] at ih
    rw [hcons, List.filter_cons, ← ih]
    cases p c <;> rfl

/-- Together the words are the text without its blanks. -/
theorem flatten_words (t : Text) : t.words.flatten = t.filter fun c => !isBlank c := by
  unfold words
  rw [List.flatten_filter_not_isEmpty, flatten_splitOnP]

end LogShipper.Text
