import LogShipper.Proofs.Wire.Framing

/-!
# Folding in one pass

A text with line breaks is folded in three passes, of which each reads what those before it wrote.
A cut that does not part a pair of carriage return and line feed makes no difference to any of them
(`foldNewlines_append`), and what a pass writes for a line break is kept by the later ones.  So
together they come to one pass from the left, in which such a pair is one break (`foldBreaks`).

Between the two characters of a pair a text must not be cut before it is folded, since their one
break would become two (`foldNewlines_append_iff`).
-/

namespace LogShipper

/-! ## Replacing -/

namespace Text

variable {first second c : Char} {s t : Text}

theorem replaceChar_of_not_mem (h : c ∉ t) (new : Text) : replaceChar c new t = t := by
  have hkept : ∀ d ∈ t, (if d = c then new else [d]) = [d] :=
    fun d hd => if_neg (ne_of_mem_of_not_mem hd h)
  exact (List.flatMap_congr hkept).trans (List.flatMap_singleton' t)

/-- The pairs in a text are those in its two parts, unless the cut parts one. -/
theorem replacePair_append (h : ¬(s.getLast? = some first ∧ t.head? = some second)) (new : Text) :
    replacePair first second new (s ++ t) =
      replacePair first second new s ++ replacePair first second new t := by
  fun_induction replacePair first second new s with
  | case1 => rfl
  | case2 c =>
    cases t with
    | nil => rfl
    | cons d t =>
      have hcut : ¬(c = first ∧ d = second) := by simpa using h
      rw [List.singleton_append, replacePair, if_neg hcut]
      rfl
  | case3 c d s hpair ih =>
    have hrest : ¬(s.getLast? = some first ∧ t.head? = some second) := by
      rintro ⟨hs, ht⟩
      exact h ⟨by simp [List.getLast?_cons, hs], ht⟩
    rw [List.cons_append, List.cons_append, replacePair, if_pos hpair, ih hrest, List.append_assoc]
  | case4 c d s hpair ih =>
    rw [List.getLast?_cons_cons] at h
    rw [List.cons_append, List.cons_append, replacePair, if_neg hpair, ← List.cons_append, ih h,
      List.cons_append]

theorem replacePair_of_not_mem (h : first ∉ t) (new : Text) :
    replacePair first second new t = t := by
  induction t with
  | nil => rfl
  | cons c t ih =>
    obtain ⟨hc, ht⟩ := not_or.1 (mt List.mem_cons.2 h)
    have hcut : ¬([c].getLast? = some first ∧ t.head? = some second) :=
      fun hpair => hc (Option.some.inj hpair.1).symm
    calc replacePair first second new (c :: t)
        = replacePair first second new [c] ++ replacePair first second new t :=
          replacePair_append hcut new
      _ = c :: t := by rw [ih ht]; rfl

end Text

open Text

namespace Wire

variable {c : Char} {s t : Text}

/-! ## Three passes -/

/-- In a text without line breaks the passes find nothing to replace, so that it makes no
difference that they are left out there. -/
theorem foldNewlines_eq_replace (t : Text) :
    foldNewlines t =
      replaceChar '\r' foldMark (replaceChar '\n' foldMark (replacePair '\r' '\n' foldMark t)) := by
  unfold foldNewlines
  split
  · rfl
  · rename_i hany
    have hunbroken : t.IsUnbroken := isUnbroken_iff_any.2 (Bool.eq_false_iff.2 hany)
    have hfeed : '\n' ∉ t := fun hmem => absurd (hunbroken _ hmem) (by decide)
    have hreturn : '\r' ∉ t := fun hmem => absurd (hunbroken _ hmem) (by decide)
    rw [replacePair_of_not_mem hreturn, replaceChar_of_not_mem hfeed,
      replaceChar_of_not_mem hreturn]

/-- Two parts of a text may be folded each on its own, unless the cut parts a pair. -/
theorem foldNewlines_append (h : ¬(s.getLast? = some '\r' ∧ t.head? = some '\n')) :
    foldNewlines (s ++ t) = foldNewlines s ++ foldNewlines t := by
  rw [foldNewlines_eq_replace, foldNewlines_eq_replace, foldNewlines_eq_replace,
    replacePair_append h, replaceChar_append, replaceChar_append]

/-- A character that does not start a pair is folded on its own. -/
theorem foldNewlines_cons (h : ¬(c = '\r' ∧ t.head? = some '\n')) :
    foldNewlines (c :: t) = foldNewlines [c] ++ foldNewlines t := by
  have hcut : ¬([c].getLast? = some '\r' ∧ t.head? = some '\n') := by simpa using h
  exact foldNewlines_append hcut

/-- So is a pair. -/
theorem foldNewlines_pair (t : Text) :
    foldNewlines ('\r' :: '\n' :: t) = foldMark ++ foldNewlines t := by
  have hcut : ¬(['\r', '\n'].getLast? = some '\r' ∧ t.head? = some '\n') := by simp
  exact foldNewlines_append hcut

/-- Exactly the texts without line breaks are kept as they are. -/
theorem foldNewlines_eq_self_iff : foldNewlines t = t ↔ t.IsUnbroken := by
  constructor
  · intro h
    rw [← h]
    exact isUnbroken_foldNewlines t
  · intro h
    unfold foldNewlines
    rw [isUnbroken_iff_any.1 h, if_neg Bool.false_ne_true]

/-! ## Cuts -/

/-- A pair that is cut in two is folded to two marks. -/
theorem foldNewlines_cut_pair (s t : Text) :
    foldNewlines (s ++ ['\r']) ++ foldNewlines ('\n' :: t) =
      foldNewlines s ++ foldMark ++ foldMark ++ foldNewlines t := by
  have hreturn : foldNewlines (s ++ ['\r']) = foldNewlines s ++ foldMark :=
    foldNewlines_append (by simp)
  have hfeed : foldNewlines ('\n' :: t) = foldMark ++ foldNewlines t :=
    foldNewlines_cons (by simp)
  rw [hreturn, hfeed, List.append_assoc, List.append_assoc, List.append_assoc]

/-- Two parts of a text may be folded each on its own exactly when the cut parts no pair. -/
theorem foldNewlines_append_iff :
    foldNewlines (s ++ t) = foldNewlines s ++ foldNewlines t ↔
      ¬(s.getLast? = some '\r' ∧ t.head? = some '\n') := by
  refine ⟨?_, foldNewlines_append⟩
  rintro heq ⟨hs, ht⟩
  obtain ⟨s, rfl⟩ := List.getLast?_eq_some_iff.1 hs
  obtain ⟨t, rfl⟩ := List.head?_eq_some_iff.1 ht
  have hwhole : foldNewlines (s ++ '\r' :: '\n' :: t) =
      foldNewlines s ++ (foldMark ++ foldNewlines t) := by
    rw [foldNewlines_append (by simp), foldNewlines_pair]
  rw [List.append_assoc, List.singleton_append, hwhole, foldNewlines_cut_pair] at heq
  have hlength := congrArg List.length heq
  simp [foldMark] at hlength

/-! ## One pass -/

/-- A text of several lines on one line, in one pass from the left: a backslash and an `n` for each
pair of carriage return and line feed, for each other line feed and each other carriage return. -/
def foldBreaks : Text → Text
  | [] => []
  | '\r' :: '\n' :: t => '\\' :: 'n' :: foldBreaks t
  | '\n' :: t => '\\' :: 'n' :: foldBreaks t
  | '\r' :: t => '\\' :: 'n' :: foldBreaks t
  | c :: t => c :: foldBreaks t

theorem foldNewlines_eq_foldBreaks (t : Text) : foldNewlines t = foldBreaks t := by
  fun_induction foldBreaks t with
  | case1 => rfl
  | case2 t ih =>
    rw [foldNewlines_pair, ih]
    rfl
  | case3 t ih =>
    rw [foldNewlines_cons (by simp), ih]
    rfl
  | case4 t hnext ih =>
    have hpair : ¬('\r' = '\r' ∧ t.head? = some '\n') := by
      rintro ⟨-, ht⟩
      obtain ⟨rest, hrest⟩ := List.head?_eq_some_iff.1 ht
      exact hnext rest hrest
    rw [foldNewlines_cons hpair, ih]
    rfl
  | case5 c t _ hfeed hreturn ih =>
    have hone : IsUnbroken [c] :=
      isUnbroken_cons.2 ⟨isLineBreak_eq_false hfeed hreturn, List.forall_mem_nil _⟩
    rw [foldNewlines_cons fun hpair => hreturn hpair.1, foldNewlines_eq_self_iff.2 hone, ih]
    rfl

/-- **Folding comes to one pass.**  Every text is folded as by one pass from the left.  So no line
break is left, folding twice is folding once, and a text may be folded in two parts exactly when
the cut parts no pair of carriage return and line feed. -/
theorem foldNewlines_one_pass (t : Text) :
    foldNewlines t = foldBreaks t ∧ (foldNewlines t).IsUnbroken ∧
      foldNewlines (foldNewlines t) = foldNewlines t ∧
      ∀ s, foldNewlines (s ++ t) = foldNewlines s ++ foldNewlines t ↔
        ¬(s.getLast? = some '\r' ∧ t.head? = some '\n') := by
  have hunbroken := isUnbroken_foldNewlines t
  exact ⟨foldNewlines_eq_foldBreaks t, hunbroken, foldNewlines_eq_self_iff.2 hunbroken,
    fun _ => foldNewlines_append_iff⟩

/-- Four breaks: a carriage return, a pair, a line feed and a carriage return. -/
example : foldNewlines "\r\r\n\n\rx" = "\\n\\n\\n\\nx" := by decide

end Wire

end LogShipper
