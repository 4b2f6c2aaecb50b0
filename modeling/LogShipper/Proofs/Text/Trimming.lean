import LogShipper.Text.Basic
import Mathlib.Data.List.DropRight

/-!
# Trimming

What trimming takes away from texts that are put together.  Blanks at the ends are lost, and a text
that has none there is kept together with what is trimmed behind it (`Text.trimEnd_append`).  It
makes no difference which end is trimmed first (`Text.trimStart_trimEnd`), and trimming twice is
trimming once (`Text.trim_trim`).
-/

namespace LogShipper

/-- What is dropped behind a list that keeps its end. -/
theorem rdropWhile_append {α : Type} {p : α → Bool} {xs : List α} (h : xs.rdropWhile p = xs)
    (ys : List α) : (xs ++ ys).rdropWhile p = xs ++ ys.rdropWhile p := by
  induction ys using List.reverseRecOn with
  | nil => rw [List.append_nil, List.rdropWhile_nil, List.append_nil, h]
  | append_singleton ys y ih =>
    rw [← List.append_assoc, List.rdropWhile_concat, List.rdropWhile_concat]
    split
    · exact ih
    · exact List.append_assoc xs ys [y]

/-- What is not dropped wherever it stands. -/
theorem mem_dropWhile_iff {α : Type} {p : α → Bool} {x : α} (hx : p x = false) {xs : List α} :
    x ∈ xs.dropWhile p ↔ x ∈ xs := by
  induction xs with
  | nil => rfl
  | cons y xs ih =>
    rw [List.dropWhile_cons]
    split
    · rename_i hy
      have hne : x ≠ y := by
        rintro rfl
        rw [hx] at hy
        cases hy
      rw [ih, List.mem_cons, or_iff_right hne]
    · rfl

namespace Text

variable {s t : Text}

/-! ## Blank texts -/

theorem isAllBlank_cons_iff {c : Char} :
    isAllBlank (c :: t) = true ↔ isBlank c = true ∧ isAllBlank t = true := by
  unfold isAllBlank
  rw [List.all_cons, Bool.and_eq_true]

theorem not_mem_of_isAllBlank {c : Char} (hc : isBlank c = false) (h : t.isAllBlank = true) :
    c ∉ t := by
  intro hmem
  have hblank := List.all_eq_true.1 h c hmem
  rw [hc] at hblank
  cases hblank

theorem trimStart_eq_nil_iff : t.trimStart = [] ↔ t.isAllBlank = true := by
  unfold trimStart isAllBlank
  rw [List.dropWhile_eq_nil_iff, List.all_eq_true]

theorem trimEnd_eq_nil_iff : t.trimEnd = [] ↔ t.isAllBlank = true := by
  unfold trimEnd isAllBlank
  rw [List.reverse_eq_nil_iff, List.dropWhile_eq_nil_iff, List.all_eq_true]
  exact forall_congr' fun c => by rw [List.mem_reverse]

/-- Trimming leaves something of every other text. -/
theorem trim_eq_nil_iff : t.trim = [] ↔ t.isAllBlank = true := by
  unfold trim
  rw [trimEnd_eq_nil_iff, ← trimStart_eq_nil_iff, ← trimStart_eq_nil_iff]
  unfold trimStart
  rw [List.dropWhile_idempotent]

/-- A text without blanks has none to trim. -/
theorem trim_of_forall (h : ∀ c ∈ t, isBlank c = false) : t.trim = t := by
  have hdrop : ∀ {t : Text}, (∀ c ∈ t, isBlank c = false) → t.dropWhile isBlank = t := by
    intro t ht
    cases t with
    | nil => rfl
    | cons c t => exact List.dropWhile_cons_of_neg (by simp [ht c List.mem_cons_self])
  unfold trim trimStart trimEnd
  rw [hdrop h, hdrop fun c hc => h c (List.mem_reverse.1 hc), List.reverse_reverse]

/-- A character that is not blank is not trimmed away. -/
theorem mem_trim_iff {c : Char} (hc : isBlank c = false) : c ∈ t.trim ↔ c ∈ t := by
  unfold trim trimEnd trimStart
  rw [List.mem_reverse, mem_dropWhile_iff hc, List.mem_reverse, mem_dropWhile_iff hc]

/-! ## Texts put together -/

/-- Blanks before a text are lost. -/
theorem trimStart_append_of_isAllBlank (h : s.isAllBlank = true) (t : Text) :
    trimStart (s ++ t) = t.trimStart :=
  List.dropWhile_append_of_pos (List.all_eq_true.1 h)

/-- Blanks after a text are lost. -/
theorem trimEnd_append_of_isAllBlank (s : Text) (h : t.isAllBlank = true) :
    trimEnd (s ++ t) = s.trimEnd := by
  unfold trimEnd
  rw [List.reverse_append, List.dropWhile_append_of_pos]
  intro c hc
  exact List.all_eq_true.1 h c (List.mem_reverse.1 hc)

/-- Trimming does not go beyond what is not blank. -/
theorem trimEnd_append_of_not_isAllBlank (s : Text) (h : ¬t.isAllBlank = true) :
    trimEnd (s ++ t) = s ++ t.trimEnd := by
  have hdrop : ¬(t.reverse.dropWhile isBlank).isEmpty = true := by
    rw [List.isEmpty_iff, ← List.reverse_eq_nil_iff]
    exact mt trimEnd_eq_nil_iff.1 h
  unfold trimEnd
  rw [List.reverse_append, List.dropWhile_append, if_neg hdrop, List.reverse_append,
    List.reverse_reverse]

/-- A text that ends with no blank is kept when more is trimmed behind it. -/
theorem trimEnd_append (h : s.trimEnd = s) (t : Text) : trimEnd (s ++ t) = s ++ t.trimEnd :=
  rdropWhile_append h t

/-- What trimming takes away at the end. -/
theorem exists_eq_trimEnd_append (t : Text) :
    ∃ blanks : Text, blanks.isAllBlank = true ∧ t = t.trimEnd ++ blanks := by
  refine ⟨t.rtakeWhile isBlank, ?_, List.rdropWhile_append_rtakeWhile.symm⟩
  exact List.all_eq_true.2 fun _ hc => List.mem_rtakeWhile_imp hc

/-- What trimming takes away at both ends. -/
theorem exists_eq_trim (t : Text) : ∃ before after : Text, before.isAllBlank = true ∧
    after.isAllBlank = true ∧ t = before ++ t.trim ++ after := by
  obtain ⟨after, hafter, hsplit⟩ := exists_eq_trimEnd_append t.trimStart
  refine ⟨t.takeWhile isBlank, after, List.all_takeWhile, hafter, ?_⟩
  rw [List.append_assoc]
  exact (List.takeWhile_append_dropWhile).symm.trans (congrArg _ hsplit)

/-! ## Both ends -/

theorem trimStart_trimStart (t : Text) : t.trimStart.trimStart = t.trimStart :=
  List.dropWhile_idempotent _ _

theorem trimEnd_trimEnd (t : Text) : t.trimEnd.trimEnd = t.trimEnd :=
  List.rdropWhile_idempotent _ _

/-- It makes no difference which end is trimmed first. -/
theorem trimStart_trimEnd (t : Text) : t.trimEnd.trimStart = t.trim := by
  induction t with
  | nil => rfl
  | cons c rest ih =>
    by_cases hc : isBlank c = true
    · have hone : isAllBlank [c] = true := isAllBlank_cons_iff.2 ⟨hc, rfl⟩
      have htrim : trim (c :: rest) = trim rest :=
        congrArg trimEnd (trimStart_append_of_isAllBlank hone rest)
      rw [htrim]
      by_cases hrest : isAllBlank rest = true
      · have hall : isAllBlank (c :: rest) = true := isAllBlank_cons_iff.2 ⟨hc, hrest⟩
        rw [trimEnd_eq_nil_iff.2 hall, trim_eq_nil_iff.2 hrest, trimStart_nil]
      · have hkept : trimEnd (c :: rest) = c :: trimEnd rest :=
          trimEnd_append_of_not_isAllBlank [c] hrest
        rw [hkept, ← ih]
        exact trimStart_append_of_isAllBlank hone (trimEnd rest)
    · have hstart (more : Text) : trimStart (c :: more) = c :: more :=
        List.dropWhile_cons_of_neg hc
      have hend : trimEnd [c] = [c] := List.rdropWhile_concat_neg isBlank [] c hc
      have hkept : trimEnd (c :: rest) = c :: trimEnd rest := trimEnd_append hend rest
      unfold trim
      rw [hstart, hkept, hstart]

/-- Trimming twice is trimming once. -/
@[simp] theorem trim_trim (t : Text) : t.trim.trim = t.trim := by
  calc t.trim.trim = t.trim.trimStart.trimEnd := rfl
    _ = t.trimEnd.trimStart.trimStart.trimEnd := by rw [trimStart_trimEnd]
    _ = t.trim.trimEnd := by rw [trimStart_trimStart, trimStart_trimEnd]
    _ = t.trim := trimEnd_trimEnd t.trimStart

/-- A trimmed text starts with no blank. -/
theorem trimStart_eq_self (h : t.trim = t) : t.trimStart = t := by
  rw [← h, ← trimStart_trimEnd, trimStart_trimStart]

/-- A trimmed text ends with no blank. -/
theorem trimEnd_eq_self (h : t.trim = t) : t.trimEnd = t := by
  rw [← h]
  exact trimEnd_trimEnd t.trimStart

end Text

end LogShipper
