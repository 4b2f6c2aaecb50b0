import LogShipper.Proofs.Text.Splitting
import LogShipper.Text.Literal
import LogShipper.Url.Percent

/-!
# What is quoted can be read off

A character as it stands between quotes is told from whatever follows it (`readChar?_escapeChar`):
a backslash is followed by one letter, or by the code point between braces.  So no two texts are
quoted in the same way (`quote_inj`), and what a diagnostic quotes it gives away.
-/

namespace LogShipper.Literal

/-! ## Code points -/

/-- The number that hexadecimal digits stand for. -/
def hexNumber (digits : Text) : Nat :=
  digits.foldl (fun n c => 16 * n + (Url.hexValue? c).getD 0) 0

theorem hexValue?_digitChar : ∀ n < 16, Url.hexValue? n.digitChar = some n := by decide

theorem hexNumber_toDigits (n : Nat) : hexNumber (Nat.toDigits 16 n) = n := by
  induction n using Nat.strongRecOn with
  | ind n ih =>
    rw [Nat.toDigits_eq_if (by decide)]
    split
    · rename_i hn
      simp [hexNumber, hexValue?_digitChar n hn]
    · rename_i hn
      have hrest := ih (n / 16) (by omega)
      have hlast := hexValue?_digitChar (n % 16) (Nat.mod_lt n (by decide))
      unfold hexNumber at hrest ⊢
      rw [List.foldl_append, hrest]
      simp [hlast, Nat.div_add_mod]

/-- No digit of a number closes the braces around it. -/
theorem brace_not_mem_toDigits (n : Nat) : '\x7d' ∉ Nat.toDigits 16 n := by
  induction n using Nat.strongRecOn with
  | ind n ih =>
    have hdigit : ∀ n < 16, '\x7d' ≠ n.digitChar := by decide
    rw [Nat.toDigits_eq_if (by decide)]
    split
    · rename_i hn
      rw [List.mem_singleton]
      exact hdigit n hn
    · intro hmem
      rcases List.mem_append.1 hmem with hmem | hmem
      · exact ih (n / 16) (by omega) hmem
      · exact hdigit _ (Nat.mod_lt n (by decide)) (List.mem_singleton.1 hmem)

/-! ## Characters -/

/-- The character of a letter after a backslash. -/
def plainChar (c : Char) : Char :=
  if c = '0' then '\x00'
  else if c = 't' then '\t'
  else if c = 'r' then '\x0d'
  else if c = 'n' then '\n'
  else c

/-- The character at the start of what stands between quotes, and what follows it. -/
def readChar? : Text → Option (Char × Text)
  | '\\' :: 'u' :: '\x7b' :: rest =>
    (Text.cutAt? (· = '\x7d') rest).map fun halves => (Char.ofNat (hexNumber halves.1), halves.2)
  | '\\' :: c :: rest => some (plainChar c, rest)
  | c :: rest => some (c, rest)
  | [] => none

/-- A character is read off as it was written. -/
theorem readChar?_escapeChar (c : Char) (t : Text) :
    readChar? (escapeChar c ++ t) = some (c, t) := by
  unfold escapeChar
  by_cases hzero : c = '\x00'
  · subst hzero
    rfl
  by_cases htab : c = '\t'
  · subst htab
    rfl
  by_cases hreturn : c = '\x0d'
  · subst hreturn
    rfl
  by_cases hfeed : c = '\n'
  · subst hfeed
    rfl
  by_cases hquote : c = '"'
  · subst hquote
    rfl
  by_cases hslash : c = '\\'
  · subst hslash
    rfl
  rw [if_neg hzero, if_neg htab, if_neg hreturn, if_neg hfeed, if_neg hquote, if_neg hslash]
  split
  · -- a character that stands for itself is no backslash
    rw [List.singleton_append, readChar?]
    · intro rest hc
      exact absurd hc hslash
    · intro d rest hc
      exact absurd hc hslash
  · have hcut := Text.cutAt?_mark (brace_not_mem_toDigits c.toNat) t
    show (Text.cutAt? (· = '\x7d') ((Nat.toDigits 16 c.toNat ++ ['\x7d']) ++ t)).map _ = _
    rw [List.append_assoc, List.singleton_append, hcut]
    simp [hexNumber_toDigits]

theorem escapeChar_ne_nil (c : Char) : escapeChar c ≠ [] := by
  intro hnil
  have hread := readChar?_escapeChar c []
  rw [hnil] at hread
  cases hread

/-! ## Texts -/

theorem flatMap_escapeChar_inj {s t : Text} (h : s.flatMap escapeChar = t.flatMap escapeChar) :
    s = t := by
  induction s generalizing t with
  | nil =>
    cases t with
    | nil => rfl
    | cons d t => exact absurd (List.append_eq_nil_iff.1 h.symm).1 (escapeChar_ne_nil d)
  | cons c s ih =>
    cases t with
    | nil => exact absurd (List.append_eq_nil_iff.1 h).1 (escapeChar_ne_nil c)
    | cons d t =>
      rw [List.flatMap_cons, List.flatMap_cons] at h
      have hread := readChar?_escapeChar c (s.flatMap escapeChar)
      rw [h, readChar?_escapeChar, Option.some.injEq, Prod.mk.injEq] at hread
      rw [hread.1, ih hread.2.symm]

/-- Texts that are quoted in the same way are the same. -/
theorem quote_inj {s t : Text} : quote s = quote t ↔ s = t := by
  constructor
  · intro h
    exact flatMap_escapeChar_inj (List.append_cancel_right (List.cons.inj h).2)
  · exact congrArg quote

end LogShipper.Literal
