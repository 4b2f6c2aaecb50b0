import LogShipper.Proofs.Text.Splitting
import LogShipper.Url.Syntax
import Mathlib.Data.List.TakeDrop

/-!
# What counts of a URL

Trimming and dropping what does not count leave a text that is put together as it is, if it begins
and ends with characters that count (`Text.trim_append`, `significant_append`).  The scheme is what
stands before the first colon (`scheme?_append`), in lower case (`lower_of_scheme?`).
-/

namespace LogShipper

/-- A text that begins and ends with characters that are not blank keeps its place before another
one. -/
theorem Text.trim_append {s : Text} {first last : Char} (hfirst : s.head? = some first)
    (hblank : isBlank first = false) (hlast : s.getLast? = some last)
    (hblank' : isBlank last = false) (t : Text) : (s ++ t).trim = s ++ t.trimEnd := by
  have hstart : (s ++ t).trimStart = s ++ t := by
    cases s with
    | nil => cases hfirst
    | cons c s =>
      obtain rfl := Option.some.inj hfirst
      exact List.dropWhile_cons_of_neg (by rw [hblank]; exact Bool.false_ne_true)
  have hend : s.trimEnd = s := by
    refine List.rdropWhile_eq_self_iff.2 fun hne => ?_
    rw [List.getLast?_eq_some_getLast hne] at hlast
    rw [Option.some.inj hlast, hblank']
    exact Bool.false_ne_true
  rw [trim, hstart, trimEnd_append hend]

namespace Url

/-! ## Characters that count -/

/-- Whether a character counts wherever it stands. -/
def isSolid (c : Char) : Bool := !isBlank c && !isOutside c

theorem isBlank_of_isSolid {c : Char} (h : isSolid c = true) : isBlank c = false := by
  simpa using (Bool.and_eq_true_iff.1 h).1

theorem isOutside_of_isSolid {c : Char} (h : isSolid c = true) : isOutside c = false := by
  simpa using (Bool.and_eq_true_iff.1 h).2

theorem isOutside_of_isIgnored {c : Char} (h : isIgnored c = true) : isOutside c = true := by
  obtain (rfl | rfl) | rfl : (c = '\t' ∨ c = '\n') ∨ c = '\x0d' := by simpa [isIgnored] using h
  all_goals decide

theorem not_isIgnored_of_isSolid {c : Char} (h : isSolid c = true) : isIgnored c = false := by
  rw [← Bool.not_eq_true]
  intro hignored
  exact Bool.false_ne_true ((isOutside_of_isSolid h).symm.trans (isOutside_of_isIgnored hignored))

/-- What counts of a text that stands behind another one. -/
def significantEnd (t : Text) : Text := (t.rdropWhile isOutside).filter fun c => !isIgnored c

/-- What counts at the end is the beginning of what would count within. -/
theorem isPrefix_significantEnd (t : Text) :
    significantEnd t <+: t.filter fun c => !isIgnored c :=
  List.IsPrefix.filter _ (List.rdropWhile_prefix _ _)

/-- A text that begins and ends with characters that count keeps its place before another one. -/
theorem significant_append {s : Text} {first last : Char} (hfirst : s.head? = some first)
    (hsolid : isSolid first = true) (hlast : s.getLast? = some last)
    (hsolid' : isSolid last = true) (t : Text) :
    significant (s ++ t) = s.filter (fun c => !isIgnored c) ++ significantEnd t := by
  have hstart : (s ++ t).dropWhile isOutside = s ++ t := by
    cases s with
    | nil => cases hfirst
    | cons c s =>
      obtain rfl := Option.some.inj hfirst
      exact List.dropWhile_cons_of_neg
        (by rw [isOutside_of_isSolid hsolid]; exact Bool.false_ne_true)
  have hend : s.rdropWhile isOutside = s := by
    refine List.rdropWhile_eq_self_iff.2 fun hne => ?_
    rw [List.getLast?_eq_some_getLast hne] at hlast
    rw [Option.some.inj hlast, isOutside_of_isSolid hsolid']
    exact Bool.false_ne_true
  calc significant (s ++ t)
      = (((s ++ t).dropWhile isOutside).rdropWhile isOutside).filter (fun c => !isIgnored c) := rfl
    _ = (s ++ t.rdropWhile isOutside).filter (fun c => !isIgnored c) := by
      rw [hstart, rdropWhile_append hend]
    _ = s.filter (fun c => !isIgnored c) ++ significantEnd t := List.filter_append _ _

/-! ## Scheme -/

theorem toNat_of_isAlphanum {c : Char} (h : c.isAlphanum = true) :
    0x20 < c.toNat ∧ c.toNat < 0x7F := by
  have hwithin {a b : Char} (hlow : a.val ≤ c.val) (hhigh : c.val ≤ b.val)
      (ha : 0x20 < a.toNat) (hb : b.toNat < 0x7F) : 0x20 < c.toNat ∧ c.toNat < 0x7F :=
    ⟨Nat.lt_of_lt_of_le ha (UInt32.le_iff_toNat_le.1 hlow),
      Nat.lt_of_le_of_lt (UInt32.le_iff_toNat_le.1 hhigh) hb⟩
  rcases Bool.or_eq_true_iff.1 h with hletter | hdigit
  · rcases Bool.or_eq_true_iff.1 hletter with hcapital | hsmall
    · obtain ⟨hlow, hhigh⟩ := of_decide_eq_true hcapital
      exact hwithin hlow hhigh (by decide) (by decide)
    · obtain ⟨hlow, hhigh⟩ := Bool.and_eq_true_iff.1 hsmall
      exact hwithin (of_decide_eq_true hlow) (of_decide_eq_true hhigh) (by decide) (by decide)
  · obtain ⟨hlow, hhigh⟩ := Bool.and_eq_true_iff.1 hdigit
    exact hwithin (of_decide_eq_true hlow) (of_decide_eq_true hhigh) (by decide) (by decide)

theorem isSchemeChar_of_isAlpha {c : Char} (h : c.isAlpha = true) : isSchemeChar c = true := by
  simp [isSchemeChar, Char.isAlphanum, h]

/-- A character of a scheme counts wherever it stands. -/
theorem isSolid_of_isSchemeChar {c : Char} (h : isSchemeChar c = true) : isSolid c = true := by
  obtain ((h | rfl) | rfl) | rfl : ((c.isAlphanum = true ∨ c = '+') ∨ c = '-') ∨ c = '.' := by
    simpa [isSchemeChar] using h
  · obtain ⟨hlow, hhigh⟩ := toNat_of_isAlphanum h
    simp only [isSolid, isBlank, blankRanges, isOutside, List.any_cons, List.any_nil]
    simp
    omega
  all_goals decide

theorem isAlpha_of_isLower_toLower {c : Char} (h : c.toLower.isLower = true) :
    c.isAlpha = true := by
  by_cases hupper : c.isUpper = true
  · exact Bool.or_eq_true_iff.2 (.inl hupper)
  · have hkept : c.toLower = c := dif_neg fun hrange => hupper (decide_eq_true hrange)
    exact Bool.or_eq_true_iff.2 (.inr (hkept ▸ h))

/-- A text that is a word of small letters in lower case is made of letters. -/
theorem isAlpha_of_lower {s word : Text} (h : s.lower = word)
    (hword : word.all Char.isLower = true) : ∀ c ∈ s, c.isAlpha = true :=
  fun _ hc =>
    isAlpha_of_isLower_toLower (List.all_eq_true.1 hword _ (h ▸ List.mem_map_of_mem hc))

theorem toLower_toLower (c : Char) : c.toLower.toLower = c.toLower := by
  by_cases hupper : c.isUpper = true
  · have hall : ∀ k < 128, (Char.ofNat k).toLower.toLower = (Char.ofNat k).toLower := by
      decide +kernel
    have hlt : c.toNat < 128 :=
      Nat.lt_of_le_of_lt (UInt32.le_iff_toNat_le.1 (of_decide_eq_true hupper).2) (by decide)
    exact c.ofNat_toNat ▸ hall c.toNat hlt
  · have hkept : c.toLower = c := dif_neg fun hrange => hupper (decide_eq_true hrange)
    rw [hkept, hkept]

theorem lower_lower (t : Text) : t.lower.lower = t.lower :=
  List.map_map.trans (List.map_congr_left fun c _ => toLower_toLower c)

/-- The scheme is in lower case. -/
theorem lower_of_scheme? {t scheme rest : Text} (h : scheme? t = some (scheme, rest)) :
    scheme.lower = scheme := by
  unfold scheme? at h
  split at h
  · split at h
    · obtain ⟨rfl, -⟩ := Prod.mk.inj (Option.some.inj h)
      exact lower_lower _
    · cases h
  · cases h

/-- The scheme ends at the first colon. -/
theorem scheme?_append {s : Text} (hs : ∀ c ∈ s, isSchemeChar c = true) (rest : Text) :
    scheme? (s ++ ':' :: rest) =
      if s.head?.any Char.isAlpha then some (s.lower, rest) else none := by
  have hcolon : ¬isSchemeChar ':' = true := by decide
  have hspan : (s ++ ':' :: rest).span isSchemeChar = (s, ':' :: rest) := by
    rw [List.span_eq_takeWhile_dropWhile, List.takeWhile_append_of_pos hs,
      List.dropWhile_append_of_pos hs, List.takeWhile_cons_of_neg hcolon,
      List.dropWhile_cons_of_neg hcolon, List.append_nil]
  unfold scheme?
  rw [hspan]
  cases s with
  | nil => rfl
  | cons c s => rfl

/-! ### A scheme before two slashes -/

section Slashes

variable {s front : Text} {last : Char}

/-- A scheme and what stands right behind its slashes begin and end with characters that count. -/
theorem head?_scheme (hs : ∀ c ∈ s, isSchemeChar c = true) (front : Text) :
    ∃ first, (s ++ "://" ++ front).head? = some first ∧ isSolid first = true := by
  cases s with
  | nil => exact ⟨':', rfl, by decide⟩
  | cons c s => exact ⟨c, rfl, isSolid_of_isSchemeChar (hs c List.mem_cons_self)⟩

theorem getLast?_scheme (s : Text) (hlast : ('/' :: front).getLast? = some last) :
    (s ++ "://" ++ front).getLast? = some last := by
  have hsplit : s ++ "://" ++ front = (s ++ [':', '/']) ++ '/' :: front := by simp
  rw [hsplit, List.getLast?_append, hlast, Option.some_or]

theorem trim_scheme (hs : ∀ c ∈ s, isSchemeChar c = true)
    (hlast : ('/' :: front).getLast? = some last) (hsolid : isSolid last = true) (rest : Text) :
    (s ++ "://" ++ front ++ rest).trim = s ++ "://" ++ front ++ rest.trimEnd := by
  obtain ⟨first, hfirst, hsolid'⟩ := head?_scheme hs front
  exact Text.trim_append hfirst (isBlank_of_isSolid hsolid') (getLast?_scheme s hlast)
    (isBlank_of_isSolid hsolid) rest

/-- They count whatever follows. -/
theorem significant_scheme (hs : ∀ c ∈ s, isSchemeChar c = true)
    (hfront : ∀ c ∈ front, isIgnored c = false) (hlast : ('/' :: front).getLast? = some last)
    (hsolid : isSolid last = true) (rest : Text) : significant (s ++ "://" ++ front ++ rest) =
      s ++ ':' :: '/' :: '/' :: (front ++ significantEnd rest) := by
  obtain ⟨first, hfirst, hsolid'⟩ := head?_scheme hs front
  have hslashes : "://".toList.all (fun c => !isIgnored c) = true := by decide
  have hall : ∀ c ∈ s ++ "://" ++ front, (!isIgnored c) = true := by
    intro c hc
    rcases List.mem_append.1 hc with hc | hc
    · rcases List.mem_append.1 hc with hc | hc
      · rw [not_isIgnored_of_isSolid (isSolid_of_isSchemeChar (hs c hc)), Bool.not_false]
      · exact List.all_eq_true.1 hslashes c hc
    · rw [hfront c hc, Bool.not_false]
  rw [significant_append hfirst hsolid' (getLast?_scheme s hlast) hsolid,
    List.filter_eq_self.2 hall]
  simp

theorem trim_scheme_nil (hs : ∀ c ∈ s, isSchemeChar c = true) (rest : Text) :
    (s ++ "://" ++ rest).trim = s ++ "://" ++ rest.trimEnd := by
  have hslash : ('/' :: ([] : Text)).getLast? = some '/' := rfl
  have htrimmed := trim_scheme hs hslash (by decide) rest
  rwa [List.append_nil] at htrimmed

theorem significant_scheme_nil (hs : ∀ c ∈ s, isSchemeChar c = true) (rest : Text) :
    significant (s ++ "://" ++ rest) = s ++ ':' :: '/' :: '/' :: significantEnd rest := by
  have hslash : ('/' :: ([] : Text)).getLast? = some '/' := rfl
  have hcounted := significant_scheme hs (List.forall_mem_nil _) hslash (by decide) rest
  rwa [List.append_nil] at hcounted

end Slashes

end Url

end LogShipper
