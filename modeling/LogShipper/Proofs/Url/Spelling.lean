import LogShipper.Url.Percent

/-!
# Spellings

A URL can hold any text between its dividers when the octets of the text are written with percent
signs.  There is some choice in that: which characters stand for themselves, and in which case the
digits are written.  `Spells` says what all these spellings have in common.

Encoding a text by any set that encodes the dividers is such a spelling (`spells_encode`).  When a
user name or a password is read, the characters that may not stand there are encoded once more; a
spelling still stands for the same octets after that (`Spells.octets_encode`), so that the text is
read back from it (`Spells.decode_encode`).
-/

namespace LogShipper.Url

/-- The characters that are not written as they are: the percent sign, those that divide a URL, and
those that do not count in one. -/
def dividers : Text := "%:@/\\?#\t\n\x0d"

/-- Whether a text can stand for a user name or a password: it holds no divider, but perhaps percent
signs. -/
def IsUserinfo (t : Text) : Prop := ∀ c ∈ t, c ∈ dividers → c = '%'

theorem IsUserinfo.not_mem {t : Text} (h : IsUserinfo t) {c : Char} (hc : c ∈ dividers)
    (hne : c ≠ '%') : c ∉ t :=
  fun hmem => hne (h c hmem hc)

/-- A text that writes a row of octets.  A character stands for its own octets unless it is a
divider, and any octet may be written as a percent sign and two hexadecimal digits. -/
inductive Spells : Text → List UInt8 → Prop
  | nil : Spells [] []
  | plain {c : Char} {t : Text} {bs : List UInt8} :
      c ∉ dividers → Spells t bs → Spells (c :: t) (Utf8.encodeChar c ++ bs)
  | escape {x y : Char} {high low : Nat} {t : Text} {bs : List UInt8} :
      hexValue? x = some high → hexValue? y = some low → Spells t bs →
      Spells ('%' :: x :: y :: t) (.ofNat (16 * high + low) :: bs)

/-! ## Hexadecimal digits -/

theorem toNat_lt_of_hexValue? {c : Char} {n : Nat} (h : hexValue? c = some n) : c.toNat < 128 := by
  have hle {d : Char} (hcd : c ≤ d) (hd : d.toNat < 128) : c.toNat < 128 :=
    Nat.lt_of_le_of_lt (UInt32.le_iff_toNat_le.1 hcd) hd
  unfold hexValue? at h
  split at h
  · rename_i hdigit
    exact hle hdigit.2 (by decide)
  split at h
  · rename_i hsmall
    exact hle hsmall.2 (by decide)
  split at h
  · rename_i hcapital
    exact hle hcapital.2 (by decide)
  · cases h

/-- A digit is neither a divider nor encoded in a user name. -/
theorem plain_of_hexValue? {c : Char} {n : Nat} (h : hexValue? c = some n) :
    c ∉ dividers ∧ EncodeSet.userinfo.hits c = false := by
  have hall : ∀ k < 128, (hexValue? (Char.ofNat k)).isSome →
      Char.ofNat k ∉ dividers ∧ EncodeSet.userinfo.hits (Char.ofNat k) = false := by
    decide +kernel
  have hc := hall c.toNat (toNat_lt_of_hexValue? h)
  rw [Char.ofNat_toNat] at hc
  exact hc (Option.isSome_iff_exists.2 ⟨n, h⟩)

/-! ## Encoded texts -/

@[simp] theorem octets_nil : octets [] = [] := by rw [octets]

theorem encode_cons (set : EncodeSet) (c : Char) (t : Text) : encode set (c :: t) =
    (if set.hits c then (Utf8.encodeChar c).flatMap escapeOctet else [c]) ++ encode set t := rfl

theorem encode_eq_nil_iff {set : EncodeSet} {t : Text} : encode set t = [] ↔ t = [] := by
  constructor
  · intro h
    cases t with
    | nil => rfl
    | cons c t =>
      rw [encode_cons] at h
      split at h
      · obtain ⟨b, more, hb, -⟩ := Utf8.next_encodeChar c []
        rw [hb] at h
        cases h
      · cases h
  · rintro rfl
    rfl

theorem spells_flatMap_escapeOctet (octets : List UInt8) {t : Text} {bs : List UInt8}
    (h : Spells t bs) : Spells (octets.flatMap escapeOctet ++ t) (octets ++ bs) := by
  induction octets with
  | nil => exact h
  | cons b octets ih =>
    have hb : b.toNat < 256 := b.toNat_lt
    have hspelled := Spells.escape (hexValue?_hexDigit (b.toNat / 16) (by omega))
      (hexValue?_hexDigit (b.toNat % 16) (by omega)) ih
    rw [show 16 * (b.toNat / 16) + b.toNat % 16 = b.toNat by omega, UInt8.ofNat_toNat] at hspelled
    exact hspelled

/-- Encoding by a set with all dividers is a spelling. -/
theorem spells_encode (set : EncodeSet) (h : dividers.all set.hits = true) (t : Text) :
    Spells (encode set t) (Utf8.encode t) := by
  induction t with
  | nil => exact .nil
  | cons c t ih =>
    rw [encode_cons, Utf8.encode_cons]
    split
    · exact spells_flatMap_escapeOctet (Utf8.encodeChar c) ih
    · rename_i hc
      exact .plain (fun hdivides => hc (List.all_eq_true.1 h c hdivides)) ih

/-! ## Reading a spelling -/

namespace Spells

variable {t s : Text} {bs : List UInt8}

/-- The only divider in a spelling is the percent sign. -/
theorem isUserinfo (h : Spells t bs) : IsUserinfo t := by
  induction h with
  | nil => exact fun c hc => absurd hc List.not_mem_nil
  | plain hplain _ ih => exact List.forall_mem_cons.2 ⟨fun hc => absurd hc hplain, ih⟩
  | escape hx hy _ ih =>
    refine List.forall_mem_cons.2 ⟨fun _ => rfl, List.forall_mem_cons.2 ⟨?_, ?_⟩⟩
    · exact fun hc => absurd hc (plain_of_hexValue? hx).1
    · exact List.forall_mem_cons.2 ⟨fun hc => absurd hc (plain_of_hexValue? hy).1, ih⟩

/-- A spelling still stands for the same octets when it is encoded as a user name. -/
theorem octets_encode (h : Spells t bs) : octets (encode .userinfo t) = bs := by
  induction h with
  | nil => exact octets_nil
  | @plain c t bs hplain _ ih =>
    rw [encode_cons]
    split
    · rw [octets_flatMap_escapeOctet, ih]
    · have hne : c ≠ '%' := fun heq => hplain (heq ▸ by decide)
      rw [List.singleton_append, octets_of_ne_percent hne, ih]
  | @escape x y high low t bs hx hy _ ih =>
    have hpercent : EncodeSet.userinfo.hits '%' = false := by decide
    have hkept : encode .userinfo ('%' :: x :: y :: t) =
        '%' :: x :: y :: encode .userinfo t := by
      rw [encode_cons, encode_cons, encode_cons, hpercent, (plain_of_hexValue? hx).2,
        (plain_of_hexValue? hy).2]
      rfl
    have hescaped : escaped? ('%' :: x :: y :: encode .userinfo t) =
        some (.ofNat (16 * high + low), encode .userinfo t) := by
      simp only [escaped?, hx, hy]
    rw [hkept, octets_of_escaped? hescaped, ih]

/-- A text is read back from any of its spellings. -/
theorem decode_encode (h : Spells t (Utf8.encode s)) : decode (encode .userinfo t) = s := by
  rw [decode, h.octets_encode, Utf8.decodeLossy_encode]

/-- Only the empty text is spelled by nothing. -/
theorem ne_nil (h : Spells t (Utf8.encode s)) (hs : s ≠ []) : t ≠ [] := by
  rintro rfl
  have hread : s = Utf8.decodeLossy (octets []) := h.decode_encode.symm
  apply hs
  rw [hread, octets_nil, Utf8.decodeLossy, Utf8.pieces, List.map_nil]

end Spells

end LogShipper.Url
