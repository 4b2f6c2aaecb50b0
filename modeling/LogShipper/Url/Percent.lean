import LogShipper.Text.Utf8

/-!
# Percent encoding

A character that may not stand in some part of a URL is written as its UTF-8 octets, each as a
percent sign and two hexadecimal digits. Which ASCII characters that concerns depends on the
part; all other characters are always encoded. `decode_encode` says that a text is read back from
its encoding by any set that encodes the percent sign.
-/

namespace LogShipper.Url

/-- The ASCII characters that a part of a URL encodes. -/
abbrev EncodeSet := Char → Bool

namespace EncodeSet

/-- The control characters. -/
def controls : EncodeSet := fun c => c.toNat < 0x20 || c.toNat = 0x7F

/-- A set with further characters. -/
def and (set : EncodeSet) (more : Text) : EncodeSet := fun c => set c || more.contains c

/-- What a fragment encodes. -/
def fragment : EncodeSet := controls.and " \"<>\x60"

/-- What a query encodes. -/
def query : EncodeSet := controls.and " \"#<>"

/-- What the query of a special URL encodes. -/
def specialQuery : EncodeSet := query.and "'"

/-- What a path encodes. -/
def path : EncodeSet := fragment.and "#?\x7b\x7d"

/-- What a user name or a password encodes. -/
def userinfo : EncodeSet := path.and "/:;=@[\\]^|"

end EncodeSet

/-- The value of a hexadecimal digit. -/
def hexValue? (c : Char) : Option Nat :=
  if '0' ≤ c ∧ c ≤ '9' then some (c.toNat - '0'.toNat)
  else if 'a' ≤ c ∧ c ≤ 'f' then some (c.toNat - 'a'.toNat + 10)
  else if 'A' ≤ c ∧ c ≤ 'F' then some (c.toNat - 'A'.toNat + 10)
  else none

/-- A hexadecimal digit in upper case. -/
def hexDigit (n : Nat) : Char :=
  if n < 10 then Char.ofNat ('0'.toNat + n) else Char.ofNat ('A'.toNat + (n - 10))

/-- An octet as a percent sign and two digits. -/
def escapeOctet (b : UInt8) : Text := ['%', hexDigit (b.toNat / 16), hexDigit (b.toNat % 16)]

/-- Whether a character is encoded. -/
def EncodeSet.hits (set : EncodeSet) (c : Char) : Bool := 0x80 ≤ c.toNat || set c

/-- A text with the characters of a set encoded. -/
def encode (set : EncodeSet) (t : Text) : Text :=
  t.flatMap fun c => if set.hits c then (Utf8.encodeChar c).flatMap escapeOctet else [c]

/-- The octet that a percent sign and two digits write at the start of a text, and the rest. -/
def escaped? : Text → Option (UInt8 × Text)
  | '%' :: a :: b :: t =>
    match hexValue? a, hexValue? b with
    | some high, some low => some (.ofNat (16 * high + low), t)
    | _, _ => none
  | _ => none

theorem length_of_escaped? {t rest : Text} {b : UInt8} (h : escaped? t = some (b, rest)) :
    rest.length < t.length := by
  unfold escaped? at h
  split at h
  · split at h
    · simp only [Option.some.injEq, Prod.mk.injEq] at h
      simp only [← h.2, List.length_cons]
      omega
    · simp at h
  · simp at h

/-- The octets that a text stands for. A percent sign without two digits stands for itself. -/
def octets : Text → List UInt8
  | [] => []
  | c :: t =>
    match _h : escaped? (c :: t) with
    | some (b, rest) => b :: octets rest
    | none => Utf8.encodeChar c ++ octets t
termination_by t => t.length
decreasing_by
  · exact length_of_escaped? ‹_›
  · simp

/-- The text that a percent-encoded text stands for, with U+FFFD for what is no text. -/
def decode (t : Text) : Text := Utf8.decodeLossy (octets t)

/-! ## Reading what was written -/

theorem hexValue?_hexDigit : ∀ n < 16, hexValue? (hexDigit n) = some n := by decide

@[simp] theorem escaped?_escapeOctet (b : UInt8) (t : Text) :
    escaped? (escapeOctet b ++ t) = some (b, t) := by
  have hb : b.toNat < 256 := b.toNat_lt
  simp only [escapeOctet, List.cons_append, List.nil_append, escaped?,
    hexValue?_hexDigit (b.toNat / 16) (by omega), hexValue?_hexDigit (b.toNat % 16) (by omega)]
  rw [show 16 * (b.toNat / 16) + b.toNat % 16 = b.toNat by omega]
  simp

theorem octets_of_escaped? {t rest : Text} {b : UInt8} (h : escaped? t = some (b, rest)) :
    octets t = b :: octets rest := by
  cases t with
  | nil => simp [escaped?] at h
  | cons c t => rw [octets]; split <;> simp_all

theorem octets_of_ne_percent {c : Char} (h : c ≠ '%') (t : Text) :
    octets (c :: t) = Utf8.encodeChar c ++ octets t := by
  have hnone : escaped? (c :: t) = none := by
    unfold escaped?
    split
    · simp_all
    · rfl
  rw [octets]
  split <;> simp_all

theorem octets_flatMap_escapeOctet (bs : List UInt8) (t : Text) :
    octets (bs.flatMap escapeOctet ++ t) = bs ++ octets t := by
  induction bs with
  | nil => rfl
  | cons b bs ih =>
    rw [List.flatMap_cons, List.append_assoc, octets_of_escaped? (escaped?_escapeOctet b _), ih]
    rfl

theorem octets_encode_append (set : EncodeSet) (h : set.hits '%' = true) (s t : Text) :
    octets (encode set s ++ t) = Utf8.encode s ++ octets t := by
  induction s with
  | nil => rfl
  | cons c s ih =>
    have hcons : encode set (c :: s) =
        (if set.hits c then (Utf8.encodeChar c).flatMap escapeOctet else [c]) ++ encode set s := by
      simp [encode]
    rw [hcons, List.append_assoc, Utf8.encode_cons, List.append_assoc]
    split
    · rw [octets_flatMap_escapeOctet, ih]
    · rename_i hc
      have hne : c ≠ '%' := fun heq => hc (heq ▸ h)
      rw [List.singleton_append, octets_of_ne_percent hne, ih]

/-- A text is read back from its encoding by a set that encodes the percent sign. -/
theorem decode_encode (set : EncodeSet) (h : set.hits '%' = true) (t : Text) :
    decode (encode set t) = t := by
  have := octets_encode_append set h t []
  simp only [List.append_nil] at this
  rw [decode, this, octets, List.append_nil, Utf8.decodeLossy_encode]

end LogShipper.Url
