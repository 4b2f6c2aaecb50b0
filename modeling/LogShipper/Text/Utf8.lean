import LogShipper.Text.Basic

/-!
# UTF-8

Octets to characters and back. `pieces` cuts a row of octets into characters and broken
sequences, where a broken sequence is the longest start of a character that the octets hold at
that place, or else one octet. Reading with replacement keeps the characters and puts U+FFFD for
each broken sequence; strict reading stops at the first one and says where it stands.
-/

namespace LogShipper.Utf8

/-! ## Writing -/

/-- The octets of one character. -/
def encodeChar (c : Char) : List UInt8 :=
  let n := c.toNat
  let tail (bits : Nat) : UInt8 := .ofNat (0x80 + bits % 64)
  if n < 0x80 then [.ofNat n]
  else if n < 0x800 then [.ofNat (0xC0 + n / 0x40), tail n]
  else if n < 0x10000 then [.ofNat (0xE0 + n / 0x1000), tail (n / 0x40), tail n]
  else [.ofNat (0xF0 + n / 0x40000), tail (n / 0x1000), tail (n / 0x40), tail n]

/-- The octets of a text. -/
def encode (t : Text) : List UInt8 := t.flatMap encodeChar

@[simp] theorem encode_nil : encode [] = [] := rfl

@[simp] theorem encode_cons (c : Char) (t : Text) : encode (c :: t) = encodeChar c ++ encode t := by
  simp [encode]

@[simp] theorem encode_append (s t : Text) : encode (s ++ t) = encode s ++ encode t := by
  simp [encode]

/-- The number of octets of a text. -/
def size (t : Text) : Nat := (encode t).length

/-! ## Reading -/

/-- What a first octet announces: the bits that it holds, the number of octets that follow, and
the least and greatest second octet. -/
structure Lead where
  bits : Nat
  follows : Nat
  low : Nat
  high : Nat
deriving DecidableEq, Repr

/-- The first octets of the characters. The narrower windows leave out the overlong forms, the
surrogates and all above U+10FFFF. -/
def Lead.ofOctet? (octet : UInt8) : Option Lead :=
  let b := octet.toNat
  if b < 0x80 then some ⟨b, 0, 0x80, 0xBF⟩
  else if b < 0xC2 then none
  else if b < 0xE0 then some ⟨b - 0xC0, 1, 0x80, 0xBF⟩
  else if b = 0xE0 then some ⟨0, 2, 0xA0, 0xBF⟩
  else if b = 0xED then some ⟨0xD, 2, 0x80, 0x9F⟩
  else if b < 0xF0 then some ⟨b - 0xE0, 2, 0x80, 0xBF⟩
  else if b = 0xF0 then some ⟨0, 3, 0x90, 0xBF⟩
  else if b < 0xF4 then some ⟨b - 0xF0, 3, 0x80, 0xBF⟩
  else if b = 0xF4 then some ⟨4, 3, 0x80, 0x8F⟩
  else none

/-- A character, or a sequence of octets that stands for none. -/
inductive Piece where
  | char (c : Char)
  /-- The number of octets, and whether the input ended before the sequence was complete. -/
  | broken (octets : Nat) (cut : Bool)
deriving DecidableEq, Repr

/-- Reads the octets that follow a first octet, given the bits and the number of octets so far. -/
def tail (bits taken : Nat) : Nat → Nat → Nat → List UInt8 → Piece × List UInt8
  | 0, _, _, rest => (.char (Char.ofNat bits), rest)
  | _ + 1, _, _, [] => (.broken taken true, [])
  | n + 1, low, high, b :: rest =>
    if low ≤ b.toNat ∧ b.toNat ≤ high then
      tail (bits * 64 + (b.toNat - 0x80)) (taken + 1) n 0x80 0xBF rest
    else (.broken taken false, b :: rest)

/-- Reads one piece from the octets that start with `b`. -/
def next (b : UInt8) (rest : List UInt8) : Piece × List UInt8 :=
  match Lead.ofOctet? b with
  | none => (.broken 1 false, rest)
  | some lead => tail lead.bits 1 lead.follows lead.low lead.high rest

theorem length_tail_le (bits taken n low high : Nat) (rest : List UInt8) :
    (tail bits taken n low high rest).2.length ≤ rest.length := by
  induction n generalizing bits taken low high rest with
  | zero => simp [tail]
  | succ n ih =>
    cases rest with
    | nil => simp [tail]
    | cons b rest =>
      simp only [tail]
      split
      · exact Nat.le_succ_of_le (ih ..)
      · simp

theorem length_next_le (b : UInt8) (rest : List UInt8) : (next b rest).2.length ≤ rest.length := by
  unfold next
  split
  · simp
  · exact length_tail_le ..

/-- The pieces of a row of octets. -/
def pieces : List UInt8 → List Piece
  | [] => []
  | b :: rest => (next b rest).1 :: pieces (next b rest).2
termination_by octets => octets.length
decreasing_by exact Nat.lt_succ_of_le (length_next_le b rest)

/-- Reads the octets, with U+FFFD for each broken sequence. -/
def decodeLossy (octets : List UInt8) : Text :=
  (pieces octets).map fun
    | .char c => c
    | .broken .. => Char.ofNat 0xFFFD

/-- Why octets are not the octets of a text. -/
inductive Fault where
  /-- A sequence of octets at the given place stands for no character. -/
  | invalid (octets position : Nat)
  /-- The octets end within the character that begins at the given place. -/
  | incomplete (position : Nat)
deriving DecidableEq, Repr

/-- The wording of a fault. -/
def Fault.message : Fault → Text
  | .invalid octets position =>
    "invalid utf-8 sequence of " ++ Nat.toDigits 10 octets ++ " bytes from index "
      ++ Nat.toDigits 10 position
  | .incomplete position =>
    "incomplete utf-8 byte sequence from index " ++ Nat.toDigits 10 position

/-- The characters of the pieces, which begin at the given place. -/
def collect (position : Nat) : List Piece → Except Fault Text
  | [] => .ok []
  | .char c :: rest => (collect (position + (encodeChar c).length) rest).map (c :: ·)
  | .broken octets cut :: _ => .error (if cut then .incomplete position else .invalid octets position)

/-- Reads the octets of a text, and nothing else. -/
def decode (octets : List UInt8) : Except Fault Text := collect 0 (pieces octets)

/-! ## Writing, then reading -/

theorem toNat_ofNat_of_lt {n : Nat} (h : n < 256) : (UInt8.ofNat n).toNat = n := by
  simp [UInt8.toNat_ofNat', Nat.mod_eq_of_lt h]

/-- An octet within the window is taken. -/
theorem tail_cons {bits taken n low high m : Nat} {rest : List UInt8} (hm : m < 256)
    (hlow : low ≤ m) (hhigh : m ≤ high) :
    tail bits taken (n + 1) low high (.ofNat m :: rest) =
      tail (bits * 64 + (m - 0x80)) (taken + 1) n 0x80 0xBF rest := by
  simp [tail, toNat_ofNat_of_lt hm, hlow, hhigh]

theorem next_ofNat {m : Nat} {l : Lead} {rest : List UInt8}
    (h : Lead.ofOctet? (.ofNat m) = some l) :
    next (.ofNat m) rest = tail l.bits 1 l.follows l.low l.high rest := by
  simp [next, h]

/-- The octets of a character, whatever follows, are read as that character. -/
theorem next_encodeChar (c : Char) (rest : List UInt8) :
    ∃ b more, encodeChar c = b :: more ∧ next b (more ++ rest) = (.char c, rest) := by
  have hvalid : c.toNat < 0xD800 ∨ (0xDFFF < c.toNat ∧ c.toNat < 0x110000) := c.valid
  have hchar : Char.ofNat c.toNat = c := Char.ofNat_toNat c
  generalize hcn : c.toNat = n at *
  have hend : ∀ bits taken low high, bits = n →
      tail bits taken 0 low high rest = (.char c, rest) := by
    rintro _ _ _ _ rfl; simp [tail, hchar]
  unfold encodeChar
  simp only [hcn]
  split
  · refine ⟨_, _, rfl, ?_⟩
    rw [next_ofNat (l := ⟨n, 0, 0x80, 0xBF⟩)]
    · exact hend _ _ _ _ rfl
    · simp only [Lead.ofOctet?, toNat_ofNat_of_lt (show n < 256 by omega)]
      rw [if_pos (by omega)]
  split
  · refine ⟨_, _, rfl, ?_⟩
    rw [next_ofNat (l := ⟨n / 64, 1, 0x80, 0xBF⟩)]
    · simp only [List.cons_append, List.nil_append]
      rw [tail_cons (by omega) (by omega) (by omega)]
      exact hend _ _ _ _ (by omega)
    · simp only [Lead.ofOctet?, toNat_ofNat_of_lt (show 0xC0 + n / 64 < 256 by omega)]
      rw [if_neg (by omega), if_neg (by omega), if_pos (by omega)]
      simp
  split
  · refine ⟨_, _, rfl, ?_⟩
    have hwindow : ∃ low high, Lead.ofOctet? (.ofNat (0xE0 + n / 0x1000)) =
        some ⟨n / 0x1000, 2, low, high⟩ ∧ low ≤ 0x80 + n / 0x40 % 64 ∧ 0x80 + n / 0x40 % 64 ≤ high := by
      simp only [Lead.ofOctet?, toNat_ofNat_of_lt (show 0xE0 + n / 0x1000 < 256 by omega)]
      rw [if_neg (by omega), if_neg (by omega), if_neg (by omega)]
      by_cases h0 : n / 0x1000 = 0
      · exact ⟨0xA0, 0xBF, by rw [h0, if_pos rfl], by omega, by omega⟩
      by_cases hD : n / 0x1000 = 0xD
      · exact ⟨0x80, 0x9F, by rw [hD, if_neg (by decide), if_pos rfl], by omega, by omega⟩
      · exact ⟨0x80, 0xBF, by
          rw [if_neg (by omega), if_neg (by omega), if_pos (by omega), Nat.add_sub_cancel_left],
          by omega, by omega⟩
    obtain ⟨low, high, hlead, hlow, hhigh⟩ := hwindow
    rw [next_ofNat hlead]
    simp only [List.cons_append, List.nil_append]
    rw [tail_cons (by omega) (by omega) (by omega), tail_cons (by omega) (by omega) (by omega)]
    exact hend _ _ _ _ (by omega)
  · refine ⟨_, _, rfl, ?_⟩
    have hwindow : ∃ low high, Lead.ofOctet? (.ofNat (0xF0 + n / 0x40000)) =
        some ⟨n / 0x40000, 3, low, high⟩ ∧ low ≤ 0x80 + n / 0x1000 % 64 ∧
          0x80 + n / 0x1000 % 64 ≤ high := by
      simp only [Lead.ofOctet?, toNat_ofNat_of_lt (show 0xF0 + n / 0x40000 < 256 by omega)]
      rw [if_neg (by omega), if_neg (by omega), if_neg (by omega), if_neg (by omega),
        if_neg (by omega), if_neg (by omega)]
      by_cases h0 : n / 0x40000 = 0
      · exact ⟨0x90, 0xBF, by rw [h0, if_pos rfl], by omega, by omega⟩
      by_cases h4 : n / 0x40000 = 4
      · exact ⟨0x80, 0x8F, by rw [h4, if_neg (by decide), if_neg (by decide), if_pos rfl], by omega, by omega⟩
      · exact ⟨0x80, 0xBF, by rw [if_neg (by omega), if_pos (by omega), Nat.add_sub_cancel_left],
          by omega, by omega⟩
    obtain ⟨low, high, hlead, hlow, hhigh⟩ := hwindow
    rw [next_ofNat hlead]
    simp only [List.cons_append, List.nil_append]
    rw [tail_cons (by omega) (by omega) (by omega), tail_cons (by omega) (by omega) (by omega),
      tail_cons (by omega) (by omega) (by omega)]
    exact hend _ _ _ _ (by omega)

theorem pieces_encode_append (t : Text) (rest : List UInt8) :
    pieces (encode t ++ rest) = t.map .char ++ pieces rest := by
  induction t with
  | nil => simp
  | cons c t ih =>
    obtain ⟨b, more, hb, hnext⟩ := next_encodeChar c (encode t ++ rest)
    rw [encode_cons, hb, List.append_assoc, List.cons_append, pieces, hnext]
    simp [ih]

@[simp] theorem pieces_encode (t : Text) : pieces (encode t) = t.map .char := by
  simpa [pieces] using pieces_encode_append t []

/-- The octets of a text are read back as it. -/
@[simp] theorem decodeLossy_encode (t : Text) : decodeLossy (encode t) = t := by
  simp [decodeLossy, Function.comp_def]

theorem collect_map_char (position : Nat) (t : Text) : collect position (t.map .char) = .ok t := by
  induction t generalizing position with
  | nil => rfl
  | cons c t ih => simp [collect, ih, Except.map]

theorem map_of_collect {position : Nat} {pieces : List Piece} {t : Text}
    (h : collect position pieces = .ok t) : pieces = t.map .char := by
  induction pieces generalizing position t with
  | nil =>
    obtain rfl := Except.ok.inj h
    rfl
  | cons piece pieces ih =>
    cases piece with
    | char c =>
      unfold collect at h
      cases hrest : collect (position + (encodeChar c).length) pieces with
      | ok rest =>
        rw [hrest] at h
        obtain rfl := Except.ok.inj h
        rw [ih hrest, List.map_cons]
      | error fault =>
        rw [hrest] at h
        cases h
    | broken octets cut => cases h

/-- What strict reading accepts, the other reading reads in the same way. -/
theorem decodeLossy_of_decode {octets : List UInt8} {t : Text} (h : decode octets = .ok t) :
    decodeLossy octets = t := by
  unfold decodeLossy
  rw [map_of_collect h, List.map_map]
  exact List.map_id t

/-- Strict reading accepts the octets of a text. -/
@[simp] theorem decode_encode (t : Text) : decode (encode t) = .ok t := by
  simp [decode, collect_map_char]

end LogShipper.Utf8
