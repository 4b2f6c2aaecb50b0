import LogShipper.Text.Basic

/-!
# Punycode

A text in the letters, digits and hyphens of ASCII. Its ASCII characters come first, with a hyphen
after them if there are any. The other characters follow in the order of their code points, each as
a number: how many steps lie between its insertion and the one before. A step is one place of the
text so far, and after the last place the next code point starts again at the first.

A number is a row of digits of growing weight, of which the last is smaller than a bound. The bounds
depend on how large the numbers before were.
-/

namespace LogShipper.Url.Punycode

/-! ## Digits -/

/-- The digit for a number below 36. -/
def digit (n : Nat) : Char := if n < 26 then .ofNat (97 + n) else .ofNat (22 + n)

/-- The number that a digit stands for. -/
def digitValue? (c : Char) : Option Nat :=
  if 97 ≤ c.toNat ∧ c.toNat ≤ 122 then some (c.toNat - 97)
  else if c.isDigit then some (c.toNat - 22)
  else none

theorem digitValue?_digit : ∀ n < 36, digitValue? (digit n) = some n := by decide

/-- The bound that the last digit stays below; `place` grows by 36 with every digit. -/
def bound (bias place : Nat) : Nat := min 26 (max 1 (place - bias))

theorem one_le_bound (bias place : Nat) : 1 ≤ bound bias place := by
  unfold bound
  omega

/-- The bias that suits numbers like `n`. -/
def biasOf (place n : Nat) : Nat :=
  if h : 455 < n then biasOf (place + 36) (n / 35) else place + 36 * n / (n + 38)
termination_by n
decreasing_by omega

/-- The bias after a number, the first or a later one, that made the text as long as said. -/
def nextBias (first : Bool) (n length : Nat) : Nat :=
  let scaled := if first then n / 700 else n / 2
  biasOf 0 (scaled + scaled / length)

/-- The bias before the first number. -/
def firstBias : Nat := 72

/-- The first code point that is not ASCII. -/
def firstCode : Nat := 0x80

/-! ## Writing -/

/-- The digits of a number. -/
def digits (bias place n : Nat) : Text :=
  let b := bound bias place
  if h : n < b then [digit n]
  else digit (b + (n - b) % (36 - b)) :: digits bias (place + 36) ((n - b) / (36 - b))
termination_by n
decreasing_by
  have hpos := one_le_bound bias place
  exact Nat.lt_of_le_of_lt (Nat.div_le_self _ _) (by omega)

/-- A text that is being written. -/
structure Writer where
  written : Text := []
  /-- The steps since the last insertion. -/
  steps : Nat := 0
  bias : Nat := firstBias
  first : Bool := true
  /-- How many characters are in place. -/
  length : Nat

/-- Passes one character of the text in the round of a code point. -/
def Writer.pass (code : Nat) (w : Writer) (c : Char) : Writer :=
  if c.toNat < code then { w with steps := w.steps + 1 }
  else if c.toNat = code then
    { written := w.written ++ digits w.bias 36 w.steps
      bias := nextBias w.first w.steps (w.length + 1)
      first := false
      length := w.length + 1 }
  else w

/-- Writes the characters of a text that have the given code points, which grow, where `next` is the
code point whose round would be next. -/
def Writer.writeCodes (t : Text) (next : Nat) (w : Writer) : List Nat → Writer
  | [] => w
  | code :: codes =>
    let w := t.foldl (pass code) { w with steps := w.steps + (code - next) * (w.length + 1) }
    writeCodes t (code + 1) { w with steps := w.steps + 1 } codes

/-- Whether a character is ASCII. -/
def isAscii (c : Char) : Bool := c.toNat < firstCode

/-- The Punycode of a text. -/
def encode (t : Text) : Text :=
  let basic := t.filter isAscii
  let codes := ((t.filter fun c => !isAscii c).map Char.toNat).mergeSort.eraseDups
  let w : Writer := { length := basic.length }
  (if basic.isEmpty then [] else basic ++ ['-']) ++ (w.writeCodes t firstCode codes).written

/-! ## Reading -/

/-- Reads a number, whose digits from here on count `weight` times. -/
def readNumber? (bias place weight : Nat) : Text → Option (Nat × Text)
  | [] => none
  | c :: t =>
    match digitValue? c with
    | none => none
    | some d =>
      let b := bound bias place
      if d < b then some (d * weight, t)
      else (readNumber? bias (place + 36) (weight * (36 - b)) t).map fun rest =>
        (d * weight + rest.1, rest.2)

theorem length_of_readNumber? {bias place weight n : Nat} {t rest : Text}
    (h : readNumber? bias place weight t = some (n, rest)) : rest.length < t.length := by
  induction t generalizing place weight n with
  | nil => simp [readNumber?] at h
  | cons c t ih =>
    unfold readNumber? at h
    split at h
    · simp at h
    · rename_i d hd
      by_cases hb : d < bound bias place
      · simp only [hb, if_true, Option.some.injEq, Prod.mk.injEq] at h
        simp [h.2]
      · simp only [hb, if_false, Option.map_eq_some_iff, Prod.mk.injEq] at h
        obtain ⟨pair, hpair, -, hrest⟩ := h
        have hlength := ih (n := pair.1) (by rw [hpair, ← hrest])
        simp only [List.length_cons]
        omega

/-- A text that is being read. -/
structure Reader where
  text : Text
  /-- The code point of the round. -/
  code : Nat := firstCode
  /-- The place of the round. -/
  place : Nat := 0
  bias : Nat := firstBias
  first : Bool := true

/-- Inserts the character that lies some steps ahead. -/
def Reader.insert? (r : Reader) (steps : Nat) : Option Reader :=
  let length := r.text.length + 1
  let code := r.code + (r.place + steps) / length
  let place := (r.place + steps) % length
  if code.isValidChar then
    some {
      text := r.text.take place ++ .ofNat code :: r.text.drop place
      code
      place := place + 1
      bias := nextBias r.first steps length
      first := false }
  else none

/-- Reads numbers and inserts their characters. -/
def Reader.read? (r : Reader) (t : Text) : Option Text :=
  if t.isEmpty then some r.text
  else match h : readNumber? r.bias 36 1 t with
    | none => none
    | some (steps, rest) =>
      have := length_of_readNumber? h
      match r.insert? steps with
      | none => none
      | some r => read? r rest
termination_by t.length

/-- The text of which something is the Punycode. The last hyphen ends the ASCII characters, if there
are any. -/
def decode? (t : Text) : Option Text :=
  let ending := (t.reverse.takeWhile (· ≠ '-')).reverse
  let basic := t.take (t.length - ending.length - 1)
  if basic.all isAscii then
    ({ text := basic } : Reader).read? (if basic.isEmpty then t else ending)
  else none

end LogShipper.Url.Punycode
