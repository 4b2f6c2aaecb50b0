import LogShipper.Wire.Line
import Mathlib.Data.List.TakeWhile

/-!
# Reading lines back

How a collector reads a line.  The line is cut at the ASCII spaces that stand outside double quotes;
the first token is the kind of the line, and each further one is a field, told by its first two
characters.  A value is either bare, or it stands between double quotes, where each quote is written
twice.  The name of a tag or a metric ends at an equals sign: the one just before the opening quote,
or, for a bare value, the last one.

The reader knows nothing of how lines are written.  `decode_line` says that it gets back the fields
that were written, as long as names hold neither spaces nor quotes (`IsName`); the values may be any
text.
-/

namespace LogShipper.Wire

/-! ## The reader -/

/-- Puts a character in front of the first token. -/
def startWith (c : Char) : List Text → List Text
  | [] => [[c]]
  | token :: rest => (c :: token) :: rest

/-- Whether a quote is open after a character. -/
def toggle (quoted : Bool) (c : Char) : Bool := if c = '"' then !quoted else quoted

/-- Cuts at the spaces outside quotes, where `quoted` says whether a quote is open. -/
def tokensFrom (quoted : Bool) : Text → List Text
  | [] => [[]]
  | c :: t =>
    if c = ' ' ∧ quoted = false then [] :: tokensFrom false t
    else startWith c (tokensFrom (toggle quoted c) t)

/-- The tokens of a line. -/
def tokens (line : Text) : List Text := tokensFrom false line

/-- Reads the rest of a value whose opening quote was read, up to the closing one. -/
def readQuoted? : Text → Option Text
  | [] => none
  | c :: t =>
    if c = '"' then
      match t with
      | [] => some []
      | d :: t => if d = '"' then (readQuoted? t).map ('"' :: ·) else none
    else (readQuoted? t).map (c :: ·)

/-- Reads a value, which is bare or quoted. -/
def readValue? : Text → Option Text
  | [] => some []
  | c :: t => if c = '"' then readQuoted? t else some (c :: t)

/-- Cuts at the last equals sign. -/
def cutAtLast? : Text → Option (Text × Text)
  | [] => none
  | c :: t =>
    match cutAtLast? t with
    | some (name, value) => some (c :: name, value)
    | none => if c = '=' then some ([], t) else none

/-- Splits a name and a value: at the equals sign just before the first quote, or at the last one
if there is no quote. -/
def splitNamed? (token : Text) : Option (Text × Text) :=
  let before := token.takeWhile fun c => c ≠ '"'
  let quoted := token.dropWhile fun c => c ≠ '"'
  if quoted = [] then cutAtLast? token
  else if before.getLast? = some '=' then some (before.dropLast, quoted)
  else none

/-- Reads a number: at least one digit, after a minus sign if it is negative. -/
def readInt? : Text → Option Int
  | [] => none
  | c :: t =>
    let digits := if c = '-' then t else c :: t
    if digits.isEmpty || !digits.all Char.isDigit then none
    else some (if c = '-' then -(Decimal.value digits : Int) else Decimal.value digits)

/-- A field of a line. -/
inductive Field where
  | entity (name : Text)
  | tag (key value : Text)
  | metric (name : Text) (value : Int)
  | body (text : Text)
deriving DecidableEq, Repr

/-- The kind of the lines that carry a text; all other lines carry numbers. -/
def messageKind : Text := "message"

/-- Reads a field of a line of some kind. -/
def readField? (kind : Text) : Text → Option Field
  | 'e' :: ':' :: name => some (.entity name)
  | 't' :: ':' :: rest =>
    (splitNamed? rest).bind fun split => (readValue? split.2).map (.tag split.1)
  | 'm' :: ':' :: rest =>
    if kind = messageKind then (readValue? rest).map .body
    else (splitNamed? rest).bind fun split => (readInt? split.2).map (.metric split.1)
  | _ => none

/-- What a line says: its kind and its fields. -/
structure Decoded where
  kind : Text
  fields : List Field
deriving DecidableEq, Repr

/-- Reads a line. -/
def decode (line : Text) : Option Decoded :=
  match tokens line with
  | [] => none
  | kind :: rest => (rest.mapM (readField? kind)).map fun fields => ⟨kind, fields⟩

/-! ## Tokens -/

/-- Whether a quote is open after a text that is a part of one token; nothing if the text has a
space outside quotes. -/
def quotedAfter? (quoted : Bool) : Text → Option Bool
  | [] => some quoted
  | c :: t => if c = ' ' ∧ quoted = false then none else quotedAfter? (toggle quoted c) t

theorem quotedAfter?_append (quoted : Bool) (s t : Text) :
    quotedAfter? quoted (s ++ t) = (quotedAfter? quoted s).bind fun q => quotedAfter? q t := by
  induction s generalizing quoted with
  | nil => rfl
  | cons c s ih =>
    rw [List.cons_append, quotedAfter?, quotedAfter?]
    split
    · rfl
    · exact ih _

/-- A token that leaves no quote open ends at the next space. -/
theorem tokensFrom_append_space {quoted : Bool} {t : Text} (h : quotedAfter? quoted t = some false)
    (rest : Text) : tokensFrom quoted (t ++ ' ' :: rest) = t :: tokensFrom false rest := by
  induction t generalizing quoted with
  | nil =>
    obtain rfl := Option.some.inj h
    rfl
  | cons c t ih =>
    rw [quotedAfter?] at h
    split at h
    · cases h
    · rename_i hspace
      rw [List.cons_append, tokensFrom, if_neg hspace, ih h]
      rfl

/-- A token at the end of a line. -/
theorem tokensFrom_of_quotedAfter? {quoted q : Bool} {t : Text}
    (h : quotedAfter? quoted t = some q) : tokensFrom quoted t = [t] := by
  induction t generalizing quoted with
  | nil => rfl
  | cons c t ih =>
    rw [quotedAfter?] at h
    split at h
    · cases h
    · rename_i hspace
      rw [tokensFrom, if_neg hspace, ih h]
      rfl

/-- Texts that are tokens are the tokens of the line made of them. -/
theorem tokens_flatMap {first : Text} (hfirst : quotedAfter? false first = some false)
    {rest : List Text} (hrest : ∀ t ∈ rest, quotedAfter? false t = some false) :
    tokens (first ++ rest.flatMap (' ' :: ·)) = first :: rest := by
  induction rest generalizing first with
  | nil =>
    rw [List.flatMap_nil, List.append_nil]
    exact tokensFrom_of_quotedAfter? hfirst
  | cons second rest ih =>
    have hsecond := hrest second List.mem_cons_self
    have htail : ∀ t ∈ rest, quotedAfter? false t = some false :=
      fun t ht => hrest t (List.mem_cons_of_mem _ ht)
    rw [List.flatMap_cons]
    apply (tokensFrom_append_space hfirst _).trans
    exact congrArg (first :: ·) (ih hsecond htail)

/-! ## Names -/

/-- A name is a part of a token in which no quote stands. -/
def IsName (t : Text) : Prop := ∀ c ∈ t, c ≠ ' ' ∧ c ≠ '"'

instance (t : Text) : Decidable (IsName t) :=
  List.decidableBAll (fun c => c ≠ ' ' ∧ c ≠ '"') t

theorem IsName.quotedAfter? {t : Text} (h : IsName t) (quoted : Bool) :
    quotedAfter? quoted t = some quoted := by
  induction t with
  | nil => rfl
  | cons c t ih =>
    obtain ⟨hspace, hquote⟩ := h c List.mem_cons_self
    rw [Wire.quotedAfter?, if_neg fun hc => hspace hc.1, toggle, if_neg hquote]
    exact ih fun d hd => h d (List.mem_cons_of_mem _ hd)

/-! ## Values -/

theorem doubleQuotes_cons (c : Char) (t : Text) :
    doubleQuotes (c :: t) = (if c = '"' then ['"', '"'] else [c]) ++ doubleQuotes t := rfl

/-- Doubled quotes leave a quote open that was open before. -/
theorem quotedAfter?_doubleQuotes (value : Text) :
    quotedAfter? true (doubleQuotes value) = some true := by
  induction value with
  | nil => rfl
  | cons c value ih =>
    rw [doubleQuotes_cons, quotedAfter?_append]
    by_cases hc : c = '"'
    · rw [if_pos hc]
      exact ih
    · rw [if_neg hc]
      have hopen : quotedAfter? true [c] = some true := by simp [quotedAfter?, toggle, hc]
      rw [hopen]
      exact ih

/-- A bare value has neither spaces, nor equals signs, nor quotes. -/
theorem of_not_needsQuotes {value : Text} (h : needsQuotes value = false) {c : Char}
    (hc : c ∈ value) : c ≠ ' ' ∧ c ≠ '=' ∧ c ≠ '"' := by
  unfold needsQuotes at h
  rw [Bool.or_eq_false_iff, List.any_eq_false] at h
  have hplain := h.2 c hc
  simp only [Bool.or_eq_true, decide_eq_true_eq, not_or] at hplain
  exact ⟨hplain.1.1.1, hplain.1.1.2, hplain.2⟩

/-- A written value is a part of one token. -/
theorem quotedAfter?_escapeValue (value : Text) :
    quotedAfter? false (escapeValue value) = some false := by
  cases h : needsQuotes value with
  | false =>
    rw [escapeValue_of_not_needsQuotes h]
    refine IsName.quotedAfter? (fun c hc => ?_) false
    obtain ⟨hspace, -, hquote⟩ := of_not_needsQuotes h hc
    exact ⟨hspace, hquote⟩
  | true =>
    rw [escapeValue_of_needsQuotes h]
    have hopen : quotedAfter? true (doubleQuotes value ++ ['"']) = some false := by
      rw [quotedAfter?_append, quotedAfter?_doubleQuotes]
      rfl
    exact hopen

theorem readQuoted?_doubleQuotes (value : Text) :
    readQuoted? (doubleQuotes value ++ ['"']) = some value := by
  induction value with
  | nil => rfl
  | cons c value ih =>
    rw [doubleQuotes_cons]
    by_cases hc : c = '"'
    · rw [if_pos hc, hc]
      simp [readQuoted?, ih]
    · rw [if_neg hc, List.singleton_append, List.cons_append]
      unfold readQuoted?
      rw [if_neg hc, ih]
      rfl

/-- A written value is read back. -/
theorem readValue?_escapeValue (value : Text) : readValue? (escapeValue value) = some value := by
  cases h : needsQuotes value with
  | false =>
    rw [escapeValue_of_not_needsQuotes h]
    cases value with
    | nil => rfl
    | cons c value =>
      obtain ⟨-, -, hquote⟩ := of_not_needsQuotes h List.mem_cons_self
      exact if_neg hquote
  | true =>
    rw [escapeValue_of_needsQuotes h]
    exact readQuoted?_doubleQuotes value

theorem cutAtLast?_eq_none {t : Text} (h : ∀ c ∈ t, c ≠ '=') : cutAtLast? t = none := by
  induction t with
  | nil => rfl
  | cons c t ih =>
    rw [cutAtLast?, ih fun d hd => h d (List.mem_cons_of_mem _ hd)]
    exact if_neg (h c List.mem_cons_self)

theorem cutAtLast?_append (name : Text) {value : Text} (h : ∀ c ∈ value, c ≠ '=') :
    cutAtLast? (name ++ '=' :: value) = some (name, value) := by
  induction name with
  | nil =>
    rw [List.nil_append, cutAtLast?, cutAtLast?_eq_none h]
    rfl
  | cons c name ih =>
    rw [List.cons_append, cutAtLast?, ih]

/-- A name without quotes is split from a bare value at the last equals sign. -/
theorem splitNamed?_of_bare {name value : Text} (hname : IsName name)
    (hvalue : ∀ c ∈ value, c ≠ '=' ∧ c ≠ '"') :
    splitNamed? (name ++ '=' :: value) = some (name, value) := by
  have hnone : (name ++ '=' :: value).dropWhile (fun c => c ≠ '"') = [] := by
    refine List.dropWhile_eq_nil_iff.2 fun c hc => decide_eq_true ?_
    rcases List.mem_append.1 hc with hc | hc
    · exact (hname c hc).2
    · rcases List.mem_cons.1 hc with rfl | hc
      · decide
      · exact (hvalue c hc).2
  unfold splitNamed?
  dsimp only
  rw [if_pos hnone]
  exact cutAtLast?_append name fun c hc => (hvalue c hc).1

/-- A name without quotes is split from a quoted value at the equals sign before it. -/
theorem splitNamed?_of_quoted {name : Text} (hname : IsName name) (value : Text) :
    splitNamed? (name ++ '=' :: '"' :: value) = some (name, '"' :: value) := by
  have hplain : ∀ c ∈ name ++ ['='], decide (c ≠ '"') = true := by
    intro c hc
    apply decide_eq_true
    rcases List.mem_append.1 hc with hc | hc
    · exact (hname c hc).2
    · obtain rfl := List.mem_singleton.1 hc
      decide
  have hsplit : name ++ '=' :: '"' :: value = (name ++ ['=']) ++ '"' :: value := by simp
  unfold splitNamed?
  dsimp only
  rw [hsplit, List.takeWhile_append_of_pos hplain, List.dropWhile_append_of_pos hplain]
  simp

theorem splitNamed?_escapeValue {name : Text} (hname : IsName name) (value : Text) :
    splitNamed? (name ++ '=' :: escapeValue value) = some (name, escapeValue value) := by
  cases h : needsQuotes value with
  | false =>
    rw [escapeValue_of_not_needsQuotes h]
    refine splitNamed?_of_bare hname fun c hc => ?_
    obtain ⟨-, hequals, hquote⟩ := of_not_needsQuotes h hc
    exact ⟨hequals, hquote⟩
  | true =>
    rw [escapeValue_of_needsQuotes h]
    exact splitNamed?_of_quoted hname _

/-! ## Numbers -/

/-- A written number has neither spaces, nor equals signs, nor quotes. -/
theorem of_mem_ofInt {value : Int} {c : Char} (h : c ∈ Decimal.ofInt value) :
    c ≠ ' ' ∧ c ≠ '=' ∧ c ≠ '"' := by
  have hplain : ∀ {n : Nat}, c ∈ Decimal.ofNat n → c ≠ ' ' ∧ c ≠ '=' ∧ c ≠ '"' := by
    intro n hc
    have hdigit := Decimal.isDigit_of_mem_ofNat hc
    refine ⟨?_, ?_, ?_⟩ <;>
    · rintro rfl
      exact absurd hdigit (by decide)
  cases value with
  | ofNat n => exact hplain h
  | negSucc n =>
    rcases List.mem_cons.1 h with rfl | hdigit
    · decide
    · exact hplain hdigit

/-- A written number is read back. -/
theorem readInt?_ofInt (value : Int) : readInt? (Decimal.ofInt value) = some value := by
  have hdigits : ∀ n : Nat,
      ((Decimal.ofNat n).isEmpty || !(Decimal.ofNat n).all Char.isDigit) = false := by
    intro n
    have hall : (Decimal.ofNat n).all Char.isDigit = true :=
      List.all_eq_true.2 fun c hc => Decimal.isDigit_of_mem_ofNat hc
    simp [hall, Decimal.ofNat_ne_nil]
  cases value with
  | ofNat n =>
    show readInt? (Decimal.ofNat n) = _
    have hn := hdigits n
    have hvalue := Decimal.value_ofNat n
    cases htext : Decimal.ofNat n with
    | nil => exact absurd htext (Decimal.ofNat_ne_nil n)
    | cons c t =>
      have hminus : c ≠ '-' := by
        rintro rfl
        have hdigit := Decimal.isDigit_of_mem_ofNat (htext ▸ List.mem_cons_self : '-' ∈ Decimal.ofNat n)
        exact absurd hdigit (by decide)
      rw [htext] at hn hvalue
      unfold readInt?
      dsimp only
      rw [if_neg hminus, if_neg hminus, hn, hvalue]
      rfl
  | negSucc n =>
    show readInt? ('-' :: Decimal.ofNat (n + 1)) = _
    unfold readInt?
    dsimp only
    rw [if_pos rfl, if_pos rfl, hdigits, Decimal.value_ofNat]
    rfl

/-! ## Fields -/

/-- A field as it stands on a line. -/
def Field.token : Field → Text
  | .entity name => 'e' :: ':' :: name
  | .tag key value => 't' :: ':' :: (key ++ '=' :: escapeValue value)
  | .metric name value => 'm' :: ':' :: (name ++ '=' :: Decimal.ofInt value)
  | .body text => 'm' :: ':' :: escapeValue text

/-- Whether a field can stand on a line of some kind: its name is one, and the line carries what it
carries. -/
def Field.Fits (kind : Text) : Field → Prop
  | .entity name => IsName name
  | .tag key _ => IsName key
  | .metric name _ => IsName name ∧ kind ≠ messageKind
  | .body _ => kind = messageKind

/-- A field stands on a line as one token. -/
theorem Field.Fits.quotedAfter?_token {kind : Text} {f : Field} (h : f.Fits kind) :
    quotedAfter? false f.token = some false := by
  have hafter : ∀ (c : Char) {rest : Text}, c ≠ ' ' → c ≠ '"' →
      quotedAfter? false rest = some false → quotedAfter? false (c :: ':' :: rest) = some false := by
    intro c rest hspace hquote hrest
    simpa [quotedAfter?, toggle, hspace, hquote] using hrest
  have hnamed : ∀ {name rest : Text}, IsName name → quotedAfter? false rest = some false →
      quotedAfter? false (name ++ '=' :: rest) = some false := by
    intro name rest hname hrest
    rw [quotedAfter?_append, hname.quotedAfter?]
    simpa [quotedAfter?, toggle] using hrest
  cases f with
  | entity name => exact hafter 'e' (by decide) (by decide) (h.quotedAfter? false)
  | tag key value =>
    exact hafter 't' (by decide) (by decide) (hnamed h (quotedAfter?_escapeValue value))
  | metric name value =>
    have hvalue : IsName (Decimal.ofInt value) := by
      intro c hc
      obtain ⟨hspace, -, hquote⟩ := of_mem_ofInt hc
      exact ⟨hspace, hquote⟩
    exact hafter 'm' (by decide) (by decide) (hnamed h.1 (hvalue.quotedAfter? false))
  | body text => exact hafter 'm' (by decide) (by decide) (quotedAfter?_escapeValue text)

/-- A field is read back from its token. -/
theorem Field.Fits.readField?_token {kind : Text} {f : Field} (h : f.Fits kind) :
    readField? kind f.token = some f := by
  cases f with
  | entity name => rfl
  | tag key value =>
    show (splitNamed? _).bind _ = _
    rw [splitNamed?_escapeValue h, Option.bind_some, readValue?_escapeValue]
    rfl
  | metric name value =>
    obtain ⟨hname, hkind⟩ := h
    show (if kind = messageKind then _ else _) = _
    have hvalue : ∀ c ∈ Decimal.ofInt value, c ≠ '=' ∧ c ≠ '"' := by
      intro c hc
      obtain ⟨-, hequals, hquote⟩ := of_mem_ofInt hc
      exact ⟨hequals, hquote⟩
    rw [if_neg hkind, splitNamed?_of_bare hname hvalue, Option.bind_some, readInt?_ofInt]
    rfl
  | body text =>
    have hkind : kind = messageKind := h
    show (if kind = messageKind then _ else _) = _
    rw [if_pos hkind, readValue?_escapeValue]
    rfl

/-- Fields as they stand on a line, each after a space. -/
def fieldsText (fields : List Field) : Text := fields.flatMap fun f => ' ' :: f.token

@[simp] theorem fieldsText_append (xs ys : List Field) :
    fieldsText (xs ++ ys) = fieldsText xs ++ fieldsText ys := by
  simp [fieldsText]

/-- **Lines are read back.**  A line made of a kind and of fields that fit it is read as that kind
with these fields, in their order. -/
theorem decode_line {kind : Text} (hkind : IsName kind) {fields : List Field}
    (hfields : ∀ f ∈ fields, f.Fits kind) :
    decode (kind ++ fieldsText fields) = some ⟨kind, fields⟩ := by
  have htokens : tokens (kind ++ fieldsText fields) = kind :: fields.map Field.token := by
    have hrest : ∀ t ∈ fields.map Field.token, quotedAfter? false t = some false := by
      intro t ht
      obtain ⟨f, hf, rfl⟩ := List.mem_map.1 ht
      exact (hfields f hf).quotedAfter?_token
    rw [← tokens_flatMap (hkind.quotedAfter? false) hrest, List.flatMap_map]
    rfl
  have hread : (fields.map Field.token).mapM (readField? kind) = some fields := by
    clear htokens
    induction fields with
    | nil => rfl
    | cons f fields ih =>
      rw [List.map_cons, List.mapM_cons, (hfields f List.mem_cons_self).readField?_token,
        ih fun f' hf' => hfields f' (List.mem_cons_of_mem _ hf')]
      rfl
  unfold decode
  rw [htokens]
  dsimp only
  rw [hread]
  rfl

end LogShipper.Wire
