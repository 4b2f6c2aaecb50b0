import LogShipper.Text.Alphanumeric
import LogShipper.Text.Basic
import LogShipper.Url.Percent

/-!
# Patterns

Which texts are patterns, that is regular expressions: alternatives between bars, groups in
parentheses, classes in brackets, repetitions, and escapes after a backslash. A group may be named
or set modes, such as `(?x)` for blanks that do not count.

Tables of letters and of their cases are not at hand for patterns. So the classes `\d`, `\s` and
`\w`, the words between `\b`, and letters of either case stand for ASCII alone, and are refused
unless the mode `-u` says so. There are no counted repetitions, as a closing brace cannot stand in
a pattern.

A pattern is read from left to right, with the modes outside of the open groups on a stack.
-/

namespace LogShipper.Agent.Pattern

/-- How a part of a pattern is read. -/
structure Modes where
  /-- Letters stand for either case. -/
  foldsCase : Bool := false
  /-- The pattern is about octets. -/
  octets : Bool := false
  /-- Blanks do not count, nor does what follows `#` on a line. -/
  verbose : Bool := false
deriving DecidableEq, Repr

/-- Whether the modes ask for the cases of letters that are not ASCII. -/
def Modes.needsCases (modes : Modes) : Bool := modes.foldsCase && !modes.octets

/-- The text from the first character on that counts, where `comment` says whether a comment is
open. -/
def skipBlanks (comment : Bool) : Text → Text
  | [] => []
  | c :: t =>
    if comment then skipBlanks (c ≠ '\n') t
    else if isBlank c then skipBlanks false t
    else if c = '#' then skipBlanks true t
    else c :: t

/-- The text from the first character on that counts in a mode. -/
def skip (modes : Modes) (t : Text) : Text := if modes.verbose then skipBlanks false t else t

/-! ## Escapes -/

/-- What an escape stands for. -/
inductive Escape where
  | literal (c : Char)
  | charClass
  | assertion
deriving DecidableEq, Repr

/-- Whether a character other than a letter or digit may follow a backslash and stand for itself. -/
def standsForItself (c : Char) : Bool :=
  c.toNat < 0x80 && !c.isAlphanum && c ≠ '<' && c ≠ '>'

/-- The character that a fixed number of hexadecimal digits gives. -/
def readCode? (digits : Nat) (t : Text) : Option (Char × Text) :=
  let code := t.take digits
  if code.length < digits then none
  else match code.foldlM (fun n c => (hexOf? c).map (16 * n + ·)) 0 with
    | none => none
    | some n => if n.isValidChar then some (.ofNat n, t.drop digits) else none
where
  hexOf? (c : Char) : Option Nat := Url.hexValue? c

/-- Reads what follows a backslash. -/
def readEscape? (modes : Modes) : Text → Option (Escape × Text)
  | [] => none
  | c :: t =>
    if standsForItself c then some (.literal c, t)
    else if c = 'x' then
      match readCode? 2 t with
      | some (code, rest) =>
        if modes.octets && 0x80 ≤ code.toNat then none else some (.literal code, rest)
      | none => none
    else if c = 'u' then (readCode? 4 t).map fun code => (.literal code.1, code.2)
    else if c = 'a' ∨ c = 'f' ∨ c = 't' ∨ c = 'n' ∨ c = 'r' ∨ c = 'v' then
      some (.literal (control c), t)
    else if c = 'z' then some (.assertion, t)
    else if (c = 'd' ∨ c = 's' ∨ c = 'w') ∧ modes.octets then some (.charClass, t)
    else if (c = 'b' ∨ c = '<' ∨ c = '>') ∧ modes.octets then some (.assertion, t)
    else none
where
  /-- The control character that a letter stands for. -/
  control (c : Char) : Char :=
    if c = 'a' then '\x07' else if c = 'f' then '\x0c' else if c = 't' then '\t'
    else if c = 'n' then '\n' else if c = 'r' then '\x0d' else '\x0b'

/-! ## Classes -/

/-- The names of classes between `[:` and `:]`. -/
def classNames : List Text :=
  ["alnum", "alpha", "ascii", "blank", "cntrl", "digit", "graph", "lower", "print", "punct",
    "space", "upper", "word", "xdigit"]

/-- Passes a named class after its opening bracket, and says whether it is negated. -/
def passNamedClass? (t : Text) : Option (Bool × Text) :=
  match t with
  | ':' :: t =>
    let negated := t.head? = some '^'
    match Text.cutAtText? ":]" (if negated then t.drop 1 else t) with
    | some (name, rest) => if classNames.contains name then some (negated, rest) else none
    | none => none
  | _ => none

/-- Passes the start of a class after its opening bracket, and says whether it is negated. Hyphens
there stand for themselves, and so does a closing bracket before anything else. -/
def passClassStart? (modes : Modes) (t : Text) : Option (Bool × Text) :=
  let start := skip modes t
  let negated := start.head? = some '^'
  let items := if negated then skip modes (start.drop 1) else start
  let rest := items.dropWhile fun c => c = '-' || (modes.verbose && isBlank c)
  if rest.isEmpty then none
  else if rest.head? = some ']' ∧ items.head? ≠ some '-' then some (negated, rest.drop 1)
  else some (negated, rest)

/-- Reads one member of a class. -/
def readMember? (modes : Modes) : Text → Option (Escape × Text)
  | [] => none
  | '\\' :: t => readEscape? modes t
  | c :: t => some (.literal c, t)

/-- Whether a class may hold a member. -/
def admitsMember (modes : Modes) : Escape → Bool
  | .literal c => !(modes.octets && 0x80 ≤ c.toNat)
  | .charClass => true
  | .assertion => false

/-- Passes a member of a class or a range of two. -/
def passMember? (modes : Modes) (t : Text) : Option Text := do
  let (first, rest) ← readMember? modes t
  if !admitsMember modes first then none
  let single := skip modes rest
  match single with
  | [] => none
  | '-' :: after =>
    let second := skip modes after
    if second.isEmpty then none
    else if second.head? = some ']' || second.head? = some '-' then some single
    else
      let (last, rest) ← readMember? modes second
      if !admitsMember modes last then none
      match first, last with
      | .literal a, .literal b => if a ≤ b then some rest else none
      | _, _ => none
  | _ => some single

/-- Passes a class up to its closing bracket, in which other classes are open, as many as `depth`;
`fuel` bounds the number of its parts. -/
def passClass? (modes : Modes) : Nat → Nat → Text → Option Text
  | 0, _, _ => none
  | fuel + 1, depth, t =>
    match skip modes t with
    | [] => none
    | ']' :: rest => if depth = 0 then some rest else passClass? modes fuel (depth - 1) rest
    | '[' :: rest =>
      match passNamedClass? rest with
      | some (negated, rest) =>
        if negated && modes.octets then none else passClass? modes fuel depth rest
      | none =>
        match passClassStart? modes rest with
        | some (negated, rest) =>
          if negated && modes.octets then none else passClass? modes fuel (depth + 1) rest
        | none => none
    | '&' :: '&' :: rest => passClass? modes fuel depth rest
    | '-' :: '-' :: rest => passClass? modes fuel depth rest
    | '~' :: '~' :: rest => passClass? modes fuel depth rest
    | members =>
      match passMember? modes members with
      | some rest => passClass? modes fuel depth rest
      | none => none

/-! ## Groups -/

/-- Whether a character may stand in the name of a group. -/
def isNameChar (c : Char) : Bool :=
  Alphanumeric.isAlphanumeric c || c = '_' || c = '.' || c = '[' || c = ']'

/-- Whether a text can name a group. -/
def isName (name : Text) : Bool :=
  name.all isNameChar &&
    name.head?.any fun c => c = '_' || (Alphanumeric.isAlphanumeric c && !c.isDigit)

/-- The modes after a flag. -/
def Modes.set (modes : Modes) (on : Bool) (flag : Char) : Modes :=
  if flag = 'i' then { modes with foldsCase := on }
  else if flag = 'u' then { modes with octets := !on }
  else if flag = 'x' then { modes with verbose := on }
  else modes

/-- Reads flags up to a colon or a closing parenthesis, with which the rest starts. A minus sign
turns the flags after it off; no flag may stand there twice. -/
def readFlags? (modes : Modes) (seen : List Char) : Text → Option (Modes × Text)
  | [] => none
  | c :: t =>
    if c = ':' ∨ c = ')' then if seen.head? = some '-' then none else some (modes, c :: t)
    else if seen.contains c || !("-imsuUxR".toList.contains c) then none
    else if c = '-' then readFlags? modes (c :: seen) t
    else readFlags? (modes.set (!seen.contains '-') c) (c :: seen) t

/-- Where the reading of a pattern stands. -/
structure State where
  modes : Modes := {}
  /-- The modes outside of each open group, innermost first. -/
  outside : List Modes := []
  /-- The names of the groups so far. -/
  names : List Text := []
  /-- Whether there is something before that can be repeated. -/
  repeatable : Bool := false
deriving Repr

/-- The state inside of a further group. -/
def State.enter (st : State) (modes : Modes) : State :=
  { st with modes, outside := st.modes :: st.outside, repeatable := false }

/-- Passes the start of a group after its opening parenthesis. What stands before or after a place
cannot be asked for. -/
def passGroupStart? (st : State) (t : Text) : Option (State × Text) :=
  match skip st.modes t with
  | '?' :: '<' :: '=' :: _ => none
  | '?' :: '<' :: '!' :: _ => none
  | '?' :: '<' :: rest =>
    match Text.cutAt? (· = '>') rest with
    | some (name, rest) =>
      if isName name && !st.names.contains name then
        some ({ st with names := name :: st.names }.enter st.modes, rest)
      else none
    | none => none
  | '?' :: rest =>
    match readFlags? st.modes [] rest with
    | some (modes, ':' :: rest) => some (st.enter modes, rest)
    | some (modes, _ :: after) =>
      if rest.head? = some ')' then none else some ({ st with modes, repeatable := false }, after)
    | _ => none
  | rest => some (st.enter st.modes, rest)

/-! ## Patterns -/

/-- Whether the modes admit what an escape stands for. -/
def admits (modes : Modes) : Escape → Bool
  | .literal _ => !modes.needsCases
  | _ => true

/-- Passes one character, class or escape. -/
def passAtom? (modes : Modes) (t : Text) : Option Text :=
  match t with
  | '[' :: rest =>
    match passClassStart? modes rest with
    | some (negated, rest) =>
      if (negated && modes.octets) || modes.needsCases then none
      else passClass? modes (rest.length + 1) 0 rest
    | none => none
  | '\\' :: rest =>
    match readEscape? modes rest with
    | some (escape, rest) => if admits modes escape then some rest else none
    | none => none
  | '.' :: rest => if modes.octets then none else some rest
  | '^' :: rest => some rest
  | '$' :: rest => some rest
  | c :: rest => if admits modes (.literal c) then some rest else none
  | [] => none

/-- Whether the rest of a pattern can be read; `fuel` bounds the number of its parts. -/
def accepts : Nat → State → Text → Bool
  | 0, _, _ => false
  | fuel + 1, st, t =>
    match skip st.modes t with
    | [] => st.outside.isEmpty
    | '(' :: rest =>
      match passGroupStart? st rest with
      | some (st, rest) => accepts fuel st rest
      | none => false
    | ')' :: rest =>
      match st.outside with
      | modes :: outside => accepts fuel { st with modes, outside, repeatable := true } rest
      | [] => false
    | '|' :: rest => accepts fuel { st with repeatable := false } rest
    | '\x7b' :: _ => false
    | c :: rest =>
      if c = '?' ∨ c = '*' ∨ c = '+' then st.repeatable && accepts fuel st rest
      else match passAtom? st.modes (c :: rest) with
        | some rest => accepts fuel { st with repeatable := true } rest
        | none => false

/-- Whether a text is a pattern. -/
def isPattern (t : Text) : Bool := accepts (t.length + 1) {} t

/-! ## Numbers -/

/-- Whether a text is a number without sign: digits with at most one point among or around them and
perhaps a power of ten, or one of the numbers that have no digits. -/
def isNumber (t : Text) : Bool :=
  ["inf".toList, "infinity".toList, "nan".toList].contains t.lower ||
    match Text.cutAt? (fun c => c = 'e' || c = 'E') t with
    | none => isMantissa t
    | some (mantissa, power) => isMantissa mantissa && isDigits (unsigned power)
where
  isDigits (t : Text) : Bool := !t.isEmpty && t.all Char.isDigit
  unsigned (t : Text) : Text :=
    if t.head? = some '+' ∨ t.head? = some '-' then t.drop 1 else t
  isMantissa (t : Text) : Bool :=
    match Text.cutAt? (· = '.') t with
    | none => isDigits t
    | some (whole, fraction) => isDigits (whole ++ fraction)

/-- Whether the value of a field can be compared with a text, which is a number or a pattern. A
number is a pattern too unless it has a plus sign. -/
def isComparable (t : Text) : Bool :=
  isPattern t || (t.head? = some '+' && isNumber (t.drop 1))

end LogShipper.Agent.Pattern
