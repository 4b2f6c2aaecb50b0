import LogShipper.Agent.Line
import LogShipper.Proofs.Text.Splitting

/-!
# Lines are read as they were written

A line is written in parts: a word for the severity, the name of a logger in brackets, and the
message.  The first two may be left out, and blanks stand between the parts.  Such a line is read as
the severity, the logger and the message that it was written for, but for two ways to mistake it: a
line without a word may begin like one that has a word, and a message without a logger may begin
like one that has a logger.  `Agent.parseLine_eq_iff` says that these are the only ones, and that
each of them is a mistake indeed.
-/

namespace LogShipper

/-! ## Words for severities -/

/-- No blank stands among the ASCII letters. -/
theorem toNat_of_isBlank {c : Char} (h : isBlank c = true) : c.toNat < 65 ∨ 122 < c.toNat := by
  obtain ⟨r, hr, hle, hge⟩ := isBlank_eq_true_iff.1 h
  have hranges : ∀ r ∈ blankRanges, r.2 < 65 ∨ 122 < r.1 := by decide
  have hrange := hranges r hr
  omega

/-- A blank has no case. -/
theorem toUpper_of_isBlank {c : Char} (h : isBlank c = true) : c.toUpper = c := by
  refine dif_neg ?_
  rintro ⟨hlow, hhigh⟩
  have hlow' : 97 ≤ c.toNat := hlow
  have hhigh' : c.toNat ≤ 122 := hhigh
  have hrange := toNat_of_isBlank h
  omega

theorem isUpper_of_isBlank {c : Char} (h : isBlank c = true) : c.isUpper = false := by
  rw [← Bool.not_eq_true]
  intro hupper
  obtain ⟨hlow, hhigh⟩ := of_decide_eq_true hupper
  have hlow' : 65 ≤ c.toNat := hlow
  have hhigh' : c.toNat ≤ 90 := hhigh
  have hrange := toNat_of_isBlank h
  omega

namespace Severity

/-- Whether a word stands for a severity, in any ASCII case. -/
def IsWord (s : Severity) (word : Text) : Prop := word.upper ∈ s.words

instance (s : Severity) (word : Text) : Decidable (s.IsWord word) :=
  inferInstanceAs (Decidable (word.upper ∈ s.words))

variable {s s' : Severity} {word : Text}

/-- A word stands for one severity. -/
theorem IsWord.unique (h : s.IsWord word) (h' : s'.IsWord word) : s = s' := by
  have hdisjoint : ∀ s s' : Severity, s ≠ s' → s.words.all (fun w => !s'.words.contains w) := by
    intro s s'
    cases s <;> cases s' <;> decide
  by_contra hne
  have hnot := List.all_eq_true.1 (hdisjoint s s' hne) _ h
  simp at hnot
  exact hnot h'

/-- A word has only letters. -/
theorem IsWord.isUpper_toUpper (h : s.IsWord word) {c : Char} (hc : c ∈ word) :
    c.toUpper.isUpper = true := by
  have hletters : ∀ s : Severity, s.words.all (fun w => w.all Char.isUpper) := by
    intro s
    cases s <;> decide
  have hword := List.all_eq_true.1 (hletters s) _ h
  exact List.all_eq_true.1 hword _ (List.mem_map_of_mem hc)

theorem IsWord.isBlank_eq_false (h : s.IsWord word) {c : Char} (hc : c ∈ word) :
    isBlank c = false := by
  have hupper := h.isUpper_toUpper hc
  rw [← Bool.not_eq_true]
  intro hblank
  rw [toUpper_of_isBlank hblank, isUpper_of_isBlank hblank] at hupper
  cases hupper

theorem IsWord.ne_nil (h : s.IsWord word) : word ≠ [] := by
  rintro rfl
  revert h
  unfold IsWord
  cases s <;> decide

/-- The severity that a word is read as. -/
theorem ofWord?_eq_some_iff (hword : ∀ c ∈ word, isBlank c = false) :
    ofWord? word = some s ↔ s.IsWord word := by
  unfold ofWord?
  rw [Text.trim_of_forall hword]
  constructor
  · intro h
    have hcontains := List.find?_some h
    exact List.contains_iff_mem.1 hcontains
  · intro h
    have hall : s ∈ all := by cases s <;> decide
    cases hfind : all.find? fun s' => s'.words.contains word.upper with
    | none => exact absurd (List.contains_iff_mem.2 h) (List.find?_eq_none.1 hfind s hall)
    | some s' =>
      have hcontains := List.find?_some hfind
      rw [h.unique (List.contains_iff_mem.1 hcontains)]

end Severity

namespace Agent

/-! ## The severity of a line -/

/-- Whether a text starts with the word for a severity, and a blank or the end comes next. -/
def StartsWithLevel (t : Text) : Prop :=
  ∃ (s : Severity) (word rest : Text), s.IsWord word ∧ (∀ c ∈ rest.head?, isBlank c = true) ∧
    t = word ++ rest

section Level

variable {s : Severity} {word rest t : Text}

/-- A word is read as its severity. -/
theorem readLevel_of_isWord (h : s.IsWord word) (hrest : ∀ c ∈ rest.head?, isBlank c = true) :
    readLevel (word ++ rest) = (s, rest.trimStart) := by
  have hplain : ∀ c ∈ word, isBlank c = false := fun c hc => h.isBlank_eq_false hc
  have hword := (Severity.ofWord?_eq_some_iff hplain).2 h
  unfold readLevel
  cases rest with
  | nil =>
    rw [List.append_nil, Text.cutAt?_eq_none_iff.2 hplain]
    dsimp only
    rw [hword]
    rfl
  | cons b rest =>
    have hb : isBlank b = true := hrest b rfl
    have hblank : Text.isAllBlank [b] = true := Text.isAllBlank_cons_iff.2 ⟨hb, rfl⟩
    rw [Text.cutAt?_append hplain hb]
    dsimp only
    rw [hword, ← Text.trimStart_append_of_isAllBlank hblank rest]
    rfl

/-- A text without such a word is taken as a whole. -/
theorem readLevel_of_not (h : ¬StartsWithLevel t) : readLevel t = (.info, t) := by
  have hnone : ∀ word rest : Text, (∀ c ∈ word, isBlank c = false) →
      (∀ c ∈ rest.head?, isBlank c = true) → t = word ++ rest → Severity.ofWord? word = none := by
    intro word rest hword hrest ht
    rw [Option.eq_none_iff_forall_ne_some]
    intro s hs
    exact h ⟨s, word, rest, (Severity.ofWord?_eq_some_iff hword).1 hs, hrest, ht⟩
  unfold readLevel
  split
  · rename_i word rest hcut
    obtain ⟨b, hb, ht, hword⟩ := Text.eq_of_cutAt? hcut
    have hplain : ∀ c ∈ word, isBlank c = false := by simpa using hword
    rw [hnone word (b :: rest) hplain (by simpa using hb) ht]
  · rename_i hcut
    rw [hnone t [] (Text.cutAt?_eq_none_iff.1 hcut) nofun (List.append_nil t).symm]

theorem length_trimStart_le (t : Text) : t.trimStart.length ≤ t.length :=
  (List.dropWhile_suffix _).length_le

/-- A word that is read is missing from what is left. -/
theorem length_readLevel_lt (h : StartsWithLevel t) : (readLevel t).2.length < t.length := by
  obtain ⟨s, word, rest, hword, hrest, rfl⟩ := h
  have hpos := List.length_pos_of_ne_nil hword.ne_nil
  have hle := length_trimStart_le rest
  rw [readLevel_of_isWord hword hrest, List.length_append]
  dsimp only
  omega

theorem head?_trimEnd {c : Char} (h : c ∈ t.trimEnd.head?) : c ∈ t.head? := by
  obtain ⟨blanks, hblanks⟩ : t.trimEnd <+: t := List.rdropWhile_prefix _ _
  rw [← hblanks, List.head?_append, Option.mem_def.1 h]
  rfl

/-- Blanks at the end make no difference. -/
theorem startsWithLevel_trimEnd_iff : StartsWithLevel t.trimEnd ↔ StartsWithLevel t := by
  constructor
  · rintro ⟨s, word, rest, hword, hrest, ht⟩
    obtain ⟨blanks, hblanks, hsplit⟩ := Text.exists_eq_trimEnd_append t
    refine ⟨s, word, rest ++ blanks, hword, ?_, ?_⟩
    · intro c hc
      cases rest with
      | nil => exact List.all_eq_true.1 hblanks c (List.mem_of_mem_head? hc)
      | cons d rest => exact hrest c hc
    · rw [hsplit, ht, List.append_assoc]
  · rintro ⟨s, word, rest, hword, hrest, rfl⟩
    have hkept : word.trimEnd = word :=
      Text.trimEnd_eq_self (Text.trim_of_forall fun c hc => hword.isBlank_eq_false hc)
    exact ⟨s, word, rest.trimEnd, hword, fun c hc => hrest c (head?_trimEnd hc),
      Text.trimEnd_append hkept rest⟩

end Level

/-! ## The logger of a line -/

/-- Whether a text starts with a name in brackets.  The name ends at the first closing bracket, and
it is not blank. -/
def StartsWithLogger (t : Text) : Prop :=
  ∃ name rest : Text, ']' ∉ name ∧ ¬name.isAllBlank = true ∧ t = '[' :: (name ++ ']' :: rest)

section Logger

variable {name t : Text}

/-- A name in brackets is read. -/
theorem readLogger_of_name (h : ']' ∉ name) (hblank : ¬name.isAllBlank = true) (rest : Text) :
    readLogger ('[' :: (name ++ ']' :: rest)) = (name.trim, rest.trimStart) := by
  simp only [readLogger, Text.cutAt?_mark h]
  exact if_neg hblank

/-- A text without such a name is taken as a whole. -/
theorem readLogger_of_not (h : ¬StartsWithLogger t) : readLogger t = (defaultLogger, t) := by
  unfold readLogger
  split
  · split
    · rename_i tail name rest hcut
      obtain ⟨ht, hname⟩ := Text.eq_of_cutAt?_mark hcut
      apply if_pos
      by_contra hblank
      exact h ⟨name, rest, hname, hblank, congrArg ('[' :: ·) ht⟩
    · rfl
  · rfl

/-- A name that is read is missing from what is left. -/
theorem length_readLogger_lt (h : StartsWithLogger t) : (readLogger t).2.length < t.length := by
  obtain ⟨name, rest, hname, hblank, rfl⟩ := h
  have hle := length_trimStart_le rest
  rw [readLogger_of_name hname hblank]
  simp only [List.length_cons, List.length_append]
  omega

theorem length_readLogger_le (t : Text) : (readLogger t).2.length ≤ t.length := by
  by_cases h : StartsWithLogger t
  · exact (length_readLogger_lt h).le
  · rw [readLogger_of_not h]

end Logger

/-! ## Written lines -/

/-- Texts that follow one another with blanks behind each.  There is at least one blank wherever
something follows. -/
inductive IsSpaced : List Text → Text → Prop
  /-- The last text. -/
  | last (t blanks : Text) (h : blanks.isAllBlank = true) : IsSpaced [t] (t ++ blanks)
  /-- A text before others. -/
  | cons (t blanks : Text) {rest : Text} {ts : List Text} (h : blanks.isAllBlank = true)
    (hblanks : blanks = [] → rest = []) (hrest : IsSpaced ts rest) :
    IsSpaced (t :: ts) (t ++ (blanks ++ rest))

/-- What is written on a line: a message, and before it the word for the severity and the logger,
which may be left out. -/
structure Entry where
  word : Option Text := none
  logger : Option Text := none
  message : Text

namespace Entry

/-- The parts of a line that come after the word for the severity. -/
def rest (e : Entry) : List Text :=
  (e.logger.toList.map fun name => '[' :: (name ++ [']'])) ++ [e.message]

/-- The parts of a line. -/
def parts (e : Entry) : List Text := e.word.toList ++ e.rest

/-- The word is one for the severity, which is that of informations if there is none.  The logger
is a name that is not blank and has no closing bracket, and neither it nor the message has blanks
around it. -/
structure IsProper (e : Entry) (level : Severity) : Prop where
  word : ∀ word ∈ e.word, level.IsWord word
  level_eq : e.word = none → level = .info
  logger : ∀ name ∈ e.logger, ']' ∉ name ∧ ¬name.isAllBlank = true ∧ name.trim = name
  message : e.message.trim = e.message

/-- The record that an entry is written for. -/
def record (e : Entry) (level : Severity) : Record where
  target := e.logger.getD defaultLogger
  level := level
  message := e.message

end Entry

section Written

variable {e : Entry} {level : Severity} {t line : Text}

/-- A last text without blanks around it is all that trimming leaves. -/
theorem IsSpaced.trim_of_last (h : IsSpaced [t] line) (ht : t.trim = t) :
    line.trim = t ∧ line.trimEnd = t := by
  cases h with
  | last _ _ hblanks =>
    have hend := Text.trimEnd_append_of_isAllBlank t hblanks
    rw [← Text.trimStart_trimEnd, hend, Text.trimEnd_eq_self ht]
    exact ⟨Text.trimStart_eq_self ht, rfl⟩
  | cons _ _ _ _ hrest => cases hrest

/-- What follows a text that ends with no blank.  It is trimmed as what is written there is, and
starts with a blank if it is not empty. -/
theorem IsSpaced.of_cons {ts : List Text} (h : IsSpaced (t :: ts) line) (hts : ts ≠ [])
    (ht : t.trimEnd = t) : ∃ rest more : Text, IsSpaced ts rest ∧ line.trimEnd = t ++ more ∧
      more.trimStart = rest.trim ∧ ∀ c ∈ more.head?, isBlank c = true := by
  cases h with
  | last => exact absurd rfl hts
  | @cons _ blanks rest _ hblank hblanks hrest =>
    refine ⟨rest, Text.trimEnd (blanks ++ rest), hrest, Text.trimEnd_append ht _, ?_, ?_⟩
    · rw [Text.trimStart_trimEnd]
      exact congrArg Text.trimEnd (Text.trimStart_append_of_isAllBlank hblank rest)
    · intro c hc
      have hhead := head?_trimEnd hc
      cases blanks with
      | nil =>
        rw [hblanks rfl] at hhead
        cases hhead
      | cons b blanks => exact List.all_eq_true.1 hblank c (List.mem_of_mem_head? hhead)

/-- Behind its word, an entry is read back unless its message is mistaken. -/
theorem Entry.IsProper.readLogger_iff (he : e.IsProper level) (h : IsSpaced e.rest line) :
    readLogger line.trim = (e.logger.getD defaultLogger, e.message) ↔
      (e.logger = none → ¬StartsWithLogger e.message) := by
  cases hlogger : e.logger with
  | none =>
    have hlast : IsSpaced [e.message] line := by simpa [Entry.rest, hlogger] using h
    rw [(hlast.trim_of_last he.message).1]
    constructor
    · intro hread _ hstarts
      have hlt := length_readLogger_lt hstarts
      rw [hread] at hlt
      exact Nat.lt_irrefl _ hlt
    · intro hnot
      exact readLogger_of_not (hnot rfl)
  | some name =>
    obtain ⟨hclosing, hblank, htrim⟩ := he.logger name hlogger
    have hnamed : IsSpaced (('[' :: (name ++ [']'])) :: [e.message]) line := by
      simpa [Entry.rest, hlogger] using h
    have hend : Text.trimEnd ('[' :: (name ++ [']'])) = '[' :: (name ++ [']']) :=
      List.rdropWhile_concat_neg isBlank ('[' :: name) ']' (by decide)
    have hbracket : isBlank '[' = false := by decide
    obtain ⟨rest, more, hrest, hline, hmore, -⟩ := hnamed.of_cons (List.cons_ne_nil _ _) hend
    have htext : line.trim = '[' :: (name ++ ']' :: more) := by
      rw [← Text.trimStart_trimEnd, hline]
      simp [Text.trimStart, hbracket]
    have hread : readLogger line.trim = (name, e.message) := by
      rw [htext, readLogger_of_name hclosing hblank, htrim, hmore,
        (hrest.trim_of_last he.message).1]
    exact iff_of_true hread nofun

/-- A line with a logger but without a word starts with a bracket. -/
theorem Entry.exists_eq_bracket {name : Text} (h : IsSpaced e.rest line)
    (hlogger : e.logger = some name) : ∃ t, line = '[' :: t := by
  have hrest : IsSpaced (('[' :: (name ++ [']'])) :: [e.message]) line := by
    simpa [Entry.rest, hlogger] using h
  cases hrest with
  | cons => exact ⟨_, rfl⟩

/-- Nothing is trimmed in front of a line without a word. -/
theorem Entry.IsProper.trim_eq (he : e.IsProper level) (h : IsSpaced e.rest line) :
    line.trim = line.trimEnd := by
  cases hlogger : e.logger with
  | none =>
    have hlast : IsSpaced [e.message] line := by simpa [Entry.rest, hlogger] using h
    obtain ⟨htrim, hend⟩ := hlast.trim_of_last he.message
    rw [htrim, hend]
  | some name =>
    obtain ⟨t, rfl⟩ := Entry.exists_eq_bracket h hlogger
    have hstart : Text.trimStart ('[' :: t) = '[' :: t := List.dropWhile_cons_of_neg (by decide)
    unfold Text.trim
    rw [hstart]

/-- What starts with a bracket starts with no word for a severity. -/
theorem not_startsWithLevel_of_bracket : ¬StartsWithLevel ('[' :: t) := by
  rintro ⟨s, word, rest, hword, -, ht⟩
  cases word with
  | nil => exact hword.ne_nil rfl
  | cons c word =>
    obtain rfl : '[' = c := (List.cons.inj ht).1
    exact absurd (hword.isUpper_toUpper List.mem_cons_self) (by decide)

/-- A line without a word that starts with one is mistaken: the word is missing from its message. -/
theorem Entry.IsProper.readLogger_ne (he : e.IsProper level) (h : IsSpaced e.rest line)
    (hstarts : StartsWithLevel line) :
    readLogger (readLevel line.trimEnd).2 ≠ (e.logger.getD defaultLogger, e.message) := by
  cases hlogger : e.logger with
  | none =>
    have hlast : IsSpaced [e.message] line := by simpa [Entry.rest, hlogger] using h
    have hend : line.trimEnd = e.message := (hlast.trim_of_last he.message).2
    intro hread
    have hlt := length_readLevel_lt (startsWithLevel_trimEnd_iff.2 hstarts)
    have hle := length_readLogger_le (readLevel line.trimEnd).2
    rw [hread] at hle
    rw [hend] at hlt hle
    exact absurd hlt (Nat.not_lt.2 hle)
  | some name =>
    obtain ⟨t, rfl⟩ := Entry.exists_eq_bracket h hlogger
    exact absurd hstarts not_startsWithLevel_of_bracket

/-- **Lines are read as they were written.**  A line that is written for an entry is read as the
record of the entry, with an information for a missing word and the default logger for a missing
one, exactly when a line without word does not start with one and a message without logger does not
start with one. -/
theorem parseLine_eq_iff (he : e.IsProper level) (h : IsSpaced e.parts line) :
    parseLine line = e.record level ↔ (e.word = none → ¬StartsWithLevel line) ∧
      (e.logger = none → ¬StartsWithLogger e.message) := by
  have hparse : parseLine line = e.record level ↔ (readLevel line.trimEnd).1 = level ∧
      readLogger (readLevel line.trimEnd).2 = (e.logger.getD defaultLogger, e.message) := by
    unfold parseLine Entry.record
    simp only [Record.mk.injEq, Prod.ext_iff, and_true]
    exact and_left_comm
  rw [hparse]
  rcases hword : e.word with _ | word
  · have hrest : IsSpaced e.rest line := by simpa [Entry.parts, hword] using h
    by_cases hstarts : StartsWithLevel line
    · refine iff_of_false ?_ fun hnot => hnot.1 rfl hstarts
      exact fun hread => he.readLogger_ne hrest hstarts hread.2
    · rw [readLevel_of_not (mt startsWithLevel_trimEnd_iff.1 hstarts), ← he.trim_eq hrest,
        he.readLogger_iff hrest]
      simp [hstarts, he.level_eq hword]
  · have hlevel := he.word word hword
    have hend : Text.trimEnd word = word :=
      Text.trimEnd_eq_self (Text.trim_of_forall fun c hc => hlevel.isBlank_eq_false hc)
    have hparts : IsSpaced (word :: e.rest) line := by simpa [Entry.parts, hword] using h
    obtain ⟨rest, more, hrest, hline, hmore, hhead⟩ := hparts.of_cons (by simp [Entry.rest]) hend
    rw [hline, readLevel_of_isWord hlevel hhead, hmore, he.readLogger_iff hrest]
    simp

/-- Behind a logger, a message may start with a bracket and a word.  Without word and logger, a
message that starts with the word for a severity is mistaken. -/
theorem parseLine_eq_iff_of_brackets :
    let full : Entry := { word := some "wArNing", logger := some "a [b", message := "[x] info" }
    let plain : Entry := { message := "info disk" }
    full.IsProper .warn ∧ IsSpaced full.parts "wArNing \t[a [b]\u3000[x] info \n" ∧
      parseLine "wArNing \t[a [b]\u3000[x] info \n" = full.record .warn ∧
    plain.IsProper .info ∧ IsSpaced plain.parts "info disk\n" ∧
      parseLine "info disk\n" ≠ plain.record .info := by
  intro full plain
  have hfull : full.IsProper .warn :=
    { word := fun _ hw => Option.mem_some.1 hw ▸ (by decide : Severity.warn.IsWord "wArNing")
      level_eq := nofun
      logger := fun _ hname => Option.mem_some.1 hname ▸ by decide
      message := by decide }
  have hfullLine : IsSpaced full.parts "wArNing \t[a [b]\u3000[x] info \n" :=
    .cons "wArNing" " \t" (by decide) nofun
      (.cons "[a [b]" "\u3000" (by decide) nofun (.last "[x] info" " \n" (by decide)))
  have hplain : plain.IsProper .info := ⟨nofun, fun _ => rfl, nofun, by decide⟩
  have hplainLine : IsSpaced plain.parts "info disk\n" :=
    .last "info disk" "\n" (by decide)
  refine ⟨hfull, hfullLine, ?_, hplain, hplainLine, ?_⟩
  · exact (parseLine_eq_iff hfull hfullLine).2 ⟨nofun, nofun⟩
  · intro hread
    have hnot := ((parseLine_eq_iff hplain hplainLine).1 hread).1 rfl
    refine hnot ⟨.info, "info".toList, " disk\n".toList, by decide, ?_, by decide⟩
    intro c hc
    obtain rfl : ' ' = c := Option.some.inj hc
    decide

end Written

end Agent

end LogShipper
