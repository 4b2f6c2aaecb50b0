import LogShipper.Proofs.Text.Splitting
import LogShipper.Proofs.Wire.RoundTrip

/-!
# Lines stay on one line

The collector cuts what it receives at line feeds, so that a line break inside a line would end it
early and begin another one.  Names lose their line breaks because they are blanks, and the values
of tags and the texts of messages because they are folded, so that no line of a counter, of a total
or of a message has one (`Renderer.isUnbroken_render`).

The values on property lines are escaped, but they are not folded.  Those that come from outside
are the metric base and the announced transport on the settings line, and the names of the host and
of the system on the line about the process: a property line is unbroken exactly when they are
(`Renderer.isUnbroken_settings_iff`, `Renderer.isUnbroken_runtime_iff`).
-/

namespace LogShipper

theorem isLineBreak_of_isDigit {c : Char} (h : c.isDigit = true) : isLineBreak c = false := by
  refine isLineBreak_eq_false ?_ ?_
  · rintro rfl
    exact absurd h (by decide)
  · rintro rfl
    exact absurd h (by decide)

namespace Text

/-- Whether a text has no line break. -/
def IsUnbroken (t : Text) : Prop := ∀ c ∈ t, isLineBreak c = false

instance (t : Text) : Decidable t.IsUnbroken := List.decidableBAll _ t

@[simp] theorem isUnbroken_append {s t : Text} :
    IsUnbroken (s ++ t) ↔ s.IsUnbroken ∧ t.IsUnbroken := List.forall_mem_append

@[simp] theorem isUnbroken_cons {c : Char} {t : Text} :
    IsUnbroken (c :: t) ↔ isLineBreak c = false ∧ t.IsUnbroken := List.forall_mem_cons

theorem isUnbroken_iff_any {t : Text} : t.IsUnbroken ↔ t.any isLineBreak = false := by
  simp [IsUnbroken]

theorem isUnbroken_flatMap {α : Type} {f : α → Text} {xs : List α} :
    IsUnbroken (xs.flatMap f) ↔ ∀ x ∈ xs, (f x).IsUnbroken := by
  constructor
  · intro h x hx c hc
    exact h c (List.mem_flatMap_of_mem hx hc)
  · intro h c hc
    obtain ⟨x, hx, hcx⟩ := List.mem_flatMap.1 hc
    exact h x hx c hcx

/-- A text of some characters of another one. -/
theorem IsUnbroken.of_subset {s t : Text} (h : t.IsUnbroken) (hst : s ⊆ t) : s.IsUnbroken :=
  fun c hc => h c (hst hc)

theorem isUnbroken_of_isDigit {t : Text} (h : ∀ c ∈ t, c.isDigit = true) : t.IsUnbroken :=
  fun c hc => isLineBreak_of_isDigit (h c hc)

theorem mem_replaceChar {old c : Char} {new t : Text} (h : c ∈ replaceChar old new t) :
    c ∈ new ∨ c ∈ t ∧ c ≠ old := by
  obtain ⟨d, hd, hc⟩ := List.mem_flatMap.1 h
  split at hc
  · exact .inl hc
  · rename_i hne
    obtain rfl := List.mem_singleton.1 hc
    exact .inr ⟨hd, hne⟩

end Text

open Text

/-! ## Numbers and words -/

namespace Decimal

theorem isUnbroken_ofNat (n : Nat) : (ofNat n).IsUnbroken :=
  isUnbroken_of_isDigit fun _ hc => isDigit_of_mem_ofNat hc

theorem isUnbroken_ofInt (i : Int) : (ofInt i).IsUnbroken := by
  cases i with
  | ofNat n => exact isUnbroken_ofNat n
  | negSucc n => exact isUnbroken_cons.2 ⟨by decide, isUnbroken_ofNat (n + 1)⟩

theorem isUnbroken_ofBool (b : Bool) : (ofBool b).IsUnbroken := by
  cases b with
  | false => decide
  | true => decide

end Decimal

/-- A decimal written in full has only digits and a point. -/
theorem Shortest.isUnbroken_positional (d : DecimalFraction) : (positional d).IsUnbroken := by
  have hdigits : IsUnbroken (Nat.toDigits 10 d.digits) := Decimal.isUnbroken_ofNat d.digits
  have hzeros : ∀ n, IsUnbroken (List.replicate n '0') := by
    intro n c hc
    obtain rfl := (List.mem_replicate.1 hc).2
    decide
  unfold positional
  dsimp only
  split
  · exact isUnbroken_append.2 ⟨hdigits, hzeros _⟩
  · have hpadded := isUnbroken_append.2 ⟨hzeros ((-d.exponent).toNat + 1 -
      (Nat.toDigits 10 d.digits).length), hdigits⟩
    split
    · exact hpadded.of_subset (List.take_subset _ _)
    · refine isUnbroken_append.2 ⟨hpadded.of_subset (List.take_subset _ _), ?_⟩
      refine isUnbroken_cons.2 ⟨by decide, hpadded.of_subset ?_⟩
      intro c hc
      have hc' := (List.dropWhile_sublist _).subset (List.mem_reverse.1 hc)
      exact List.mem_of_mem_drop (List.mem_reverse.1 hc')

theorem Binary64.isUnbroken_toText (x : Binary64) : x.toText.IsUnbroken := by
  cases x with
  | nan => decide
  | infinity negative => cases negative <;> decide
  | finite negative magnitude =>
    have hdigits : IsUnbroken (if magnitude.mantissa = 0 then ['0']
        else Shortest.positional (Shortest.ofBinary magnitude)) := by
      split
      · decide
      · exact Shortest.isUnbroken_positional _
    cases negative with
    | false => exact hdigits
    | true => exact isUnbroken_cons.2 ⟨by decide, hdigits⟩

namespace Wire

/-! ## Names, values and tags -/

theorem isUnbroken_sanitizeName (t : Text) : (sanitizeName t).IsUnbroken := by
  intro c hc
  rw [← Bool.not_eq_true]
  intro hbreak
  have hblank := isBlank_of_isLineBreak hbreak
  rw [isBlank_of_mem_sanitizeName hc] at hblank
  cases hblank

/-- Folding leaves no line break. -/
theorem isUnbroken_foldNewlines (t : Text) : (foldNewlines t).IsUnbroken := by
  have hmark : foldMark.IsUnbroken := by decide
  unfold foldNewlines
  split
  · intro c hc
    rcases mem_replaceChar hc with hc | ⟨hc, hreturn⟩
    · exact hmark c hc
    rcases mem_replaceChar hc with hc | ⟨-, hfeed⟩
    · exact hmark c hc
    · exact isLineBreak_eq_false hfeed hreturn
  · rename_i hany
    exact isUnbroken_iff_any.2 (Bool.eq_false_iff.2 hany)

theorem isUnbroken_doubleQuotes_iff {t : Text} : (doubleQuotes t).IsUnbroken ↔ t.IsUnbroken := by
  unfold doubleQuotes
  rw [isUnbroken_flatMap]
  refine forall₂_congr fun c _ => ?_
  split
  · rename_i hquote
    subst hquote
    decide
  · simp [IsUnbroken]

/-- Quoting neither takes away line breaks nor brings any. -/
theorem isUnbroken_escapeValue_iff {value : Text} :
    (escapeValue value).IsUnbroken ↔ value.IsUnbroken := by
  unfold escapeValue
  split
  · have hquote : isLineBreak '"' = false := by decide
    have hend : IsUnbroken ['"'] := by decide
    simp [isUnbroken_doubleQuotes_iff, hquote, hend]
  · rfl

theorem Tag.isUnbroken_text (tag : Tag) : tag.text.IsUnbroken := by
  have hstart : IsUnbroken " t:".toList := by decide
  have hsign : isLineBreak '=' = false := by decide
  unfold text
  rw [isUnbroken_append, isUnbroken_append, isUnbroken_cons, isUnbroken_escapeValue_iff]
  exact ⟨⟨hstart, isUnbroken_sanitizeName _⟩, hsign, isUnbroken_foldNewlines _⟩

theorem isUnbroken_tagsText (tags : List Tag) : (tagsText tags).IsUnbroken :=
  isUnbroken_flatMap.2 fun tag _ => tag.isUnbroken_text

/-! ## Lines -/

namespace Renderer

theorem isUnbroken_metricText {metric : Text} (hmetric : metric.IsUnbroken) (value : Int) :
    (metricText metric value).IsUnbroken := by
  have hstart : IsUnbroken " m:".toList := by decide
  have hsign : isLineBreak '=' = false := by decide
  unfold metricText
  rw [isUnbroken_append, isUnbroken_append, isUnbroken_cons]
  exact ⟨⟨hstart, hmetric⟩, hsign, Decimal.isUnbroken_ofInt value⟩

variable {settings : Settings} {facts : ProcessFacts} {r : Renderer}

theorem isUnbroken_seriesStart (hr : ofSettings settings facts = .ok r) :
    r.seriesStart.IsUnbroken := by
  obtain rfl := eq_of_ofSettings hr
  have hstart : IsUnbroken "series e:".toList := by decide
  unfold seriesStart
  rw [isUnbroken_append, isUnbroken_append]
  exact ⟨⟨hstart, isUnbroken_sanitizeName _⟩, isUnbroken_tagsText _⟩

theorem isUnbroken_messageStart (hr : ofSettings settings facts = .ok r) :
    r.messageStart.IsUnbroken := by
  obtain rfl := eq_of_ofSettings hr
  have hstart : IsUnbroken "message e:".toList := by decide
  unfold messageStart
  rw [isUnbroken_append, isUnbroken_append, isUnbroken_append]
  exact ⟨⟨⟨hstart, isUnbroken_sanitizeName _⟩, isUnbroken_tagsText _⟩, Tag.isUnbroken_text _⟩

/-- A line of a counter, of a total or of a message has no line break, whatever stands in it. -/
theorem isUnbroken_render (hr : ofSettings settings facts = .ok r) {line : Line} {text : Text}
    (hline : line ∉ propertyLines) (h : r.render line = .ok text) : text.IsUnbroken := by
  have hseries := isUnbroken_seriesStart hr
  have hmessage := isUnbroken_messageStart hr
  have hcounter : r.counterMetric.IsUnbroken := by
    rw [eq_of_ofSettings hr]
    exact isUnbroken_sanitizeName _
  have htotal : r.totalMetric.IsUnbroken := by
    rw [eq_of_ofSettings hr]
    exact isUnbroken_sanitizeName _
  unfold render at h
  split at h
  · exact absurd (by decide) hline
  · exact absurd (by decide) hline
  · split at h
    · cases h
    split at h
    · cases h
    obtain rfl := Except.ok.inj h
    rw [isUnbroken_append, isUnbroken_append]
    exact ⟨⟨hseries, isUnbroken_metricText hcounter _⟩, isUnbroken_tagsText _⟩
  · split at h
    · cases h
    obtain rfl := Except.ok.inj h
    rw [isUnbroken_append, isUnbroken_append]
    exact ⟨⟨hseries, isUnbroken_metricText htotal _⟩, isUnbroken_tagsText _⟩
  · split at h
    · cases h
    split at h
    · cases h
    obtain rfl := Except.ok.inj h
    have hstart : IsUnbroken " m:".toList := by decide
    simp only [isUnbroken_append, isUnbroken_escapeValue_iff]
    exact ⟨⟨⟨⟨hmessage, hstart⟩, isUnbroken_foldNewlines _⟩, isUnbroken_tagsText _⟩,
      isUnbroken_tagsText _⟩

/-! ## Property lines -/

theorem isUnbroken_propertyText_iff (p : Property) :
    (propertyText p).IsUnbroken ↔ p.value.IsUnbroken := by
  unfold propertyText
  rw [isUnbroken_append, isUnbroken_append, isUnbroken_cons, isUnbroken_escapeValue_iff,
    and_iff_right ⟨by decide, isUnbroken_sanitizeName p.name⟩, and_iff_right (by decide)]

/-- A property line is unbroken exactly when its values are. -/
theorem isUnbroken_propertyLine_iff (hr : ofSettings settings facts = .ok r) {kind : Text}
    (hkind : kind.IsUnbroken) (properties : List Property) :
    (r.propertyLine kind properties).IsUnbroken ↔ ∀ p ∈ properties, p.value.IsUnbroken := by
  obtain rfl := eq_of_ofSettings hr
  have hstart : IsUnbroken ("property e:".toList ++ sanitizeName settings.entity) :=
    isUnbroken_append.2 ⟨by decide, isUnbroken_sanitizeName _⟩
  have htype : IsUnbroken " t:".toList := by decide
  have hcommand : IsUnbroken " k:command=".toList := by decide
  unfold propertyLine
  rw [isUnbroken_append, isUnbroken_flatMap, and_iff_right]
  · exact forall₂_congr fun p _ => isUnbroken_propertyText_iff p
  · rw [isUnbroken_append, isUnbroken_append, isUnbroken_append, isUnbroken_append,
      isUnbroken_escapeValue_iff]
    exact ⟨⟨⟨⟨hstart, htype⟩, hkind⟩, hcommand⟩, isUnbroken_sanitizeName _⟩

/-- What the settings line shows of a trigger has no line break. -/
theorem isUnbroken_triggerProperty (t : TriggerSettings) :
    (triggerProperty t).value.IsUnbroken := by
  have hslash : isLineBreak '/' = false := by decide
  unfold triggerProperty
  rw [isUnbroken_append, isUnbroken_cons]
  exact ⟨t.effectiveMultiplier.isUnbroken_toText, hslash, Decimal.isUnbroken_ofInt _⟩

/-- The settings line is unbroken exactly when the metric base and the announced transport are. -/
theorem isUnbroken_settings_iff (hr : ofSettings settings facts = .ok r) :
    (r.propertyLine "logger_settings" r.settings).IsUnbroken ↔
      settings.metricBase.IsUnbroken ∧ (announcedTransport settings.destination).IsUnbroken := by
  rw [isUnbroken_propertyLine_iff hr (by decide)]
  obtain rfl := eq_of_ofSettings hr
  simp [settingsProperties, isUnbroken_triggerProperty, Decimal.isUnbroken_ofNat,
    Decimal.isUnbroken_ofBool]

/-- The line about the process is unbroken exactly when the names of the host and of the system,
the architecture and the version are. -/
theorem isUnbroken_runtime_iff (hr : ofSettings settings facts = .ok r) :
    (r.propertyLine "logger_runtime" r.runtime).IsUnbroken ↔
      facts.hostname.IsUnbroken ∧ facts.os.IsUnbroken ∧ facts.arch.IsUnbroken ∧
        facts.version.IsUnbroken := by
  rw [isUnbroken_propertyLine_iff hr (by decide)]
  obtain rfl := eq_of_ofSettings hr
  simp [runtimeProperties, Decimal.isUnbroken_ofNat]

end Renderer

/-! ## Payloads -/

/-- A final line feed ends the last line. -/
theorem lines_append_lineFeed (t : Text) : Text.lines (t ++ ['\n']) = t.splitOn '\n' := by
  unfold Text.lines
  rw [List.splitOn_append_cons_self, List.splitOn_nil, List.reverse_append]
  exact List.reverse_reverse _

/-- A payload is cut into its lines exactly when none of them has a line feed. -/
theorem lines_payload_iff {lines : List Text} (h : lines ≠ []) :
    (payload lines).lines = lines ↔ ∀ line ∈ lines, '\n' ∉ line := by
  unfold payload
  rw [lines_append_lineFeed]
  constructor
  · intro hlines line hline
    rw [← hlines] at hline
    exact Text.not_mem_of_mem_splitOn hline
  · intro hlines
    exact List.splitOn_intercalate '\n' hlines h

end Wire

end LogShipper
