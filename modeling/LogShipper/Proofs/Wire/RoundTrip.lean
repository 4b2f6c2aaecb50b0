import LogShipper.Proofs.Wire.Decoding
import LogShipper.Proofs.Wire.Merging

/-!
# The lines of a shipper can be read back

Whatever stands in the settings, in the key, the label or the text of an event, in its stack or in
its context, the reader gets back from a line exactly the fields that the line is about
(`Renderer.decode_render`).  The names on a line are made names and so hold neither spaces nor
quotes, also those of merged tags, which are not changed by being made names once more.
-/

namespace LogShipper.Wire

/-! ## Names -/

theorem isName_sanitizeName (t : Text) : IsName (sanitizeName t) := by
  intro c hc
  refine ⟨?_, ne_quote_of_mem_sanitizeName hc⟩
  rintro rfl
  have hblank := isBlank_of_mem_sanitizeName hc
  rw [isBlank_space] at hblank
  cases hblank

/-! ## Tags -/

namespace Tag

/-- The field that a tag makes, if its key is a name. -/
def field (tag : Tag) : Field := .tag tag.key (foldNewlines tag.value)

end Tag

/-- Tags whose keys are names stand on a line as their fields. -/
theorem tagsText_eq {tags : List Tag} (h : ∀ tag ∈ tags, sanitizeName tag.key = tag.key) :
    tagsText tags = fieldsText (tags.map Tag.field) := by
  induction tags with
  | nil => rfl
  | cons tag tags ih =>
    have hrest := ih fun t ht => h t (List.mem_cons_of_mem _ ht)
    unfold tagsText fieldsText at hrest ⊢
    rw [List.flatMap_cons, List.map_cons, List.flatMap_cons, hrest]
    unfold Tag.text Tag.field
    rw [h tag List.mem_cons_self]
    rfl

theorem fits_tags {kind : Text} {tags : List Tag}
    (h : ∀ tag ∈ tags, sanitizeName tag.key = tag.key) :
    ∀ f ∈ tags.map Tag.field, f.Fits kind := by
  intro f hf
  obtain ⟨tag, htag, rfl⟩ := List.mem_map.1 hf
  show IsName tag.key
  rw [← h tag htag]
  exact isName_sanitizeName tag.key

/-! ## Lines -/

/-- The fields with which every series and every message begins. -/
def startFields (settings : Settings) : List Field :=
  .entity (sanitizeName settings.entity) ::
    (Tag.merge (settings.tags.entries.map fun e => ⟨e.1, e.2⟩)).map Tag.field

theorem fits_startFields (kind : Text) (settings : Settings) :
    ∀ f ∈ startFields settings, f.Fits kind := by
  intro f hf
  rcases List.mem_cons.1 hf with rfl | hf
  · exact isName_sanitizeName settings.entity
  · exact fits_tags (fun _ ht => Tag.sanitizeName_key_of_mem_merge ht) f hf

namespace Renderer

variable {settings : Settings} {facts : ProcessFacts} {r : Renderer}

/-- What a renderer holds. -/
theorem eq_of_ofSettings (hr : ofSettings settings facts = .ok r) : r =
    { entity := sanitizeName settings.entity
      tags := Tag.merge (settings.tags.entries.map fun e => ⟨e.1, e.2⟩)
      counterMetric := sanitizeName settings.counterMetric
      totalMetric := sanitizeName settings.totalMetric
      command := facts.command
      settings := settingsProperties settings
      runtime := runtimeProperties facts } := by
  unfold ofSettings at hr
  dsimp only at hr
  split at hr
  · cases hr
  · exact (Except.ok.inj hr).symm

/-- How a series begins. -/
theorem seriesStart_eq (hr : ofSettings settings facts = .ok r) :
    r.seriesStart = "series".toList ++ fieldsText (startFields settings) := by
  obtain rfl := eq_of_ofSettings hr
  unfold seriesStart startFields
  rw [tagsText_eq fun _ ht => Tag.sanitizeName_key_of_mem_merge ht]
  rfl

/-- How a message begins. -/
theorem messageStart_eq (hr : ofSettings settings facts = .ok r) :
    r.messageStart = "message".toList ++
      fieldsText (startFields settings ++ [.tag "type" "logger"]) := by
  obtain rfl := eq_of_ofSettings hr
  unfold messageStart startFields
  rw [tagsText_eq fun _ ht => Tag.sanitizeName_key_of_mem_merge ht, fieldsText_append]
  rfl

/-- The fields of a series line beyond its start. -/
theorem decode_series (hr : ofSettings settings facts = .ok r) (metric : Text) (value : Int)
    {tags : List Tag} (htags : ∀ tag ∈ tags, sanitizeName tag.key = tag.key) :
    decode (r.seriesStart ++ metricText (sanitizeName metric) value ++ tagsText tags) =
      some ⟨"series", startFields settings ++
        .metric (sanitizeName metric) value :: tags.map Tag.field⟩ := by
  have hmetric : metricText (sanitizeName metric) value =
      fieldsText [.metric (sanitizeName metric) value] := (List.append_nil _).symm
  rw [seriesStart_eq hr, hmetric, tagsText_eq htags, List.append_assoc, List.append_assoc,
    ← fieldsText_append, ← fieldsText_append]
  refine decode_line (by decide) fun f hf => ?_
  rcases List.mem_append.1 hf with hf | hf
  · exact fits_startFields _ settings f hf
  · rcases List.mem_cons.1 hf with rfl | hf
    · exact ⟨isName_sanitizeName metric, by decide⟩
    · exact fits_tags htags f hf

/-- The fields of a message line beyond its start. -/
theorem decode_message (hr : ofSettings settings facts = .ok r) (body : Text) {tags : List Tag}
    (htags : ∀ tag ∈ tags, sanitizeName tag.key = tag.key) :
    decode (r.messageStart ++ " m:".toList ++ escapeValue body ++ tagsText tags) =
      some ⟨"message", startFields settings ++ [.tag "type" "logger"] ++
        .body body :: tags.map Tag.field⟩ := by
  have hbody : " m:".toList ++ escapeValue body = fieldsText [.body body] :=
    (List.append_nil _).symm
  rw [messageStart_eq hr, List.append_assoc _ " m:".toList, hbody, tagsText_eq htags,
    List.append_assoc, List.append_assoc, ← fieldsText_append, ← fieldsText_append]
  refine decode_line (by decide) fun f hf => ?_
  rcases List.mem_append.1 hf with hf | hf
  · rcases List.mem_append.1 hf with hf | hf
    · exact fits_startFields _ settings f hf
    · obtain rfl := List.mem_singleton.1 hf
      exact (by decide : IsName "type".toList)
  · rcases List.mem_cons.1 hf with rfl | hf
    · rfl
    · exact fits_tags htags f hf

/-- The line of a counter. -/
theorem decode_counter (hr : ofSettings settings facts = .ok r) {key label text : Text}
    {value : Int} (h : r.render (.counter key label value) = .ok text) :
    decode text = some ⟨"series", startFields settings ++
      [.metric (sanitizeName settings.counterMetric) value,
        .tag "level" (foldNewlines label), .tag "logger" (foldNewlines key)]⟩ := by
  unfold render at h
  dsimp only at h
  split at h
  · cases h
  split at h
  · cases h
  obtain rfl := Except.ok.inj h
  obtain rfl := eq_of_ofSettings hr
  apply decode_series hr settings.counterMetric value
  intro tag htag
  obtain rfl | rfl : tag = ⟨"level", label⟩ ∨ tag = ⟨"logger", key⟩ := by simpa using htag
  · rfl
  · rfl

/-- The line of a total. -/
theorem decode_total (hr : ofSettings settings facts = .ok r) {label text : Text} {value : Int}
    (h : r.render (.total label value) = .ok text) :
    decode text = some ⟨"series", startFields settings ++
      [.metric (sanitizeName settings.totalMetric) value, .tag "level" (foldNewlines label)]⟩ := by
  unfold render at h
  dsimp only at h
  split at h
  · cases h
  obtain rfl := Except.ok.inj h
  obtain rfl := eq_of_ofSettings hr
  apply decode_series hr settings.totalMetric value
  intro tag htag
  obtain rfl := List.mem_singleton.1 htag
  rfl

/-- The line of a sample.  Its own tags and those of its context follow one another. -/
theorem decode_sample (hr : ofSettings settings facts = .ok r) {sample : Sample} {text : Text}
    (h : r.render (.message sample) = .ok text) :
    decode text = some ⟨"message", startFields settings ++
      [.tag "type" "logger", .body (foldNewlines (messageBody sample)),
        .tag "severity" sample.severity.name, .tag "level" (foldNewlines sample.label),
        .tag "source" (foldNewlines sample.key)] ++
      (Tag.merge sample.context).map Tag.field⟩ := by
  unfold render at h
  dsimp only at h
  split at h
  · cases h
  split at h
  · cases h
  obtain rfl := Except.ok.inj h
  let own : List Tag := [⟨"severity", sample.severity.name⟩, ⟨"level", sample.label⟩,
    ⟨"source", sample.key⟩]
  have hown : ∀ tag ∈ own, sanitizeName tag.key = tag.key := by
    intro tag htag
    obtain rfl | rfl | rfl : tag = ⟨"severity", sample.severity.name⟩ ∨
        tag = ⟨"level", sample.label⟩ ∨ tag = ⟨"source", sample.key⟩ := by simpa [own] using htag
    all_goals rfl
  have hseverity : foldNewlines sample.severity.name = sample.severity.name := by
    cases sample.severity <;> rfl
  have hall : ∀ tag ∈ own ++ Tag.merge sample.context, sanitizeName tag.key = tag.key :=
    List.forall_mem_append.2 ⟨hown, fun _ htag => Tag.sanitizeName_key_of_mem_merge htag⟩
  have htags : tagsText own ++ tagsText (Tag.merge sample.context) =
      tagsText (own ++ Tag.merge sample.context) := List.flatMap_append.symm
  have hread := decode_message hr (foldNewlines (messageBody sample)) hall
  rw [← htags, ← List.append_assoc, List.map_append] at hread
  apply hread.trans
  simp [own, Tag.field, hseverity]

/-- **No field can be forged.**  A line of a counter, of a total or of a message is read as exactly
the fields that it is about, in their order, whatever stands in the settings, in the key and the
label, in the text of the event, in its stack and in its context: the entity and the configured
tags, then the metric with its number, or the text with its stack, and then the tags of the line.
Each text value is read with its line breaks folded. -/
theorem decode_render (hr : ofSettings settings facts = .ok r) :
    (∀ key label value text, r.render (.counter key label value) = .ok text →
      decode text = some ⟨"series", startFields settings ++
        [.metric (sanitizeName settings.counterMetric) value,
          .tag "level" (foldNewlines label), .tag "logger" (foldNewlines key)]⟩) ∧
    (∀ label value text, r.render (.total label value) = .ok text →
      decode text = some ⟨"series", startFields settings ++
        [.metric (sanitizeName settings.totalMetric) value,
          .tag "level" (foldNewlines label)]⟩) ∧
    (∀ sample text, r.render (.message sample) = .ok text →
      decode text = some ⟨"message", startFields settings ++
        [.tag "type" "logger", .body (foldNewlines (messageBody sample)),
          .tag "severity" sample.severity.name, .tag "level" (foldNewlines sample.label),
          .tag "source" (foldNewlines sample.key)] ++
        (Tag.merge sample.context).map Tag.field⟩) := by
  refine ⟨?_, ?_, ?_⟩
  · intro key label value text h
    exact decode_counter hr h
  · intro label value text h
    exact decode_total hr h
  · intro sample text h
    exact decode_sample hr h

/-- A text that looks like the end of its value and a further tag is read as what it is. -/
theorem decode_render_of_quotes :
    let settings : Settings :=
      { entity := "web 1", tags := Dictionary.empty.insert "env" "prod eu" }
    let facts : ProcessFacts := ⟨"agent", 1, "web", "linux", "x86_64", "1.0"⟩
    let r : Renderer :=
      { entity := "web_1"
        tags := [⟨"env", "prod eu"⟩]
        counterMetric := "log_event_counter"
        totalMetric := "log_event_total_counter"
        command := "agent"
        settings := settingsProperties settings
        runtime := runtimeProperties facts }
    let sample : Sample :=
      { key := "app"
        label := "ERROR"
        severity := .error
        message := "x\" t:admin=1"
        stack := ["at main"]
        context := [⟨"user id", "a=b"⟩]
        depth := unlimitedStack }
    let text : Text :=
      "message e:web_1 t:env=\"prod eu\" t:type=logger m:\"x\"\" t:admin=1\\nat main\" " ++
        "t:severity=ERROR t:level=ERROR t:source=app t:user_id=\"a=b\""
    ofSettings settings facts = .ok r ∧ r.render (.message sample) = .ok text ∧
      decode text = some ⟨"message",
        [.entity "web_1", .tag "env" "prod eu", .tag "type" "logger",
          .body "x\" t:admin=1\\nat main", .tag "severity" "ERROR", .tag "level" "ERROR",
          .tag "source" "app", .tag "user_id" "a=b"]⟩ := by
  intro settings facts r sample text
  have hr : ofSettings settings facts = .ok r := rfl
  have hrender : r.render (.message sample) = .ok text := by decide +kernel
  obtain ⟨-, -, hmessage⟩ := decode_render hr
  refine ⟨hr, hrender, ?_⟩
  rw [hmessage sample text hrender]
  decide +kernel

end Renderer

end LogShipper.Wire
